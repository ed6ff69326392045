import Handleplan.Domain.OfferIngestionContracts
import Handleplan.Lib.DecimalText
import Handleplan.Lib.Double
import Handleplan.Lib.TextSearch
import Handleplan.Lib.Utf8

/-!
# The offers of a MENY leaflet

The text of a page is cut at `UKENS TILBUD`. A block that carries an absolute price and a label
before it becomes a candidate; all others are skipped. Prices and packages are found by regular
expressions.

## Main definitions

* `Meny.findSplitDigitPrice`, `Meny.findStandaloneDecimal` — the price of a
  block.
* `Meny.parsePackage` — the package of a block.
* `Meny.parseMenyOffers` — the candidates of all pages.
* `Meny.extract` — the envelope of the extractor.

## Implementation notes

Which code points are letters or numbers is a function of the runtime. A numeral is converted in
double precision; one that is infinite is none. The case-insensitive expressions fold the long s and
the sign of the kelvin too. A regular expression is a reading of the beginning of a text, searched
from the left; each has at most one way to match at a place.
-/

namespace Handleplan.Meny

open JsString TextSearch
open CivilTime (number)

/-! ### Characters -/

/-- A unit of a pattern and a code unit that it matches where the case is ignored: a capital letter
has others, a blank has not. -/
def foldsTo (unit u : UInt16) : Bool :=
  u = unit || (65 ≤ unit && u = unit + 32) || (unit = 75 && u = 0x212A) || (unit = 83 && u = 0x17F)

/-- `\\w`. -/
def isWordUnit (u : UInt16) : Bool :=
  isDigit u || (65 ≤ u && u ≤ 90) || (97 ≤ u && u ≤ 122) || u = 95

/-- `\\w`, where the case is ignored. -/
def isWordUnitFolded (u : UInt16) : Bool := isWordUnit u || u = 0x17F || u = 0x212A

/-- `.` does not match a line terminator. -/
def isLineTerminator (u : UInt16) : Bool := u = 10 || u = 13 || u = 0x2028 || u = 0x2029

/-- `FØRPRIS`. -/
def forpris : JsString := js "FØRPRIS"

/-! ### Prices -/

/-- `ParsedPrice`. -/
structure ParsedPrice where
  startIndex : ℕ
  ore : ℕ
  endIndex : ℕ

variable (s : JsString)

/-- `SPLIT_DIGIT_PRICE`: the two numerals. -/
def splitDigitPriceAt : Option (JsString × JsString) :=
  match s.dropWhile isDigit with
  | 32 :: d :: d' :: 32 :: 47 :: 32 :: _ =>
    if (1 ≤ (s.takeWhile isDigit).length ∧ (s.takeWhile isDigit).length ≤ 3) ∧
        isDigit d = true ∧ isDigit d' = true then
      some (s.takeWhile isDigit, [d, d'])
    else none
  | _ => none

/-- A whole numeral, a comma and two digits: the two numerals, and what follows. -/
def commaNumeralAt : Option (JsString × JsString × JsString) :=
  match s.dropWhile isDigit with
  | 44 :: d :: d' :: after =>
    if (1 ≤ (s.takeWhile isDigit).length ∧ (s.takeWhile isDigit).length ≤ 4) ∧
        isDigit d = true ∧ isDigit d' = true then
      some (s.takeWhile isDigit, [d, d'], after)
    else none
  | _ => none

/-- `DECIMAL_PRICE`: the two numerals. -/
def decimalPriceAt : Option (JsString × JsString) :=
  (commaNumeralAt s).bind fun found =>
    if (found.2.2.head?.any isDigit) = true then none else some (found.1, found.2.1)

/-- `BEFORE_PRICE`: the two numerals. -/
def beforePriceAt : Option (JsString × JsString) :=
  (afterPrefix (fun a b => a == b) forpris s).bind fun rest =>
    if (rest.head?.any isSpace) = true then
      (commaNumeralAt (rest.dropWhile isSpace)).map fun found => (found.1, found.2.1)
    else none

/-- The amount of two numerals. -/
def oreOf (numerals : JsString × JsString) : ℕ := number numerals.1 * 100 + number numerals.2

/-- `findSplitDigitPrice`, from the beginning of a text. -/
def findSplitDigitPrice (text : JsString) : Option ParsedPrice :=
  (search splitDigitPriceAt text).map fun found =>
    { startIndex := found.1.length
      ore := oreOf found.2
      endIndex := found.1.length + found.2.1.length + 6 }

/-- `(KG|L|STK|PK)`, where the case is ignored: what follows. -/
def unitAt : Option JsString :=
  (afterPrefix foldsTo (js "KG") s).or <| (afterPrefix foldsTo (js "L") s).or <|
    (afterPrefix foldsTo (js "STK") s).or (afterPrefix foldsTo (js "PK") s)

/-- White space, a slash, white space and a unit: what follows. -/
def perUnitAt : Option JsString :=
  match s.dropWhile isSpace with
  | 47 :: rest => unitAt (rest.dropWhile isSpace)
  | _ => none

/-- `COMPARISON_PRICE`. -/
def comparisonPriceAt : JsString → Option JsString
  | u :: rest =>
    if u = 40 ∨ u = 47 then
      (commaNumeralAt (rest.dropWhile isSpace)).bind fun found => perUnitAt found.2.2
    else none
  | [] => none

/-- `TRAILING_UNIT_PRICE`. -/
def trailingUnitPriceAt : JsString → Option JsString
  | 44 :: d :: d' :: after =>
    if isDigit d = true ∧ isDigit d' = true then
      (perUnitAt after).filter fun rest => !(rest.head?.any isWordUnitFolded)
    else none
  | _ => none

/-- `isComparisonContext`. -/
def isComparisonContext (text : JsString) (index : ℕ) : Bool :=
  (search comparisonPriceAt (slice text (index - 12) (index + 24))).isSome

/-- `BEFORE_PRICE_PREFIX`. -/
def endsWithForpris : Bool := forpris.isSuffixOf (s.rdropWhile isSpace)

/-- `findStandaloneDecimal`, from the beginning of a text. -/
def findStandaloneDecimal (text : JsString) : Option ParsedPrice :=
  (search decimalPriceAt text).bind fun found =>
    let absoluteIndex := found.1.length
    if endsWithForpris (slice text (absoluteIndex - 10) absoluteIndex) = true then none
    else if isComparisonContext text absoluteIndex = true ∨
        (search trailingUnitPriceAt (slice text absoluteIndex (absoluteIndex + 16))).isSome = true then
      none
    else some
      { startIndex := absoluteIndex
        ore := oreOf found.2
        endIndex := absoluteIndex + found.2.1.length + 3 }

/-- The price of a block: the split one, or else the decimal one. -/
def priceOf (block : JsString) : Option ParsedPrice :=
  (findSplitDigitPrice block).or (findStandaloneDecimal block)

/-! ### Labels -/

/-- The code points of a text, each as its code units. -/
def points : JsString → List JsString
  | [] => []
  | [u] => [[u]]
  | u :: v :: rest =>
    if JsonText.isHigh u && JsonText.isLow v then [u, v] :: points rest else [u] :: points (v :: rest)

/-- `.replace(/FØRPRIS.*$/iu, "")`. -/
def cutForpris : JsString → JsString
  | [] => []
  | u :: rest =>
    if (afterPrefix foldsTo forpris (u :: rest)).any fun after => after.all fun v =>
        !isLineTerminator v then []
    else u :: cutForpris rest

/-- `NUMERIC_LABEL`. -/
def isNumericLabel (label : JsString) : Bool :=
  label.all fun u => isDigit u || isSpace u || u = 46 || u = 44 || u = 45 || u = 47

section Runtime

variable (isLetterOrNumber : JsString → Bool)

/-- `.replace(/[^\\p{L}\\p{N}][^\\p{L}\\p{N}]*$/u, "")`. -/
def cutTail (s : JsString) : JsString :=
  ((points s).rdropWhile fun point => !isLetterOrNumber point).flatten

/-- `labelBefore`. -/
def labelBefore (text : JsString) (startIndex : ℕ) : Option JsString :=
  let label := trim (cutTail isLetterOrNumber (cutForpris (text.take startIndex)))
  if label = [] then none else if 120 < label.length then none else some label

/-- The price and the label of a block that is not skipped. -/
def offerOf (block : JsString) : Option (ParsedPrice × JsString) :=
  (priceOf block).bind fun price =>
    (labelBefore isLetterOrNumber block price.startIndex).bind fun label =>
      if label.contains 42 || isNumericLabel label then none else some (price, label)

end Runtime

/-! ### Packages -/

/-- `(G|KG|ML|L|STK)`. -/
inductive UnitCode where
  | g | kg | ml | l | stk
  deriving DecidableEq

/-- The text of a code. -/
def UnitCode.text : UnitCode → JsString
  | .g => js "G"
  | .kg => js "KG"
  | .ml => js "ML"
  | .l => js "L"
  | .stk => js "STK"

/-- `UNIT_BY_CODE`. -/
def unitByCode : UnitCode → ExtractedPackageUnit
  | .g => .g
  | .kg => .g
  | .ml => .ml
  | .l => .ml
  | .stk => .piece

/-- A quantity, as it is written. -/
structure Quantity where
  unitsPerPack : Option JsString
  whole : JsString
  fraction : JsString
  code : UnitCode
  deriving DecidableEq

/-- A code at the end of a word, after one space or none: the code, and what follows. -/
def codeAt (s : JsString) : Option (UnitCode × JsString) :=
  let rest := if s.head? = some 32 then s.tail else s
  [UnitCode.g, .kg, .ml, .l, .stk].findSome? fun code =>
    ((afterPrefix (fun a b => a == b) code.text rest).filter fun after =>
      !(after.head?.any isWordUnit)).map fun after => (code, after)

/-- `PACKAGE_SINGLE`: the quantity, and what follows. -/
def packageSingleAt (s : JsString) : Option (Quantity × JsString) :=
  (afterPrefix (fun a b => a == b) (js "PK ") s).bind fun rest =>
    if rest.takeWhile isDigit = [] then none
    else (codeAt (rest.dropWhile isDigit)).map fun found =>
      (⟨none, rest.takeWhile isDigit, [], found.1⟩, found.2)

/-- `PACKAGE_MULTI`: the quantity, and what follows. -/
def packageMultiAt (s : JsString) : Option (Quantity × JsString) :=
  (afterPrefix (fun a b => a == b) (js "PK ") s).bind fun rest =>
    match rest.dropWhile isDigit with
    | 88 :: rest' =>
      match rest'.dropWhile isDigit with
      | 44 :: rest'' =>
        if rest.takeWhile isDigit ≠ [] ∧ rest'.takeWhile isDigit ≠ [] ∧
            1 ≤ (rest''.takeWhile isDigit).length ∧ (rest''.takeWhile isDigit).length ≤ 2 then
          (codeAt (rest''.dropWhile isDigit)).map fun found =>
            (⟨some (rest.takeWhile isDigit), rest'.takeWhile isDigit, rest''.takeWhile isDigit,
              found.1⟩, found.2)
        else none
      | _ => none
    | _ => none

/-- The package text of a block, with what stands before it and what follows. -/
def packageText (block : JsString) : Option (JsString × Quantity × JsString) :=
  (search packageMultiAt block).or (search packageSingleAt block)

/-- `Number`, of a numeral with a fraction. -/
def decimalValue (whole fraction : JsString) : Option ℚ :=
  Double.ofRat (number (whole ++ fraction) / 10 ^ fraction.length)

/-- `toUnitAmount`. -/
def toUnitAmount (rawAmount : Option ℚ) : UnitCode → Option ℚ
  | .kg => rawAmount.bind fun amount => Double.ofRat (amount * 1000)
  | .l => rawAmount.bind fun amount => Double.ofRat (amount * 1000)
  | _ => rawAmount

/-- The amount of a quantity. -/
def Quantity.amount (quantity : Quantity) : Option ℚ :=
  toUnitAmount (decimalValue quantity.whole quantity.fraction) quantity.code

/-- The number of units of a quantity. -/
def Quantity.units (quantity : Quantity) : Option ℚ :=
  quantity.unitsPerPack.elim (some 1) fun text => decimalValue text []

/-- A package, as it is built. -/
inductive MenyPackage where
  | parsed (amount : Option ℚ) (unit : ExtractedPackageUnit) (unitsPerPack : Option ℚ)
  | unknown

/-- `parsePackage`. -/
def parsePackage (segment : JsString) : MenyPackage :=
  (packageText segment).elim .unknown fun found =>
    .parsed found.2.1.amount (unitByCode found.2.1.code) found.2.1.units

/-! ### Pages -/

/-- The pieces of a text between the places of `UKENS TILBUD`, after a number of code units that are
passed over. -/
def piecesFrom : ℕ → JsString → List JsString
  | _, [] => [[]]
  | passed + 1, _ :: rest => piecesFrom passed rest
  | 0, u :: rest =>
    if (afterPrefix foldsTo (js "UKENS TILBUD") (u :: rest)).isSome then [] :: piecesFrom 11 rest
    else
      match piecesFrom 0 rest with
      | [] => [[u]]
      | piece :: pieces => (u :: piece) :: pieces

/-- `page.split(/UKENS TILBUD/iu).slice(1)`. -/
def blocksOf (page : JsString) : List JsString := (piecesFrom 0 page).tail

/-- A block and its place. -/
structure Place where
  pageIndex : ℕ
  blockIndex : ℕ
  block : JsString
  deriving DecidableEq

/-- The blocks of all pages, in order. -/
def placesOf (pageTexts : List JsString) : List Place :=
  pageTexts.zipIdx.flatMap fun page => (blocksOf page.1).zipIdx.map fun block =>
    ⟨page.2, block.2, block.1⟩

/-- A candidate, as it is built. -/
structure MenyCandidate where
  candidateKey : JsString
  label : JsString
  package : MenyPackage
  offerPriceOre : ℕ
  beforePriceOre : Option ℕ
  isMember : Bool
  evidenceLocator : JsString
  confidence : ℕ
  anomalyCodes : List AnomalyCode

/-- `beforePriceOre`. -/
def beforePriceOre (block : JsString) : Option ℕ :=
  (search beforePriceAt block).map fun found => oreOf found.2

section Runtime

variable (isLetterOrNumber : JsString → Bool)

/-- The candidate of a block that is not skipped. -/
def candidateOf (place : Place) : Option MenyCandidate :=
  (offerOf isLetterOrNumber place.block).map fun offer =>
    { candidateKey := js "p" ++ ofNat place.pageIndex ++ js "-b" ++ ofNat place.blockIndex
      label := offer.2
      package := parsePackage place.block
      offerPriceOre := offer.1.ore
      beforePriceOre := beforePriceOre place.block
      isMember := (search (afterPrefix (fun a b => a == b) (js "TRUMF")) place.block).isSome
      evidenceLocator := js "pageTexts[" ++ ofNat place.pageIndex ++ js "]"
      confidence := if (findSplitDigitPrice place.block).isSome then 60 else 40
      anomalyCodes := [.extractorAnomaly, .unknownScope, .unreadableDate] ++
        if (beforePriceOre place.block).any fun before => decide (before < offer.1.ore) then
          [.beforePriceBelowOffer]
        else [] }

/-- `MenyParseResult`. -/
structure MenyParseResult where
  candidates : List MenyCandidate
  skippedBlocks : ℕ

/-- `parseMenyOffers`. -/
def parseMenyOffers (pageTexts : List JsString) : MenyParseResult where
  candidates := (placesOf pageTexts).filterMap (candidateOf isLetterOrNumber)
  skippedBlocks := (placesOf pageTexts).countP fun place =>
    (candidateOf isLetterOrNumber place).isNone

end Runtime

/-! ### The envelope -/

/-- A number of the contract: a natural number. -/
def natOf (value : Option ℚ) : Option ℕ :=
  value.bind fun value => if value.den = 1 ∧ 0 ≤ value.num then some value.num.toNat else none

/-- The package, as the schema reads it. -/
def MenyPackage.parse : MenyPackage → Option ExtractedPackage
  | .parsed amount unit unitsPerPack => (natOf amount).bind fun amount =>
    (natOf unitsPerPack).map fun unitsPerPack => .parsed amount unit unitsPerPack
  | .unknown => some (.unknown .missing)

/-- The candidate, as the schema reads it. -/
def MenyCandidate.parse (candidate : MenyCandidate) : Option ExtractedOfficialOfferCandidate :=
  candidate.package.parse.map fun package =>
    { candidateKey := trim candidate.candidateKey
      product := .unresolvedLabel (trim candidate.label) none
      package := package
      pricing := .unit candidate.offerPriceOre candidate.beforePriceOre
      eligibility := if candidate.isMember then .member (js "trumf") else .publicEligibility
      validity := .unreadable .missing
      geographicScope := .unknown (js "meny-payload-carries-no-scope-evidence")
      channels := [.inStore]
      provenance := ⟨.embeddedText, trim candidate.evidenceLocator, candidate.confidence⟩
      anomalyCodes := candidate.anomalyCodes }

/-- What the extractor gets, and two readings of the clock. -/
structure Extraction where
  captureChecksumSha256 : JsString
  startedAt : ℤ
  completedAt : ℤ

/-- `MENY_LAYOUT_FINGERPRINT`, of the digest. -/
def menyLayoutFingerprint (sha256 : JsString → JsString) : JsString :=
  sha256 (js "meny-page-texts-review-v1")

/-- The envelope of candidates, as the schema reads it. -/
def envelopeOf (sha256 : JsString → JsString) (extraction : Extraction)
    (candidates : List MenyCandidate) : Option OfficialOfferExtractionEnvelope :=
  (candidates.mapM MenyCandidate.parse).map fun parsed =>
    { captureChecksumSha256 := extraction.captureChecksumSha256
      extractorVersion := js "meny-embedded-text-v1"
      method := .embeddedText
      layoutFingerprintSha256 := menyLayoutFingerprint sha256
      schemaFingerprintSha256 := menyLayoutFingerprint sha256
      startedAt := extraction.startedAt
      completedAt := extraction.completedAt
      emptyResult := if candidates.length ≠ 0 then .notEmpty else .unexpectedEmpty
      emptyConfirmation := none
      candidates := parsed }

/-- `createMenyEmbeddedTextExtractor`: the envelope, where the schema accepts it. -/
def extract (isLetterOrNumber : JsString → Bool) (sha256 : JsString → JsString)
    (extraction : Extraction) (pageTexts : List JsString) :
    Option OfficialOfferExtractionEnvelope :=
  (envelopeOf sha256 extraction (parseMenyOffers isLetterOrNumber pageTexts).candidates).filter
    fun envelope => decide (OfficialOfferExtractionEnvelopeSchema envelope)

end Handleplan.Meny
