import Handleplan.Db.PriceIngestion
import Handleplan.Lib.Double
import Handleplan.Lib.Json

/-!
# The normalizer of Open Prices

`normalizeOpenPricesOutcome` turns a row of the Open Prices service into an outcome: an accepted
price, or a row that is quarantined or unknown. The client hands on the rows as the service has sent
them, so a row is any value of JSON.

## Main definitions

* `OpenPrices.resolveChainFromLocation` — the chain of a location.
* `OpenPrices.normalizeOpenPricesOutcome` — the outcome of a row.
* `OpenPrices.Outcome.Storable` — what the ingestion repository demands of an outcome.

## Implementation notes

A function that throws answers `none`. The lower case of a text and the instant of a value that is
given as a date are functions of the runtime. A number of a row is its decimal; one that is too
large for double precision is infinite.
-/

namespace Handleplan.OpenPrices

open JsString PriceIngestion IngestionRuns

/-! ### Values -/

/-- The value of a number: none where it is infinite. -/
def numberValue (n : JsNumber) : Option ℚ :=
  (Double.ofRat (n.significand * 10 ^ n.exponent)).map fun value => if n.negative then -value else value

/-- A member of a value, as a property is read. -/
def member (value : Json) (name : String) : Option Json :=
  match value with
  | .object members => JsMap.get? members (js name)
  | _ => none

mutual

/-- The text of a value in a template; `none` where an object has no method for it. -/
def toText : Json → Option JsString
  | .null => some (js "null")
  | .boolean b => some (if b then js "true" else js "false")
  | .number n =>
    match numberValue n with
    | some _ => some n.text
    | none => some (if n.negative then js "-Infinity" else js "Infinity")
  | .string s => some s
  | .array items => (toTexts items).map (joinWith [44])
  | .object members =>
    if JsMap.has members (js "toString") then none else some (js "[object Object]")

/-- The texts of the items of an array, which are joined. -/
def toTexts : List Json → Option (List JsString)
  | [] => some []
  | .null :: items => (toTexts items).map fun texts => [] :: texts
  | item :: items => (toText item).bind fun text => (toTexts items).map fun texts => text :: texts

end

/-- The text of a property in a template. -/
def propertyText : Option Json → Option JsString
  | none => some (js "undefined")
  | some value => toText value

/-- `value?.trim()`. -/
def optionalTrim : Option Json → Option (Option JsString)
  | none => some none
  | some .null => some none
  | some (.string s) => some (some (trim s))
  | some _ => none

mutual

/-- All numbers of a value are finite. -/
def finiteNumbers : Json → Bool
  | .number n => (numberValue n).isSome
  | .array items => finiteItems items
  | .object members => finiteMembers members
  | _ => true

/-- All numbers of the items of an array are finite. -/
def finiteItems : List Json → Bool
  | [] => true
  | item :: items => finiteNumbers item && finiteItems items

/-- All numbers of the members of an object are finite. -/
def finiteMembers : List (JsString × Json) → Bool
  | [] => true
  | (_, value) :: members => finiteNumbers value && finiteMembers members

end

/-- `normalizedRecord`: the own properties of a value. -/
def normalizedRecord : Json → Json
  | .object members => .object members
  | .array items => .object (items.zipIdx.map fun entry => (ofNat entry.2, entry.1))
  | .string s => .object (s.zipIdx.map fun entry => (ofNat entry.2, .string [entry.1]))
  | _ => .object []

/-! ### Chains -/

/-- `CHAIN_BY_LOCATION_ID`. -/
def chainByLocationId : List (ℚ × Chain) :=
  [(2728, .rema1000), (3583, .rema1000), (357, .rema1000), (497, .rema1000),
    (2729, .bunnpris), (619, .bunnpris), (4006, .bunnpris), (6255, .bunnpris), (6543, .bunnpris),
    (3568, .extra), (341, .extra), (3148, .extra), (3663, .extra), (4210, .extra), (4418, .extra),
    (5454, .extra)]

/-- `CHAIN_BY_OSM_BRAND`. -/
def chainByOsmBrand : List (JsString × Chain) :=
  [(js "rema 1000", .rema1000), (js "rema1000", .rema1000), (js "bunnpris", .bunnpris),
    (js "coop extra", .extra), (js "extra", .extra)]

/-- The chain of an identifier of a location. -/
def chainOfId : Option Json → Option Chain
  | some (.number n) => (numberValue n).bind fun id => JsMap.get? chainByLocationId id
  | _ => none

section Runtime

variable (toLowerCase : JsString → JsString) (dateOf : Option Json → Option ℤ)

/-- `value?.toLowerCase().trim()`. -/
def optionalName : Option Json → Option (Option JsString)
  | none => some none
  | some .null => some none
  | some (.string s) => some (some (trim (toLowerCase s)))
  | some _ => none

/-- `text.includes(pattern)`. -/
def includes (text pattern : JsString) : Bool := text.tails.any fun rest => pattern.isPrefixOf rest

/-- The chain whose name is included in a text. -/
def chainIncluded (name : JsString) : Option Chain :=
  (chainByOsmBrand.find? fun entry => includes name entry.1).map Prod.snd

/-- `resolveChainFromLocation`, of the properties of a location; `none` where it throws. -/
def resolveChainFromLocation (id osmBrand osmName : Option Json) : Option (Option Chain) :=
  match chainOfId id with
  | some chain => some (some chain)
  | none =>
    (optionalName toLowerCase osmBrand).bind fun brand =>
      match brand.bind fun text => JsMap.get? chainByOsmBrand text with
      | some chain => some (some chain)
      | none => (optionalName toLowerCase osmName).map fun name => name.bind chainIncluded

variable (row : Json)

/-- The chain of a row; a row without a location has the identifier of one. -/
def chainOfRow : Option (Option Chain) :=
  match member row "location" with
  | none => resolveChainFromLocation toLowerCase (member row "location_id") none none
  | some .null => resolveChainFromLocation toLowerCase (member row "location_id") none none
  | some location =>
    resolveChainFromLocation toLowerCase (member location "id") (member location "osm_brand")
      (member location "osm_name")

/-! ### Outcomes -/

/-- What an outcome says of its price. -/
inductive Verdict where
  | accepted (subjectChain : Chain) (subjectEan : JsString) (amountOre : Option ℕ) (observedAt : ℤ)
      (sourceReference : JsString)
  | rejected (state : RejectedState) (reason : String) (subjectChain : Option Chain)
      (subjectEan : Option JsString)

/-- `OpenPricesPriceIngestionOutcome`. -/
structure Outcome where
  sourceRecordId : JsString
  normalizedRecord : Json
  recordedAt : ℤ
  verdict : Verdict

/-- `price.price`, where it is a number above zero that is finite. -/
def positivePrice : Option ℚ :=
  match member row "price" with
  | some (.number n) => (numberValue n).filter fun value => 0 < value
  | _ => none

/-- A property is a text. -/
def isText (value : Option Json) (text : JsString) : Bool :=
  match value with
  | some (.string s) => s = text
  | _ => false

/-- A property is `false`. -/
def isFalse : Option Json → Bool
  | some (.boolean false) => true
  | _ => false

/-- `Math.round(price * 100)`: none where it is infinite. -/
def amountOre (price : ℚ) : Option ℕ :=
  (Double.ofRat (price * 100)).map fun product => ⌊product + 1 / 2⌋.toNat

/-- The verdict on a row whose GTIN is valid. -/
def verdictOf (idText ean : JsString) : Option Verdict :=
  match positivePrice row with
  | none => some (.rejected .quarantined "INVALID_PRICE" none (some ean))
  | some price =>
    if isText (member row "currency") (js "NOK") = false then
      some (.rejected .quarantined "UNSUPPORTED_CURRENCY" none (some ean))
    else
      match dateOf (member row "date") with
      | none => some (.rejected .quarantined "INVALID_DATE" none (some ean))
      | some observedAt =>
        (chainOfRow toLowerCase row).map fun found =>
          match found with
          | none => .rejected .unknown "UNKNOWN_CHAIN" none (some ean)
          | some chain =>
            if isFalse (member row "price_is_discounted") = false then
              .rejected .quarantined "DISCOUNTED_PRICE" (some chain) (some ean)
            else .accepted chain ean (amountOre price) observedAt (js "open-prices:" ++ idText)

/-- The verdict on a row. -/
def verdictOfRow (idText : JsString) : Option Verdict :=
  (optionalTrim (member row "product_code")).bind fun code =>
    match code.filter isValidGtin with
    | none => some (.rejected .quarantined "INVALID_GTIN" none none)
    | some ean => verdictOf toLowerCase dateOf row idText ean

/-- `normalizeOpenPricesOutcome`; `none` where it throws. -/
def normalizeOpenPricesOutcome (fetchedAt : ℤ) : Option Outcome :=
  match row with
  | .null => none
  | row =>
    (propertyText (member row "id")).bind fun idText =>
      (verdictOfRow toLowerCase dateOf row idText).map fun verdict =>
        { sourceRecordId := js "op-" ++ idText
          normalizedRecord := normalizedRecord row
          recordedAt := fetchedAt
          verdict := verdict }

/-! ### Storage -/

/-- The outcome, as the repository gets it; an amount that is infinite is none. -/
def Outcome.toIngestion (outcome : Outcome) : Option PriceIngestionOutcome :=
  match outcome.verdict with
  | .accepted subjectChain subjectEan amountOre observedAt sourceReference =>
    amountOre.map fun amount =>
      .accepted ⟨none, outcome.recordedAt, outcome.sourceRecordId⟩ subjectChain subjectEan
        { amountOre := amount
          fetchedAt := outcome.recordedAt
          geographicScopeId := none
          observedAt := observedAt
          sourceReference := sourceReference }
  | .rejected state reason subjectChain subjectEan =>
    some (.rejected ⟨none, outcome.recordedAt, outcome.sourceRecordId⟩ state (js reason) subjectChain
      subjectEan none (some (Json.stringify outcome.normalizedRecord)))

/-- **What the repository demands of an outcome**: it passes the validation, and its record can be
hashed. -/
def Outcome.Storable (outcome : Outcome) : Prop :=
  (∃ ingested, outcome.toIngestion = some ingested ∧ ValidPriceOutcome ingested) ∧
    finiteNumbers outcome.normalizedRecord = true

/-- The outcomes of the rows that the client returns; `none` where one of them makes it throw. -/
def normalizeAll (rows : List Json) (fetchedAt : ℤ) : Option (List Outcome) :=
  rows.mapM fun row => normalizeOpenPricesOutcome toLowerCase dateOf row fetchedAt

end Runtime

end Handleplan.OpenPrices
