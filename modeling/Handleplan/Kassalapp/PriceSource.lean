import Handleplan.Lib.JsMap
import Handleplan.Lib.Sorting
import Handleplan.Worker.Schedule

/-!
# Prices from the Kassalapp source

A run asks the source for the prices of its targets, a slice of them at a time. Each response is
turned into outcomes, one or more for each row of it, and all outcomes of the run go to one ledger,
which holds one outcome for each record.

## Main definitions

* `Kassalapp.PriceOutcome` — what becomes of a row.
* `Kassalapp.canonicalizeSourceRecordOutcomes` — the outcomes of a response, with
  duplicates brought together.
* `Kassalapp.normalizePriceSourceResponse`, `normalizeHistoricalPriceSourceResponse` —
  the outcomes of a response.
* `Kassalapp.priceOutcomes` — the outcomes of a run.
* `Kassalapp.auditOutcomes` — the ledger.

## Implementation notes

A row is given by what its schema makes of it: its parsed fields, or the one field that is looked at
when it does not parse. Amounts are in øre. `Date.parse` is a function of the runtime, and so is the
JSON text of an outcome, by which outcomes of a record are put in order; outcomes are the same if
they have the same fields. The contract version, the source and the kind of a record are constants
and left out.
-/

namespace Handleplan.Kassalapp

open JsString Workers

/-! ### Chains -/

/-- What `CHAIN_BY_CODE[code]` reads: a chain, or a property that every object inherits. -/
inductive ChainId where
  | chain (chain : Chain)
  | inherited (property : JsString)
  deriving DecidableEq

/-- `CHAIN_BY_CODE`. -/
def chainByCode : List (JsString × Chain) :=
  [(js "BUNNPRIS", .bunnpris), (js "COOP_EXTRA", .extra), (js "REMA_1000", .rema1000),
    (js "FUDI", .fudi), (js "HOLDBART", .holdbart), (js "MENY_NO", .meny),
    (js "HAVARISTEN", .havaristen), (js "JOKER_NO", .joker), (js "SPAR_NO", .spar),
    (js "FASTCANDY", .fastcandy), (js "EUROPRIS_NO", .europris), (js "ENGROSSNETT_NO", .engrossnett),
    (js "ODA_NO", .oda)]

/-- The properties of `Object.prototype`. -/
def inheritedProperties : List JsString :=
  [js "__defineGetter__", js "__defineSetter__", js "__lookupGetter__", js "__lookupSetter__",
    js "__proto__", js "constructor", js "hasOwnProperty", js "isPrototypeOf",
    js "propertyIsEnumerable", js "toLocaleString", js "toString", js "valueOf"]

/-- `CHAIN_BY_CODE[code]`. -/
def chainOfCode (code : JsString) : Option ChainId :=
  match JsMap.get? chainByCode code with
  | some chain => some (.chain chain)
  | none => if code ∈ inheritedProperties then some (.inherited code) else none

/-- The chain, where there is one. -/
def ChainId.chain? : ChainId → Option Chain
  | .chain c => some c
  | .inherited _ => none

/-! ### Outcomes -/

/-- The reasons of the outcomes of prices. -/
inductive Reason where
  | duplicateIdentity | futureTimestamp | identifierMismatch | invalidGtin | malformedRecord
  | unknownChain | batchFailed | missingPrice | missingRequestedEan | missingSupportedChain
  | missingTimestamp
  deriving DecidableEq

/-- `observationKind`. -/
inductive ObservationKind where
  | current | historical
  deriving DecidableEq

/-- The text of a kind. -/
def ObservationKind.text : ObservationKind → JsString
  | .current => js "current"
  | .historical => js "historical"

/-- `KassalappPriceSourceRecordV1`. -/
structure PriceSourceRecord where
  sourceRecordId : JsString
  retrievedAt : JsString
  ean : JsString
  chainId : ChainId
  chainCode : JsString
  amountOre : ℕ
  observationKind : ObservationKind
  observedAt : JsString
  deriving DecidableEq

/-- The states of an outcome. -/
inductive SourceOutcomeState where
  | accepted | quarantined | unknown
  deriving DecidableEq

/-- What an outcome that is not accepted says of its subject. -/
structure Subject where
  chainCode : Option JsString := none
  chainId : Option ChainId := none
  ean : Option JsString := none
  deriving DecidableEq

/-- An outcome that is not accepted: quarantined, or else unknown. -/
structure Rejection where
  isQuarantined : Bool
  sourceRecordId : JsString
  reason : Reason
  subject : Subject
  deriving DecidableEq

/-- `SourceRecordOutcome`, of prices. -/
inductive PriceOutcome where
  | accepted (record : PriceSourceRecord)
  | rejected (rejection : Rejection)
  deriving DecidableEq

/-- An outcome in the state `quarantined`. -/
def quarantined (sourceRecordId : JsString) (reason : Reason) (subject : Subject) : PriceOutcome :=
  .rejected ⟨true, sourceRecordId, reason, subject⟩

/-- An outcome in the state `unknown`. -/
def unknown (sourceRecordId : JsString) (reason : Reason) (subject : Subject) : PriceOutcome :=
  .rejected ⟨false, sourceRecordId, reason, subject⟩

namespace PriceOutcome

/-- `outcomeSourceRecordId`. -/
def sourceRecordId : PriceOutcome → JsString
  | accepted record => record.sourceRecordId
  | rejected rejection => rejection.sourceRecordId

/-- The record of an accepted outcome. -/
def record? : PriceOutcome → Option PriceSourceRecord
  | accepted record => some record
  | rejected _ => none

/-- `state`. -/
def state : PriceOutcome → SourceOutcomeState
  | accepted _ => .accepted
  | rejected rejection => if rejection.isQuarantined then .quarantined else .unknown

/-- What an outcome, or its record, says of the subject. -/
def subject : PriceOutcome → Subject
  | accepted record => ⟨some record.chainCode, some record.chainId, some record.ean⟩
  | rejected rejection => rejection.subject

end PriceOutcome

/-! ### Canonical outcomes -/

/-- The value that is the same in all that have one. -/
def common {α : Type} [DecidableEq α] (values : List (Option α)) : Option α :=
  match (values.reduceOption).dedup with
  | [value] => some value
  | _ => none

/-- `commonOutcomeSubject`. -/
def commonOutcomeSubject (outcomes : List PriceOutcome) : Subject where
  chainCode := common (outcomes.map fun outcome => outcome.subject.chainCode)
  chainId := (common (outcomes.map fun outcome =>
    outcome.subject.chainId.bind ChainId.chain?)).map .chain
  ean := common (outcomes.map fun outcome => outcome.subject.ean)

/-- The records of the accepted outcomes of a group. -/
def acceptedRecords (group : List PriceOutcome) : List PriceSourceRecord :=
  group.filterMap PriceOutcome.record?

/-- Whether the outcomes of a group contradict each other: two different records are accepted, or
one is accepted and something else is not. -/
def IsContested (group : List PriceOutcome) : Prop :=
  1 < (acceptedRecords group).dedup.length ∨
    acceptedRecords group ≠ [] ∧ ∃ outcome ∈ group, outcome.state ≠ .accepted

instance : DecidablePred IsContested := fun _ => inferInstanceAs (Decidable (_ ∨ _ ∧ _))

section Canonical

variable (host : Host) (stringify : PriceOutcome → JsString)

/-- `order`, the rank of a state. -/
def stateRank : SourceOutcomeState → ℕ
  | .accepted => 0
  | .quarantined => 1
  | .unknown => 2

/-- The order of the outcomes of one record. -/
def compareOutcomes : PriceOutcome → PriceOutcome → Ordering :=
  compareLex (compareOn fun outcome => stateRank outcome.state)
    fun left right => host.localeCompare (stringify left) (stringify right)

/-- The canonical outcomes of a group. -/
def canonicalGroup (sourceRecordId : JsString) (group : List PriceOutcome) : List PriceOutcome :=
  if IsContested group then
    [quarantined sourceRecordId .duplicateIdentity (commonOutcomeSubject group)]
  else
    Sorting.sortBy (compareOutcomes host stringify)
      (JsMap.ofEntries (group.map fun outcome => (outcome, outcome))).values

/-- `canonicalizeSourceRecordOutcomes`. -/
def canonicalizeSourceRecordOutcomes (outcomes : List PriceOutcome) : List PriceOutcome :=
  (Sorting.sortBy (Sorting.on Prod.fst host.localeCompare)
    (JsMap.groupBy PriceOutcome.sourceRecordId outcomes)).flatMap fun entry =>
      canonicalGroup host stringify entry.1 entry.2

end Canonical

/-! ### Rows -/

/-- A row of `stores` that parses: `upstreamPriceStoreSchema`. -/
structure StoreRow where
  store : JsString
  currentPriceOre : Option ℕ
  lastChecked : Option ℤ

/-- A row of `stores`; of one that does not parse, its `store` where that is a text. -/
inductive StoreCandidate where
  | parsed (row : StoreRow)
  | malformed (store : Option JsString)

/-- Whether a text has the letters of a date: digits and hyphens. -/
def IsDateText (date : JsString) : Prop := ∀ u ∈ date, (48 ≤ u ∧ u ≤ 57) ∨ u = 45

/-- A row of `price_history`; the price is there if it is one of `upstreamPriceAmountSchema`. -/
structure HistoryRow where
  store : JsString
  date : JsString
  amountOre : Option ℕ
  isDateText : IsDateText date

/-- A product that parses: `upstreamPriceProductSchema`. -/
structure ProductRow where
  ean : JsString
  stores : List StoreCandidate
  priceHistory : List HistoryRow

/-- A row of `data`; of one that does not parse, its `ean` where that is a text. -/
inductive ProductCandidate where
  | parsed (row : ProductRow)
  | malformed (ean : Option JsString)

/-! ### Outcomes of rows -/

/-- `priceSourceRecordId`. -/
def priceSourceRecordId (ean chainCode : JsString) (observationKind : ObservationKind)
    (observedAt : JsString) (amountOre : Option ℕ) : JsString :=
  ean ++ js ":" ++ chainCode ++ js ":" ++ observationKind.text ++ js ":" ++ observedAt ++
    match observationKind with
    | .current => []
    | .historical => js ":" ++ amountOre.elim (js "missing") JsString.ofNat

/-- `PriceNormalizationContext`, of the gateway. -/
structure PriceNormalizationContext where
  expectedEans : List JsString
  now : ℤ

/-- `retrievedAt` of the gateway. -/
def PriceNormalizationContext.retrievedAt (context : PriceNormalizationContext) : JsString :=
  toISOString context.now

section Rows

variable (dateParse : JsString → ℤ) (context : PriceNormalizationContext)

/-- `timestampIsFuture`. -/
def timestampIsFuture (value : JsString) : Bool := context.now < dateParse value

variable (ean : JsString)

/-- The outcome of a store row that parses. -/
def storeRowOutcome (row : StoreRow) : PriceOutcome :=
  let observedAt := row.lastChecked.elim (js "unknown-time") toISOString
  let sourceRecordId := priceSourceRecordId ean row.store .current observedAt row.currentPriceOre
  match chainOfCode row.store with
  | none => quarantined sourceRecordId .unknownChain ⟨some row.store, none, some ean⟩
  | some chainId =>
    let subject : Subject := ⟨some row.store, some chainId, some ean⟩
    if row.lastChecked = none then unknown sourceRecordId .missingTimestamp subject
    else if timestampIsFuture dateParse context observedAt then
      quarantined sourceRecordId .futureTimestamp subject
    else
      match row.currentPriceOre with
      | none => unknown sourceRecordId .missingPrice subject
      | some amountOre => .accepted
          { sourceRecordId := sourceRecordId
            retrievedAt := context.retrievedAt
            ean := ean
            chainId := chainId
            chainCode := row.store
            amountOre := amountOre
            observationKind := .current
            observedAt := observedAt }

/-- The chain code that is taken from a store row that does not parse. -/
def malformedChainCode (store : Option JsString) : Option JsString :=
  (store.map trim).filter fun chainCode => decide (chainCode ≠ [])

/-- What is read for the chain code of a store row that does not parse, the empty one too. -/
def malformedChainId (store : Option JsString) : Option ChainId :=
  (store.map trim).bind chainOfCode

/-- `fallbackRecordId`. -/
def fallbackRecordId (storeIndex : ℕ) : JsString :=
  ean ++ js ":" ++ js "store-" ++ JsString.ofNat storeIndex

/-- The outcome of a store row. -/
def storeOutcome (storeIndex : ℕ) : StoreCandidate → PriceOutcome
  | .parsed row => storeRowOutcome dateParse context ean row
  | .malformed store => quarantined (fallbackRecordId ean storeIndex) .malformedRecord
      ⟨malformedChainCode store, malformedChainId store, some ean⟩

/-- The outcome of a row of the price history. -/
def historyOutcome (history : HistoryRow) : PriceOutcome :=
  let observedAt := history.date ++ js "T00:00:00.000Z"
  let sourceRecordId :=
    priceSourceRecordId ean history.store .historical observedAt history.amountOre
  match chainOfCode history.store with
  | none => quarantined sourceRecordId .unknownChain ⟨some history.store, none, some ean⟩
  | some chainId =>
    let subject : Subject := ⟨some history.store, some chainId, some ean⟩
    match history.amountOre with
    | none => quarantined sourceRecordId .malformedRecord subject
    | some amountOre =>
      if timestampIsFuture dateParse context observedAt then
        quarantined sourceRecordId .futureTimestamp subject
      else .accepted
        { sourceRecordId := sourceRecordId
          retrievedAt := context.retrievedAt
          ean := ean
          chainId := chainId
          chainCode := history.store
          amountOre := amountOre
          observationKind := .historical
          observedAt := observedAt }

variable (kind : ObservationKind)

/-- The outcomes of the rows of a product that was asked for. -/
def rowOutcomes (product : ProductRow) : List PriceOutcome :=
  match kind with
  | .current => product.stores.zipIdx.map fun (candidate, storeIndex) =>
      storeOutcome dateParse context product.ean storeIndex candidate
  | .historical => product.priceHistory.map (historyOutcome dateParse context product.ean)

/-- The record of a product row that does not parse. -/
def malformedProductId (productIndex : ℕ) : JsString :=
  match kind with
  | .current => js "price-product-" ++ JsString.ofNat productIndex
  | .historical => js "historical-price-product-" ++ JsString.ofNat productIndex

/-- The EAN that is taken from a product row that does not parse. -/
def validEan (ean : Option JsString) : Option JsString := ean.filter fun ean => isValidGtin ean

/-- What the outcome of a product that was not asked for says of its subject. -/
def mismatchSubject (ean : JsString) : Subject :=
  match kind with
  | .current => {}
  | .historical => { ean := some ean }

/-- The outcomes of a product row. -/
def productOutcomes (productIndex : ℕ) :
    ProductCandidate → List PriceOutcome
  | .malformed ean =>
    [quarantined (malformedProductId kind productIndex) .malformedRecord { ean := validEan ean }]
  | .parsed product =>
    if isValidGtin product.ean = false then [quarantined product.ean .invalidGtin {}]
    else if product.ean ∉ context.expectedEans then
      [quarantined product.ean .identifierMismatch (mismatchSubject kind product.ean)]
    else rowOutcomes dateParse context kind product

/-- The EAN that a product row adds to `returnedEans`. -/
def returnedEan : ProductCandidate → Option JsString
  | .malformed ean => validEan ean
  | .parsed product =>
    if isValidGtin product.ean = true ∧ product.ean ∈ context.expectedEans then some product.ean
    else none

variable (products : List ProductCandidate)

/-- `returnedEans`. -/
def returnedEans : List JsString :=
  (products.filterMap (returnedEan context)).dedup

/-- The chain code that a store row adds to `returnedSupportedChains`. -/
def supportedChain : StoreCandidate → Option JsString
  | .parsed row => if chainOfCode row.store = none then none else some row.store
  | .malformed store =>
    (malformedChainCode store).filter fun chainCode => decide (chainOfCode chainCode ≠ none)

/-- `returnedSupportedChainsByEan.get(ean)`. -/
def returnedSupportedChains (ean : JsString) : List JsString :=
  products.flatMap fun
    | .malformed _ => []
    | .parsed product =>
      if product.ean = ean ∧ returnedEan context (.parsed product) = some ean then
        product.stores.filterMap supportedChain
      else []

/-- The record of a supported chain that no store row is of. -/
def coverageId (ean chainCode : JsString) : JsString :=
  ean ++ js ":" ++ chainCode ++ js ":current:coverage"

/-- The outcome of a supported chain that no store row is of. -/
def coverageOutcome (ean : JsString) (entry : JsString × Chain) : PriceOutcome :=
  unknown (coverageId ean entry.1) .missingSupportedChain
    ⟨some entry.1, some (.chain entry.2), some ean⟩

/-- The supported chains that no store row is of. -/
def coverageOutcomes : List PriceOutcome :=
  (Sorting.sortBy compareText (returnedEans context products)).flatMap fun ean =>
    (chainByCode.filter fun entry =>
      decide (entry.1 ∉ returnedSupportedChains context products ean)).map (coverageOutcome ean)

/-- The outcome of an EAN that was asked for and is not in the response. -/
def missingOutcome (ean : JsString) : PriceOutcome :=
  unknown ean .missingRequestedEan { ean := some ean }

/-- The EANs that were asked for and are not in the response. -/
def missingOutcomes : List PriceOutcome :=
  (context.expectedEans.filter fun ean => decide (ean ∉ returnedEans context products)).map
    missingOutcome

variable (host : Host) (stringify : PriceOutcome → JsString)

/-- `normalizePriceSourceResponse`, of an envelope that parses. -/
def normalizePriceSourceResponse (products : List ProductCandidate) : List PriceOutcome :=
  canonicalizeSourceRecordOutcomes host stringify
    ((products.zipIdx.flatMap fun (candidate, productIndex) =>
        productOutcomes dateParse context .current productIndex candidate) ++
      coverageOutcomes context products ++ missingOutcomes context products)

/-- `normalizeHistoricalPriceSourceResponse`, of an envelope that parses. -/
def normalizeHistoricalPriceSourceResponse (products : List ProductCandidate) : List PriceOutcome :=
  canonicalizeSourceRecordOutcomes host stringify
    ((products.zipIdx.flatMap fun (candidate, productIndex) =>
        productOutcomes dateParse context .historical productIndex candidate) ++
      missingOutcomes context products)

/-! ### Runs -/

/-- `KassalappPriceTarget`. -/
structure PriceTarget where
  ean : JsString
  geographicScopeId : Option ℕ

/-- What `canonicalPriceTargets` lets through: targets of different products, all with a valid
GTIN. -/
structure IsCanonicalTargets (targets : List PriceTarget) : Prop where
  nodup : (targets.map fun target => target.ean).Nodup
  valid : ∀ target ∈ targets, isValidGtin target.ean = true

/-- A reply of the source: when it was received, and its rows where its envelope parses. -/
structure PriceReply where
  now : ℤ
  products : Option (List ProductCandidate)

/-- The outcome of an EAN of which the request failed. -/
def failedOutcome (ean : JsString) : PriceOutcome := unknown ean .batchFailed { ean := some ean }

/-- `getSourcePrices`, of so few EANs that they are one request. -/
def getSourcePrices (kind : ObservationKind) (eans : List JsString) (reply : PriceReply) :
    List PriceOutcome :=
  match reply.products with
  | none => eans.map failedOutcome
  | some products =>
    match kind with
    | .current => normalizePriceSourceResponse dateParse ⟨eans, reply.now⟩ host stringify products
    | .historical =>
      normalizeHistoricalPriceSourceResponse dateParse ⟨eans, reply.now⟩ host stringify products

/-- `MAX_SOURCE_CALLS_BETWEEN_ACCESS_CHECKS`. -/
def maxSourceCallsBetweenAccessChecks : ℕ := 25

/-- The slices of a list that the loop of a handler takes. -/
def slicesOf {α : Type} (size : ℕ) : ℕ → List α → List (List α)
  | 0, _ => []
  | fuel + 1, xs => if xs = [] then [] else xs.take size :: slicesOf size fuel (xs.drop size)

/-- The EANs of the requests of a run. -/
def requestsOf (targets : List PriceTarget) : List (List JsString) :=
  slicesOf maxSourceCallsBetweenAccessChecks targets.length (targets.map fun target => target.ean)

/-- The outcomes of the source in a run, with a reply to each request. -/
def sourceOutcomes (kind : ObservationKind) (targets : List PriceTarget) (replies : ℕ → PriceReply) :
    List PriceOutcome :=
  (requestsOf targets).zipIdx.flatMap fun (eans, index) =>
    getSourcePrices dateParse host stringify kind eans (replies index)

end Rows

/-! ### The ledger -/

/-- `normalizedRecord` of an outcome in the ledger. -/
inductive AuditedRecord where
  | price (amountOre : ℕ) (fetchedAt : JsString) (geographicScopeId : Option ℕ)
      (observedAt sourceReference : JsString)
  | rejection (rejection : Rejection) (geographicScopeId : Option ℕ)
  deriving DecidableEq

/-- What `hashSourceRecordOutcome` is a digest of. -/
structure SemanticOutcome where
  normalizedRecord : AuditedRecord
  outcomeState : SourceOutcomeState
  rawChainCode : Option JsString
  reason : Option Reason
  sourceRecordId : JsString
  subjectChain : Option ChainId
  subjectEan : Option JsString
  deriving DecidableEq

section Ledger

variable (targets : List PriceTarget)

/-- `targets.get(ean)?.geographicScopeId`. -/
def geographicScopeOf (ean : JsString) : Option ℕ :=
  (targets.find? fun target => decide (target.ean = ean)).bind fun target => target.geographicScopeId

/-- `eanForPriceOutcome`. -/
def eanForPriceOutcome (rejection : Rejection) : Option JsString :=
  match rejection.subject.ean with
  | some ean => some ean
  | none =>
    if rejection.sourceRecordId ∈ targets.map fun target => target.ean then
      some rejection.sourceRecordId
    else none

/-- `CHAIN_BY_CODE` of the handlers. -/
def handlerChainByCode : List (JsString × Chain) :=
  [(js "BUNNPRIS", .bunnpris), (js "COOP_EXTRA", .extra), (js "EUROPRIS_NO", .europris),
    (js "REMA_1000", .rema1000)]

/-- `CHAIN_BY_CODE[code]` of the handlers. -/
def handlerChainOfCode (code : JsString) : Option ChainId :=
  match JsMap.get? handlerChainByCode code with
  | some chain => some (.chain chain)
  | none => if code ∈ inheritedProperties then some (.inherited code) else none

/-- `subjectChain`. -/
def subjectChain (subject : Subject) : Option ChainId :=
  match subject.chainId with
  | some chainId => some chainId
  | none => subject.chainCode.bind handlerChainOfCode

/-- `mapPriceOutcome`, and what `normalizePriceOutcome` makes of it. -/
def mapPriceOutcome : PriceOutcome → SemanticOutcome
  | .accepted record =>
    { normalizedRecord := .price record.amountOre record.retrievedAt
        (geographicScopeOf targets record.ean) record.observedAt
          (js "kassalapp:" ++ record.sourceRecordId)
      outcomeState := .accepted
      rawChainCode := some record.chainCode
      reason := none
      sourceRecordId := record.sourceRecordId
      subjectChain := some record.chainId
      subjectEan := some record.ean }
  | .rejected rejection =>
    { normalizedRecord := .rejection rejection
        ((eanForPriceOutcome targets rejection).bind (geographicScopeOf targets))
      outcomeState := (PriceOutcome.rejected rejection).state
      rawChainCode := rejection.subject.chainCode
      reason := some rejection.reason
      sourceRecordId := rejection.sourceRecordId
      subjectChain := subjectChain rejection.subject
      subjectEan := eanForPriceOutcome targets rejection }

/-- `auditOutcomesWithin` of a run: a record has one digest, or there is a conflict. -/
def auditOutcomes {H : Type} [DecidableEq H] (hash : SemanticOutcome → H)
    (ledger : JsMap JsString H) (outcomes : List SemanticOutcome) : Option (JsMap JsString H) :=
  outcomes.foldlM
    (fun ledger outcome => ledger.setUnlessOther outcome.sourceRecordId (hash outcome)) ledger

end Ledger

/-- The outcomes that the price handler passes to `persistPriceOutcomes` in a run. -/
def priceOutcomes (dateParse : JsString → ℤ) (host : Host) (stringify : PriceOutcome → JsString)
    (kind : ObservationKind) (targets : List PriceTarget) (replies : ℕ → PriceReply) :
    List SemanticOutcome :=
  (sourceOutcomes dateParse host stringify kind targets replies).map (mapPriceOutcome targets)

end Handleplan.Kassalapp
