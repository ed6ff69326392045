import Handleplan.Db.CatalogIngestion
import Handleplan.Lib.Tables
import Handleplan.Worker.Schedule

/-!
# Price ingestion

The outcomes of a price run are audited, and the prices of those that are accepted are recorded:
as an observation under an evidence key, as a coverage check of the run, and in the price cache.
What is recorded under a key or in a run already is left as it is.

## Main definitions

* `PriceIngestion.PriceIngestionOutcome` — an outcome with a price, or without one.
* `PriceIngestion.evidenceKeyForPrice` — the key of an observation.
* `PriceIngestion.PriceTables` — the tables.
* `PriceIngestion.persistPriceOutcomes` — a batch.

## Implementation notes

Batches are serialized by the locks of the source and of the GTINs. Whether the source may be used,
as the batch has read it, is given, and so are the two digests, which are any functions. What an
outcome without a price says of its record is one text. The cancellation of a batch, a lost fence
and a failed statement leave the tables as they were; the constraints on the amounts and the scopes
are checked, as they depend on the outcomes.
-/

namespace Handleplan.PriceIngestion

open JsString IngestionRuns CatalogIngestion Workers

/-! ### Outcomes -/

/-- `PriceRecord`. -/
structure PriceRecord where
  amountOre : ℕ
  fetchedAt : ℤ
  geographicScopeId : Option ℕ
  observedAt : ℤ
  sourceReference : JsString

/-- What all outcomes have. -/
structure RecordBase where
  rawChainCode : Option JsString
  recordedAt : ℤ
  sourceRecordId : JsString

/-- The states of an outcome that is not accepted. -/
inductive RejectedState where
  | quarantined | unknown

/-- `PriceIngestionOutcome`. -/
inductive PriceIngestionOutcome where
  | accepted (base : RecordBase) (subjectChain : Chain) (subjectEan : JsString) (price : PriceRecord)
  | rejected (base : RecordBase) (state : RejectedState) (reason : JsString)
      (subjectChain : Option Chain) (subjectEan : Option JsString) (geographicScopeId : Option ℕ)
      (normalizedRecord : Option JsString)

/-- What an outcome says of its record. -/
inductive NormalizedPriceRecord where
  | price (price : PriceRecord)
  | other (text : Option JsString) (geographicScopeId : Option ℕ)

/-- `SourceRecordOutcomeInput`, of the kind `price`. -/
structure NormalizedPriceOutcome where
  base : RecordBase
  outcomeState : OutcomeState
  reason : Option JsString
  subjectChain : Option Chain
  subjectEan : Option JsString
  normalizedRecord : NormalizedPriceRecord

/-- The state of an outcome that is not accepted. -/
def RejectedState.toOutcomeState : RejectedState → OutcomeState
  | .quarantined => .quarantined
  | .unknown => .unknown

/-- `normalizePriceOutcome`. -/
def normalizePriceOutcome : PriceIngestionOutcome → NormalizedPriceOutcome
  | .accepted base subjectChain subjectEan price =>
    { base := base
      outcomeState := .accepted
      reason := none
      subjectChain := some subjectChain
      subjectEan := some subjectEan
      normalizedRecord := .price price }
  | .rejected base state reason subjectChain subjectEan geographicScopeId normalizedRecord =>
    { base := base
      outcomeState := state.toOutcomeState
      reason := some reason
      subjectChain := subjectChain
      subjectEan := subjectEan
      normalizedRecord := .other normalizedRecord geographicScopeId }

/-- `quarantineAcceptedOutcomes`, of one outcome. -/
def quarantineAccepted (outcome : NormalizedPriceOutcome) : NormalizedPriceOutcome :=
  if outcome.outcomeState = .accepted then
    { outcome with
      outcomeState := .quarantined
      reason := some (js "SOURCE_ACCESS_REVIEW_REQUIRED") }
  else outcome

/-- The chain and the GTIN of an outcome, when both are known. -/
def PriceIngestionOutcome.subject : PriceIngestionOutcome → Option (Chain × JsString)
  | .accepted _ subjectChain subjectEan _ => some (subjectChain, subjectEan)
  | .rejected _ _ _ (some subjectChain) (some subjectEan) _ _ => some (subjectChain, subjectEan)
  | .rejected _ _ _ _ _ _ _ => none

/-! ### Validation -/

/-- `validateSourceRecordOutcome`, of what all outcomes have. -/
def ValidRecordBase (base : RecordBase) : Prop :=
  BoundedString 200 base.sourceRecordId ∧ ∀ code ∈ base.rawChainCode, BoundedString 100 code

instance : DecidablePred ValidRecordBase := fun _ => inferInstanceAs (Decidable (_ ∧ _))

/-- `validatePriceRecord`. -/
def ValidPriceRecord (price : PriceRecord) : Prop :=
  price.amountOre ≤ maxSafeInteger ∧ price.observedAt ≤ price.fetchedAt ∧
    (∀ scope ∈ price.geographicScopeId, PositiveSafeInteger scope) ∧
      BoundedString 8192 price.sourceReference

instance : DecidablePred ValidPriceRecord := fun _ => inferInstanceAs (Decidable (_ ∧ _ ∧ _ ∧ _))

/-- What a batch demands of each of its outcomes. -/
def ValidPriceOutcome : PriceIngestionOutcome → Prop
  | .accepted base _ subjectEan price =>
    ValidRecordBase base ∧ ValidPriceRecord price ∧ isValidGtin subjectEan = true
  | .rejected base _ reason _ subjectEan geographicScopeId _ =>
    ValidRecordBase base ∧ BoundedString 80 reason ∧
      (∀ ean ∈ subjectEan, isValidGtin ean = true) ∧
        ∀ scope ∈ geographicScopeId, PositiveSafeInteger scope

instance : DecidablePred ValidPriceOutcome
  | .accepted _ _ _ _ => inferInstanceAs (Decidable (_ ∧ _ ∧ _))
  | .rejected _ _ _ _ _ _ _ => inferInstanceAs (Decidable (_ ∧ _ ∧ _ ∧ _))

/-! ### Tables -/

/-- `claim_eligibility`. -/
inductive ClaimEligibility where
  | historicalEligible | ordinaryOnly
  deriving DecidableEq

/-- The text of an eligibility class. -/
def ClaimEligibility.text : ClaimEligibility → JsString
  | .historicalEligible => js "historical_eligible"
  | .ordinaryOnly => js "ordinary_only"

/-- A row of `price_observations`, without what is the same for all rows. -/
structure PriceObservationRow where
  amountOre : ℕ
  chain : Chain
  claimEligibility : ClaimEligibility
  evidenceKey : JsString
  fetchedAt : ℤ
  geographicScopeId : Option ℕ
  ingestionRunId : ℕ
  observedAt : ℤ
  productId : ℕ
  rawRecordHash : JsString
  sourceId : JsString
  sourceReference : JsString

/-- The states of a coverage check that a price run records. -/
inductive CheckState where
  | priced | unknown

/-- What a coverage check is about: the unique index of `price_coverage_checks`. -/
structure CheckKey where
  ingestionRunId : ℕ
  productId : ℕ
  chain : Chain
  geographicScopeId : Option ℕ
  deriving DecidableEq

/-- A row of `price_coverage_checks`. -/
structure CoverageCheckRow where
  key : CheckKey
  checkedAt : ℤ
  reason : JsString
  state : CheckState

/-- A row of `price_cache`. -/
structure CachedPrice where
  amountOre : ℕ
  fetchedAt : ℤ
  observedAt : ℤ

/-- The tables: those of the catalog with the runs, the audited outcomes of the kind `price`, the
geographic scopes, and where prices are recorded. -/
structure PriceTables where
  catalog : CatalogTables
  outcomes : OutcomeKey → Option JsString
  scopes : List ℕ
  observations : Tables.Unique PriceObservationRow.evidenceKey
  checks : Tables.Unique CoverageCheckRow.key
  cache : JsString × Chain → Option CachedPrice

/-- Why a batch is not persisted. -/
inductive PriceError where
  | invalidInput | unsupportedRunType | notRunning | outcomeConflict | constraintViolated

/-! ### Persisting -/

/-- `claimEligibilityForRunType`. -/
def claimEligibilityForRunType (runType : JsString) : Option ClaimEligibility :=
  if runType = js "historical-prices" then some .historicalEligible
  else if runType = js "benchmark-prices" then some .ordinaryOnly
  else if runType = js "catalog" then some .ordinaryOnly
  else none

/-- The text that `evidenceKeyForPrice` digests. -/
def evidenceText (sourceId ean : JsString) (chain : Chain) (price : PriceRecord)
    (claimEligibility : ClaimEligibility) : JsString :=
  joinWith [0] [sourceId, ean, chain.text, toISOString price.observedAt, ofNat price.amountOre,
    claimEligibility.text]

section Digests

variable (sha256 : JsString → JsString) (hash : NormalizedPriceOutcome → JsString)

/-- `evidenceKeyForPrice`. -/
def evidenceKeyForPrice (sourceId ean : JsString) (chain : Chain) (price : PriceRecord)
    (claimEligibility : ClaimEligibility) : JsString :=
  sha256 (evidenceText sourceId ean chain price claimEligibility)

/-- `auditOutcomesWithin`, of one outcome: the outcomes, and whether it is new. -/
def auditPriceOutcome (runId : ℕ) (outcomes : OutcomeKey → Option JsString)
    (outcome : NormalizedPriceOutcome) : Except PriceError ((OutcomeKey → Option JsString) × ℕ) :=
  match outcomes ⟨runId, outcome.base.sourceRecordId⟩ with
  | none =>
    .ok (Function.update outcomes ⟨runId, outcome.base.sourceRecordId⟩ (some (hash outcome)), 1)
  | some existing => if existing = hash outcome then .ok (outcomes, 0) else .error .outcomeConflict

/-- `auditOutcomesWithin`: the outcomes, and how many are new. -/
def auditPriceOutcomes (runId : ℕ) :
    (OutcomeKey → Option JsString) → List NormalizedPriceOutcome →
      Except PriceError ((OutcomeKey → Option JsString) × ℕ)
  | outcomes, [] => .ok (outcomes, 0)
  | outcomes, outcome :: rest => do
    let (audited, created) ← auditPriceOutcome hash runId outcomes outcome
    let (all, inserted) ← auditPriceOutcomes runId audited rest
    return (all, created + inserted)

variable (tables : PriceTables)

/-- Whether a scope may be referred to. -/
def ScopeExists (scope : Option ℕ) : Prop := ∀ id ∈ scope, id ∈ tables.scopes

instance (tables : PriceTables) (scope : Option ℕ) : Decidable (ScopeExists tables scope) :=
  inferInstanceAs (Decidable (∀ _ ∈ _, _))

/-- An observation is inserted, unless there is one with its evidence key. -/
def insertObservation (row : PriceObservationRow) :
    Except PriceError PriceTables :=
  if maxPersistedMoneyOre < row.amountOre then .error .constraintViolated
  else if row.evidenceKey ∈ tables.observations.rows.map PriceObservationRow.evidenceKey then
    .ok tables
  else if ScopeExists tables row.geographicScopeId then
    .ok { tables with observations := tables.observations.insert row }
  else .error .constraintViolated

/-- A coverage check is inserted, unless the run has one of its subject. -/
def insertCheck (row : CoverageCheckRow) : Except PriceError PriceTables :=
  if row.key ∈ tables.checks.rows.map CoverageCheckRow.key then .ok tables
  else if ScopeExists tables row.key.geographicScopeId then
    .ok { tables with checks := tables.checks.insert row }
  else .error .constraintViolated

/-- Coverage is checked by runs for ordinary prices only. -/
def recordCheck (claimEligibility : ClaimEligibility) (tables : PriceTables) (row : CoverageCheckRow) :
    Except PriceError PriceTables :=
  if claimEligibility = .ordinaryOnly then insertCheck tables row else .ok tables

/-- The price cache. -/
abbrev PriceCache := JsString × Chain → Option CachedPrice

/-- The price cache keeps the price that was observed last. -/
def cachePrice (cache : PriceCache) (ean : JsString) (chain : Chain) (price : PriceRecord) :
    PriceCache :=
  let excluded : CachedPrice := ⟨price.amountOre, price.fetchedAt, price.observedAt⟩
  let row := match cache (ean, chain) with
    | none => excluded
    | some existing => if existing.observedAt < excluded.observedAt then excluded else existing
  Function.update cache (ean, chain) (some row)

/-- The product of a GTIN that has been resolved. -/
def productOf (catalog : CatalogTables) (ean : JsString) : ℕ :=
  (catalog.identifiers ean).elim 0 fun identifier => identifier.productId

/-- The observation of an accepted outcome. -/
def observationRow (handle : RunHandle) (claimEligibility : ClaimEligibility) (productId : ℕ)
    (base : RecordBase) (chain : Chain) (ean : JsString) (price : PriceRecord) :
    PriceObservationRow where
  amountOre := price.amountOre
  chain := chain
  claimEligibility := claimEligibility
  evidenceKey := evidenceKeyForPrice sha256 handle.sourceId ean chain price claimEligibility
  fetchedAt := price.fetchedAt
  geographicScopeId := price.geographicScopeId
  ingestionRunId := handle.id
  observedAt := price.observedAt
  productId := productId
  rawRecordHash := hash (normalizePriceOutcome (.accepted base chain ean price))
  sourceId := handle.sourceId
  sourceReference := price.sourceReference

/-- The loop of `persistPriceOutcomes`, of an accepted outcome whose GTIN has been resolved. -/
def persistAcceptedPrice (handle : RunHandle) (claimEligibility : ClaimEligibility)
    (tables : PriceTables) (base : RecordBase) (chain : Chain) (ean : JsString) (price : PriceRecord) :
    Except PriceError PriceTables := do
  let observed ← insertObservation tables
    (observationRow sha256 hash handle claimEligibility (productOf tables.catalog ean) base chain ean
      price)
  let checked ← recordCheck claimEligibility observed
    { key := ⟨handle.id, productOf tables.catalog ean, chain, price.geographicScopeId⟩
      checkedAt := price.fetchedAt
      reason := js "source_price_observed"
      state := .priced }
  return { checked with
    cache :=
      if claimEligibility = .ordinaryOnly ∧ handle.sourceId = js "kassalapp" then
        cachePrice checked.cache ean chain price
      else checked.cache }

/-- The tables with the product of a GTIN, which is made if there is none. -/
def resolveEan (now : ℤ) (tables : PriceTables) (ean : JsString) : PriceTables :=
  { tables with catalog := resolveForPrice tables.catalog ean now }

/-- The loop of `persistPriceOutcomes`, of one outcome. -/
def persistPriceOutcome (handle : RunHandle) (claimEligibility : ClaimEligibility) (now : ℤ)
    (tables : PriceTables) (outcome : PriceIngestionOutcome) : Except PriceError PriceTables :=
  match outcome.subject, outcome with
  | none, _ => .ok tables
  | some (chain, ean), .accepted base _ _ price =>
    persistAcceptedPrice sha256 hash handle claimEligibility (resolveEan now tables ean) base chain ean
      price
  | some (chain, ean), .rejected base _ reason _ _ geographicScopeId _ =>
    recordCheck claimEligibility (resolveEan now tables ean)
      { key :=
          ⟨handle.id, productOf (resolveForPrice tables.catalog ean now) ean, chain, geographicScopeId⟩
        checkedAt := base.recordedAt
        reason := reason
        state := .unknown }

/-- A run that is running, under its handle. -/
def IsRunning (tables : PriceTables) (handle : RunHandle) : Prop :=
  ∃ run ∈ tables.catalog.runs handle.id, run.runType = handle.runType ∧
    run.sourceId = handle.sourceId ∧ run.status = .running

instance (tables : PriceTables) (handle : RunHandle) : Decidable (IsRunning tables handle) :=
  inferInstanceAs (Decidable (∃ _ ∈ _, _))

/-- `persistPriceOutcomes`: the tables, and how many outcomes are new. -/
def persistPriceOutcomes (tables : PriceTables) (handle : RunHandle) (approved : Bool) (now : ℤ)
    (outcomes : List PriceIngestionOutcome) : Except PriceError (PriceTables × ℕ) :=
  match claimEligibilityForRunType handle.runType with
  | none => .error .unsupportedRunType
  | some claimEligibility =>
    if ¬ IsRunning tables handle then .error .notRunning
    else if ¬ (outcomes.length ≤ maxIngestionOutcomesPerWrite ∧
        ∀ outcome ∈ outcomes, ValidPriceOutcome outcome) then
      .error .invalidInput
    else
      let normalized := outcomes.map normalizePriceOutcome
      if approved = false then do
        let (audited, inserted) ← auditPriceOutcomes hash handle.id tables.outcomes
          (normalized.map quarantineAccepted)
        return ({ tables with outcomes := audited }, inserted)
      else do
        let (audited, inserted) ← auditPriceOutcomes hash handle.id tables.outcomes normalized
        let recorded ← outcomes.foldlM (persistPriceOutcome sha256 hash handle claimEligibility now)
          { tables with outcomes := audited }
        return (recorded, inserted)

end Digests

end Handleplan.PriceIngestion
