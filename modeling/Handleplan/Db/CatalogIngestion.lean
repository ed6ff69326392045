import Handleplan.Db.IngestionRuns
import Handleplan.Domain.Primitives

/-!
# Catalog ingestion

Accepted outcomes of a catalog run are resolved to canonical products by their GTIN. What a source
says about a product that is there is compared with what it is, and with the version of the source
record that was observed last in a completed run; then the product is left as it is, activated,
corrected, or the outcome is quarantined for a review.

## Main definitions

* `CatalogIngestion.catalogCanonicalMutationDecision` — what is done with an outcome.
* `CatalogIngestion.persistOutcome` — how one outcome is persisted.
* `CatalogIngestion.persistCatalogOutcomes` — a batch.
* `CatalogIngestion.system` — runs begin, persist outcomes and end, in any order.

## Implementation notes

Batches of one source are serialized by the lock of its governance, and what is done with one GTIN
by a lock of its own; so the persisting of an outcome is one step, and runs may end in between. The
id of a product is its place in the table. Whether the source may be used, as the batch has read it,
and the hash of an outcome are given. A canonical decimal text is its number, and what an outcome
that is not accepted says of its record is one text. A correction is logged with the product it has
corrected, for as long as the product stays active.
-/

namespace Handleplan.CatalogIngestion

open JsString IngestionRuns Transitions

/-! ### Outcomes -/

/-- `CatalogCategoryPathEntry`. -/
structure CatalogCategoryPathEntry where
  sourceCategoryId : ℕ
  depth : ℕ
  name : JsString

/-- `CatalogProductRecord`. -/
structure CatalogProductRecord where
  brand : Option JsString
  categoryPath : Option (List CatalogCategoryPathEntry)
  displayName : JsString
  packageAmount : Option ℕ
  packageUnit : Option MeasureUnit
  retrievedAt : ℤ
  sourceUpdatedAt : Option ℤ
  unitsPerPack : Option ℕ

/-- `SourceRecordOutcomeBase`, but for the record and the subject. -/
structure OutcomeBase where
  rawChainCode : Option JsString
  recordedAt : ℤ
  sourceRecordId : JsString
  subjectChain : Option Chain

/-- `CatalogIngestionOutcome`. -/
inductive CatalogIngestionOutcome where
  | accepted (base : OutcomeBase) (subjectEan : JsString) (product : CatalogProductRecord)
  | quarantined (base : OutcomeBase) (reason : JsString) (subjectEan normalizedRecord : Option JsString)
  | unknown (base : OutcomeBase) (reason : JsString) (subjectEan normalizedRecord : Option JsString)

/-- What an outcome says of its record. -/
inductive NormalizedRecord where
  | product (product : CatalogProductRecord)
  | other (text : JsString)

/-- `SourceRecordOutcomeInput`, of the kind `product`. -/
structure NormalizedOutcome where
  base : OutcomeBase
  outcomeState : OutcomeState
  reason : Option JsString
  subjectEan : Option JsString
  normalizedRecord : Option NormalizedRecord

/-- `normalizeCatalogOutcome`. -/
def normalizeCatalogOutcome : CatalogIngestionOutcome → NormalizedOutcome
  | .accepted base subjectEan product =>
    { base := base
      outcomeState := .accepted
      reason := none
      subjectEan := some subjectEan
      normalizedRecord :=
        some (.product { product with unitsPerPack := some (product.unitsPerPack.getD 1) }) }
  | .quarantined base reason subjectEan normalizedRecord =>
    { base := base
      outcomeState := .quarantined
      reason := some reason
      subjectEan := subjectEan
      normalizedRecord := normalizedRecord.map .other }
  | .unknown base reason subjectEan normalizedRecord =>
    { base := base
      outcomeState := .unknown
      reason := some reason
      subjectEan := subjectEan
      normalizedRecord := normalizedRecord.map .other }

/-- The outcome that is audited instead of one that has to be reviewed. -/
def NormalizedOutcome.forReview (outcome : NormalizedOutcome) : NormalizedOutcome :=
  { outcome with
    outcomeState := .quarantined
    reason := some (js "CATALOG_CORRECTION_REVIEW_REQUIRED") }

/-! ### Validation -/

/-- `requireBoundedString`. -/
def BoundedString (maximum : ℕ) (value : JsString) : Prop :=
  1 ≤ value.length ∧ value.length ≤ maximum

instance (maximum : ℕ) : DecidablePred (BoundedString maximum) :=
  fun _ => inferInstanceAs (Decidable (_ ∧ _))

/-- `compareCategoryPathEntries(left, right) < 0`. -/
def CatalogCategoryPathEntry.Precedes (left right : CatalogCategoryPathEntry) : Prop :=
  left.depth < right.depth ∨
    (left.depth = right.depth ∧ left.sourceCategoryId < right.sourceCategoryId)

instance : DecidableRel CatalogCategoryPathEntry.Precedes :=
  fun _ _ => inferInstanceAs (Decidable (_ ∨ _ ∧ _))

/-- What `validateCatalogCategoryPath` demands of an entry. -/
def ValidCategoryPathEntry (entry : CatalogCategoryPathEntry) : Prop :=
  entry.sourceCategoryId ≤ maxSafeInteger ∧ entry.depth ≤ 100 ∧ BoundedString 500 entry.name ∧
    trim entry.name = entry.name

instance : DecidablePred ValidCategoryPathEntry := fun _ => inferInstanceAs (Decidable (_ ∧ _ ∧ _ ∧ _))

/-- `validateCatalogCategoryPath`. -/
def ValidCategoryPath (path : List CatalogCategoryPathEntry) : Prop :=
  path.length ≤ 100 ∧ (∀ entry ∈ path, ValidCategoryPathEntry entry) ∧
    (path.map fun entry => entry.sourceCategoryId).Nodup ∧
      path.IsChain CatalogCategoryPathEntry.Precedes

instance : DecidablePred ValidCategoryPath := fun _ => inferInstanceAs (Decidable (_ ∧ _ ∧ _ ∧ _))

/-- `validateCatalogProduct`. -/
def ValidCatalogProduct (product : CatalogProductRecord) : Prop :=
  BoundedString 240 product.displayName ∧ (∀ brand ∈ product.brand, BoundedString 160 brand) ∧
    (∀ path ∈ product.categoryPath, ValidCategoryPath path) ∧
      (∀ updatedAt ∈ product.sourceUpdatedAt, updatedAt ≤ product.retrievedAt) ∧
        (∀ amount ∈ product.packageAmount, PositiveSafeInteger amount) ∧
          PositiveSafeInteger (product.unitsPerPack.getD 1)

instance : DecidablePred ValidCatalogProduct :=
  fun _ => inferInstanceAs (Decidable (_ ∧ _ ∧ _ ∧ _ ∧ _ ∧ _))

/-- `validateSourceRecordOutcome`, of what all outcomes have. -/
def ValidBase (base : OutcomeBase) : Prop :=
  BoundedString 200 base.sourceRecordId ∧ ∀ code ∈ base.rawChainCode, BoundedString 100 code

instance : DecidablePred ValidBase := fun _ => inferInstanceAs (Decidable (_ ∧ _))

/-- What a batch demands of each of its outcomes. -/
def ValidOutcome : CatalogIngestionOutcome → Prop
  | .accepted base subjectEan product =>
    ValidBase base ∧ ValidCatalogProduct product ∧ BoundedString 128 base.sourceRecordId ∧
      isValidGtin subjectEan = true
  | .quarantined base reason subjectEan _ =>
    ValidBase base ∧ BoundedString 80 reason ∧ ∀ ean ∈ subjectEan, isValidGtin ean = true
  | .unknown base reason subjectEan _ =>
    ValidBase base ∧ BoundedString 80 reason ∧ ∀ ean ∈ subjectEan, isValidGtin ean = true

instance : DecidablePred ValidOutcome
  | .accepted _ _ _ => inferInstanceAs (Decidable (_ ∧ _ ∧ _ ∧ _))
  | .quarantined _ _ _ _ => inferInstanceAs (Decidable (_ ∧ _ ∧ _))
  | .unknown _ _ _ _ => inferInstanceAs (Decidable (_ ∧ _ ∧ _))

/-! ### Tables -/

/-- The status of a canonical product. -/
inductive ProductStatus where
  | active | quarantined | retired
  deriving DecidableEq

/-- What a catalog record says of a product. -/
structure CatalogFields where
  brand : Option JsString
  displayName : JsString
  packageAmount : Option ℕ
  packageUnit : Option MeasureUnit
  unitsPerPack : ℕ
  deriving DecidableEq

/-- A row of `canonical_products`. -/
structure CanonicalProduct where
  fields : CatalogFields
  status : ProductStatus
  updatedAt : ℤ

/-- A row of `product_identifiers` with the scheme of a GTIN. -/
structure GtinIdentifier where
  productId : ℕ
  verifiedAt : Option ℤ

/-- A record of a source. -/
structure RecordKey where
  sourceId : JsString
  sourceRecordId : JsString
  deriving DecidableEq

/-- `match_state` of a row of `source_products`. -/
inductive MatchState where
  | unmatched | candidate | matched | quarantined
  deriving DecidableEq

/-- A row of `source_products`. -/
structure SourceProduct where
  canonicalProductId : Option ℕ
  matchState : MatchState
  lastSeenAt : ℤ
  rawRecordHash : JsString

/-- A row of `catalog_observations`. -/
structure CatalogObservation where
  canonicalProductId : ℕ
  ingestionRunId : ℕ
  sourceRecordId : JsString
  gtin : JsString
  fields : CatalogFields
  categoryPath : Option (List CatalogCategoryPathEntry)
  rawRecordHash : JsString
  retrievedAt : ℤ
  sourceUpdatedAt : Option ℤ

/-- A row of `ingestion_runs`. -/
structure CatalogRun where
  runType : JsString
  sourceId : JsString
  status : RunStatus

/-- The identity of an audited outcome of the kind `product`. -/
structure OutcomeKey where
  runId : ℕ
  sourceRecordId : JsString
  deriving DecidableEq

/-- The tables; observations are in the order of their ids. -/
structure CatalogTables where
  products : List CanonicalProduct
  identifiers : JsString → Option GtinIdentifier
  sourceIdentifiers : RecordKey → Option ℕ
  sourceProducts : RecordKey → Option SourceProduct
  observations : List CatalogObservation
  runs : ℕ → Option CatalogRun
  outcomes : OutcomeKey → Option JsString

/-- Why an outcome is not persisted. -/
inductive CatalogError where
  | invalidInput | notRunning | missingProduct | identityConflict | outcomeConflict

/-- The fields of a record. -/
def CatalogProductRecord.fields (product : CatalogProductRecord) : CatalogFields where
  brand := product.brand
  displayName := product.displayName
  packageAmount := product.packageAmount
  packageUnit := product.packageUnit
  unitsPerPack := product.unitsPerPack.getD 1

/-! ### Resolution -/

/-- `CatalogCanonicalMutationDecision`. -/
inductive CatalogCanonicalMutationDecision where
  | activate | correct | keep | review
  deriving DecidableEq

/-- `catalogCanonicalMutationDecision`; the version of a source that is matched may be null. -/
def catalogCanonicalMutationDecision (canonical : CanonicalProduct) (incoming : CatalogProductRecord)
    (matchedSourceVersion : Option (Option ℤ)) (sourceAccessApproved : Bool) :
    CatalogCanonicalMutationDecision :=
  match canonical.status with
  | .retired => .review
  | .quarantined => if sourceAccessApproved then .activate else .review
  | .active =>
    if canonical.fields = incoming.fields then .keep
    else
      match sourceAccessApproved, matchedSourceVersion, incoming.sourceUpdatedAt with
      | true, some none, some _ => .correct
      | true, some (some version), some updatedAt =>
        if updatedAt ≤ version then .review else .correct
      | _, _, _ => .review

variable (tables : CatalogTables)

/-- Whether a run of a source is completed. -/
def IsCompletedRun (sourceId : JsString) (runId : ℕ) : Prop :=
  ∃ run ∈ tables.runs runId, run.sourceId = sourceId ∧ run.status = .terminal .completed

instance (tables : CatalogTables) (sourceId : JsString) (runId : ℕ) :
    Decidable (IsCompletedRun tables sourceId runId) := inferInstanceAs (Decidable (∃ _ ∈ _, _))

/-- The observation that was retrieved last, and of those the one with the greatest id. -/
def lastRetrieved : List CatalogObservation → Option CatalogObservation
  | [] => none
  | observation :: observations =>
    match lastRetrieved observations with
    | none => some observation
    | some later =>
      if observation.retrievedAt ≤ later.retrievedAt then some later else some observation

variable (record : RecordKey)

/-- `priorCompletedObservation`. -/
def priorCompletedObservation (productId : ℕ) :
    Option CatalogObservation :=
  lastRetrieved <| tables.observations.filter fun observation =>
    observation.canonicalProductId = productId ∧ observation.sourceRecordId = record.sourceRecordId ∧
      IsCompletedRun tables record.sourceId observation.ingestionRunId

/-- `isSameMatchedSource`. -/
def IsSameMatchedSource (productId : ℕ) : Prop :=
  ∃ source ∈ tables.sourceProducts record,
    source.canonicalProductId = some productId ∧ source.matchState = .matched

instance (tables : CatalogTables) (record : RecordKey) (productId : ℕ) :
    Decidable (IsSameMatchedSource tables record productId) := inferInstanceAs (Decidable (∃ _ ∈ _, _))

/-- `matchedSourceVersion`. -/
def matchedSourceVersion (productId : ℕ) :
    Option (Option ℤ) :=
  if IsSameMatchedSource tables record productId then
    some ((priorCompletedObservation tables record productId).bind fun observation =>
      observation.sourceUpdatedAt)
  else none

/-- A product that is there is changed by a decision. -/
def CanonicalProduct.mutate (canonical : CanonicalProduct) (incoming : CatalogProductRecord) :
    CatalogCanonicalMutationDecision → CanonicalProduct
  | .activate =>
    { fields := incoming.fields, status := .active, updatedAt := incoming.retrievedAt }
  | .correct => { canonical with fields := incoming.fields, updatedAt := incoming.retrievedAt }
  | .keep => canonical
  | .review => canonical

/-- `resolveProductByGtin` for a catalog record: the product, and whether a review is required. -/
def resolveProductByGtin (ean : JsString) (incoming : CatalogProductRecord) :
    Except CatalogError (ℕ × Bool × CatalogTables) :=
  match tables.identifiers ean with
  | some identifier =>
    match tables.products[identifier.productId]? with
    | none => .error .missingProduct
    | some canonical =>
      match catalogCanonicalMutationDecision canonical incoming
        (matchedSourceVersion tables record identifier.productId) true with
      | .review => .ok (identifier.productId, true, tables)
      | mutation => .ok (identifier.productId, false,
          { tables with
            products := tables.products.set identifier.productId (canonical.mutate incoming mutation)
            identifiers := Function.update tables.identifiers ean
              (some { identifier with
                verifiedAt := some (identifier.verifiedAt.getD incoming.retrievedAt) }) })
  | none => .ok (tables.products.length, false,
      { tables with
        products := tables.products ++
          [{ fields := incoming.fields, status := .active, updatedAt := incoming.retrievedAt }]
        identifiers := Function.update tables.identifiers ean
          (some ⟨tables.products.length, some incoming.retrievedAt⟩) })

/-- The fields of a product that a price has been found for before the catalog has it. -/
def pendingFields (ean : JsString) : CatalogFields where
  brand := none
  displayName := js "Pending catalog match " ++ ean
  packageAmount := none
  packageUnit := none
  unitsPerPack := 1

/-- `resolveProductByGtin` for a price. -/
def resolveForPrice (ean : JsString) (now : ℤ) : CatalogTables :=
  match tables.identifiers ean with
  | some _ => tables
  | none =>
    { tables with
      products := tables.products ++ [⟨pendingFields ean, .quarantined, now⟩]
      identifiers := Function.update tables.identifiers ean (some ⟨tables.products.length, none⟩) }

/-! ### Persisting -/

section Hash

variable (hash : NormalizedOutcome → JsString)

variable (tables : CatalogTables)

variable (runId : ℕ)

/-- `auditOutcomesWithin`, of one outcome: an outcome whose identity is there must have the same
hash. -/
def auditOutcome (outcome : NormalizedOutcome) :
    Except CatalogError CatalogTables :=
  match tables.outcomes ⟨runId, outcome.base.sourceRecordId⟩ with
  | none => .ok { tables with
      outcomes := Function.update tables.outcomes ⟨runId, outcome.base.sourceRecordId⟩
        (some (hash outcome)) }
  | some existing => if existing = hash outcome then .ok tables else .error .outcomeConflict

/-- `sourceProductReplacementCondition`. -/
def SourceProduct.IsReplacedBy (existing excluded : SourceProduct) : Prop :=
  existing.lastSeenAt < excluded.lastSeenAt ∨
    (existing.lastSeenAt = excluded.lastSeenAt ∧
      compareText existing.rawRecordHash excluded.rawRecordHash = .gt)

instance (existing excluded : SourceProduct) : Decidable (existing.IsReplacedBy excluded) :=
  inferInstanceAs (Decidable (_ ∨ _ ∧ _))

/-- `linkSourceProduct`. -/
def linkSourceProduct (record : RecordKey) (incoming : CatalogProductRecord)
    (rawRecordHash : JsString) (productId : ℕ) : Except CatalogError CatalogTables :=
  let linked := (tables.sourceIdentifiers record).getD productId
  if linked ≠ productId then .error .identityConflict
  else
    let excluded : SourceProduct := ⟨some productId, .matched, incoming.retrievedAt, rawRecordHash⟩
    let row := match tables.sourceProducts record with
      | none => excluded
      | some existing => if existing.IsReplacedBy excluded then excluded else existing
    .ok { tables with
      sourceIdentifiers := Function.update tables.sourceIdentifiers record (some productId)
      sourceProducts := Function.update tables.sourceProducts record (some row) }

/-- `appendCatalogObservation`. -/
def appendCatalogObservation (sourceRecordId ean : JsString) (incoming : CatalogProductRecord)
    (rawRecordHash : JsString) (productId : ℕ) : CatalogTables :=
  if tables.observations.any fun observation =>
      observation.ingestionRunId = runId ∧ observation.sourceRecordId = sourceRecordId then tables
  else
    { tables with
      observations := tables.observations ++
        [{ canonicalProductId := productId
           ingestionRunId := runId
           sourceRecordId := sourceRecordId
           gtin := ean
           fields := incoming.fields
           categoryPath := incoming.categoryPath
           rawRecordHash := rawRecordHash
           retrievedAt := incoming.retrievedAt
           sourceUpdatedAt := incoming.sourceUpdatedAt }] }

/-- An accepted outcome of a source that may be used. -/
def persistAccepted (sourceId : JsString) (base : OutcomeBase) (ean : JsString)
    (incoming : CatalogProductRecord) : Except CatalogError CatalogTables := do
  let normalized := normalizeCatalogOutcome (.accepted base ean incoming)
  let record : RecordKey := ⟨sourceId, base.sourceRecordId⟩
  let (productId, reviewRequired, resolved) ← resolveProductByGtin tables record ean incoming
  if reviewRequired then
    auditOutcome hash resolved runId normalized.forReview
  else
    let audited ← auditOutcome hash resolved runId normalized
    let linked ← linkSourceProduct audited record incoming (hash normalized) productId
    pure (appendCatalogObservation linked runId base.sourceRecordId ean incoming (hash normalized)
      productId)

/-- The loop of `persistCatalogOutcomes`, of one outcome. -/
def persistOutcome (sourceId : JsString) (approved : Bool) :
    CatalogIngestionOutcome → Except CatalogError CatalogTables
  | .accepted base ean incoming =>
    if approved then persistAccepted hash tables runId sourceId base ean incoming
    else auditOutcome hash tables runId (normalizeCatalogOutcome (.accepted base ean incoming)).forReview
  | .quarantined base reason ean record =>
    auditOutcome hash tables runId (normalizeCatalogOutcome (.quarantined base reason ean record))
  | .unknown base reason ean record =>
    auditOutcome hash tables runId (normalizeCatalogOutcome (.unknown base reason ean record))

/-- A catalog run that is running. -/
def runningRun : Option CatalogRun :=
  (tables.runs runId).filter fun run => run.runType = js "catalog" ∧ run.status = .running

/-- `persistCatalogOutcomes`: all outcomes, or none. -/
def persistCatalogOutcomes (approved : Bool) (outcomes : List CatalogIngestionOutcome) :
    Except CatalogError CatalogTables :=
  match runningRun tables runId with
  | none => .error .notRunning
  | some run =>
    if outcomes.length ≤ maxIngestionOutcomesPerWrite ∧ ∀ outcome ∈ outcomes, ValidOutcome outcome then
      outcomes.foldlM (fun tables outcome =>
        persistOutcome hash tables runId run.sourceId approved outcome) tables
    else .error .invalidInput

end Hash

/-! ### Runs -/

/-- A product was corrected from a record of a version. -/
structure Correction where
  productId : ℕ
  record : RecordKey
  version : ℤ
  deriving DecidableEq

/-- The tables, and the corrections of the products that have stayed active since. -/
structure CatalogState where
  tables : CatalogTables
  corrections : List Correction

/-- What happens. -/
inductive CatalogEvent where
  | begins (runId : ℕ) (sourceId : JsString)
  | finishes (runId : ℕ) (status : TerminalStatus)
  | persists (runId : ℕ) (approved : Bool) (outcome : CatalogIngestionOutcome)
  | audits (runId : ℕ) (outcome : NormalizedOutcome)
  | resolves (ean : JsString) (now : ℤ)
  /-- What others do with a product. -/
  | reviews (productId : ℕ) (status : ProductStatus)

/-- A product is active. -/
def IsActive (tables : CatalogTables) (productId : ℕ) : Prop :=
  ∃ canonical ∈ tables.products[productId]?, canonical.status = .active

instance (tables : CatalogTables) (productId : ℕ) : Decidable (IsActive tables productId) :=
  inferInstanceAs (Decidable (∃ _ ∈ _, _))

/-- The tables change, with a correction or without one. -/
def CatalogState.moveTo (st : CatalogState) (tables : CatalogTables) (correction : Option Correction) :
    CatalogState where
  tables := tables
  corrections :=
    (st.corrections ++ correction.toList).filter fun entry => IsActive tables entry.productId

/-- What an accepted outcome is compared with: the product it is resolved to, and the decision. -/
def decisionOf (tables : CatalogTables) (record : RecordKey) (ean : JsString)
    (incoming : CatalogProductRecord) : Option (ℕ × CatalogCanonicalMutationDecision) :=
  (tables.identifiers ean).bind fun identifier =>
    (tables.products[identifier.productId]?).map fun canonical =>
      (identifier.productId, catalogCanonicalMutationDecision canonical incoming
        (matchedSourceVersion tables record identifier.productId) true)

/-- The correction that an outcome is, if it is one. -/
def correctionOf (tables : CatalogTables) (sourceId : JsString) :
    Bool → CatalogIngestionOutcome → Option Correction
  | true, .accepted base ean incoming =>
    (decisionOf tables ⟨sourceId, base.sourceRecordId⟩ ean incoming).bind fun decision =>
      if decision.2 = .correct then
        incoming.sourceUpdatedAt.map fun version =>
          ⟨decision.1, ⟨sourceId, base.sourceRecordId⟩, version⟩
      else none
  | _, _ => none

section System

variable (hash : NormalizedOutcome → JsString)

/-- One step. -/
def step (st : CatalogState) : CatalogEvent → Option CatalogState
  | .begins runId sourceId =>
    if (st.tables.runs runId).isSome then none
    else some (st.moveTo { st.tables with
      runs := Function.update st.tables.runs runId (some ⟨js "catalog", sourceId, .running⟩) } none)
  | .finishes runId status =>
    (runningRun st.tables runId).map fun run =>
      st.moveTo { st.tables with
        runs := Function.update st.tables.runs runId (some { run with status := .terminal status }) } none
  | .persists runId approved outcome =>
    (runningRun st.tables runId).bind fun run =>
      if ValidOutcome outcome then
        (persistOutcome hash st.tables runId run.sourceId approved outcome).toOption.map fun tables =>
          st.moveTo tables (correctionOf st.tables run.sourceId approved outcome)
      else none
  | .audits runId outcome =>
    (runningRun st.tables runId).bind fun _ =>
      (auditOutcome hash st.tables runId outcome).toOption.map fun tables => st.moveTo tables none
  | .resolves ean now => some (st.moveTo (resolveForPrice st.tables ean now) none)
  | .reviews productId status =>
    (st.tables.products[productId]?).map fun canonical =>
      st.moveTo { st.tables with
        products := st.tables.products.set productId { canonical with status := status } } none

/-- Runs begin, persist outcomes and end, from any tables. -/
def system : System CatalogState CatalogEvent where
  init st := st.corrections = []
  step := step hash

end System

end Handleplan.CatalogIngestion
