import Handleplan.Kassalapp.PriceSource

/-!
# Outcomes of a catalog refresh

A catalog refresh reads a page of products to discover, and reads products of its targets again by
their exact numbers. Several of these candidates can be of one record of the source, and several
records can claim one GTIN. `canonicalCatalogOutcomes` makes of them one outcome for each record,
and at most one accepted product for each GTIN.

## Main definitions

* `Kassalapp.CatalogSourceCandidate` — a candidate.
* `Kassalapp.CatalogOutcome` — what is stored of a record.
* `Kassalapp.selectedCandidate` — the candidate that speaks for a record, if its
  candidates do not contradict each other.
* `Kassalapp.canonicalCatalogOutcomes` — the outcomes.

## Implementation notes

Two outcomes of candidates are of one shape if they have the same fields. Times are in milliseconds,
as the texts of accepted records are canonical. The source accepts records with a valid GTIN only.
Entries are told apart by their value, where the code tells them apart by identity: entries of
different records have different identifiers. The contract version, the source and the kind of a
record are constants and left out.
-/

namespace Handleplan.Kassalapp

open JsString Sorting

/-! ### Candidates -/

/-- `NormalizedPackageUnit`. -/
inductive PackageUnit where
  | g | ml | piece | package
  deriving DecidableEq

/-- `NormalizedPackageMeasure`. -/
structure PackageMeasure where
  amount : ℕ
  unit : PackageUnit
  deriving DecidableEq

/-- Why a product has no package measure. -/
inductive PackageMeasureState where
  | missing | unknownUnit
  deriving DecidableEq

/-- `KassalappProductCategoryV1`. -/
structure ProductCategory where
  sourceCategoryId : JsString
  depth : ℕ
  name : JsString
  deriving DecidableEq

/-- `KassalappProductSourceRecordV1`. -/
structure ProductSourceRecord where
  sourceRecordId : JsString
  retrievedAt : ℤ
  ean : JsString
  name : JsString
  brand : Option JsString := none
  categoryPath : Option (List ProductCategory) := none
  chainCodes : Option (List JsString) := none
  packageMeasure : Option PackageMeasure := none
  packageMeasureState : Option PackageMeasureState := none
  sourceUpdatedAt : Option ℤ := none
  isValidEan : isValidGtin ean = true
  deriving DecidableEq

/-- The reasons of the outcomes of products. -/
inductive ProductReason where
  | duplicateIdentity | futureTimestamp | identifierMismatch | invalidGtin | invalidMeasure
  | malformedRecord | unknownChain | batchFailed | missingPrice | missingRequestedEan
  | missingSupportedChain | missingTimestamp | notFound
  deriving DecidableEq

/-- An outcome of a product that is not accepted: quarantined, or else unknown. -/
structure ProductRejection where
  isQuarantined : Bool
  sourceRecordId : JsString
  reason : ProductReason
  subject : Subject
  deriving DecidableEq

/-- `SourceRecordOutcome`, of products. -/
inductive ProductOutcome where
  | accepted (record : ProductSourceRecord)
  | rejected (rejection : ProductRejection)
  deriving DecidableEq

/-- `CatalogCandidateOrigin`. -/
inductive CandidateOrigin where
  | discovery | exact
  deriving DecidableEq

/-- `CatalogSourceCandidate`. -/
structure CatalogSourceCandidate where
  origin : CandidateOrigin
  outcome : ProductOutcome
  targetEan : JsString

/-- The record of an accepted outcome. -/
def ProductOutcome.record? : ProductOutcome → Option ProductSourceRecord
  | .accepted record => some record
  | .rejected _ => none

variable (candidate : CatalogSourceCandidate)

/-- Whether the outcome of a candidate is accepted. -/
def CatalogSourceCandidate.IsAccepted : Prop :=
  candidate.outcome.record?.isSome = true

instance : DecidablePred CatalogSourceCandidate.IsAccepted :=
  fun candidate => inferInstanceAs (Decidable (candidate.outcome.record?.isSome = true))

/-- `catalogSourceRecordId`. -/
def catalogSourceRecordId : JsString :=
  match candidate.outcome with
  | .accepted record => record.sourceRecordId
  | .rejected rejection => rejection.sourceRecordId

/-- `catalogSubjectEan`. -/
def catalogSubjectEan : Option JsString :=
  let ean := match candidate.outcome with
    | .accepted record => record.ean
    | .rejected rejection => rejection.subject.ean.getD candidate.targetEan
  if isValidGtin ean then some ean else none

/-! ### Outcomes that are stored -/

/-- `conflictType`. -/
inductive ConflictType where
  | sourceRecordId | subjectEan
  deriving DecidableEq

/-- `normalizedRecord` of an outcome that is not accepted. -/
inductive NormalizedRecord where
  | outcome (rejection : ProductRejection)
  | conflict (candidateCount : ℕ) (conflictSourceRecordIds : List JsString)
      (conflictType : ConflictType)
  deriving DecidableEq

/-- `product` of an accepted outcome. -/
structure CatalogProduct where
  brand : Option JsString
  categoryPath : Option (List ProductCategory)
  displayName : JsString
  packageAmount : Option ℕ
  packageUnit : Option PackageUnit
  retrievedAt : ℤ
  sourceUpdatedAt : Option ℤ
  deriving DecidableEq

/-- An accepted `KassalappCatalogIngestionOutcome`. -/
structure AcceptedCatalogOutcome where
  normalizedRecord : ProductSourceRecord
  recordedAt : ℤ
  sourceRecordId : JsString
  subjectEan : JsString
  product : CatalogProduct
  deriving DecidableEq

/-- A `KassalappCatalogIngestionOutcome` that is not accepted: quarantined, or else unknown. -/
structure RejectedCatalogOutcome where
  isQuarantined : Bool
  normalizedRecord : NormalizedRecord
  rawChainCode : Option JsString
  reason : ProductReason
  recordedAt : ℤ
  sourceRecordId : JsString
  subjectChain : Option ChainId
  subjectEan : Option JsString
  deriving DecidableEq

/-- `KassalappCatalogIngestionOutcome`. -/
inductive CatalogOutcome where
  | accepted (outcome : AcceptedCatalogOutcome)
  | rejected (outcome : RejectedCatalogOutcome)
  deriving DecidableEq

/-- `sourceRecordId` of an outcome. -/
def CatalogOutcome.sourceRecordId : CatalogOutcome → JsString
  | .accepted outcome => outcome.sourceRecordId
  | .rejected outcome => outcome.sourceRecordId

/-- `subjectEan` of an accepted outcome. -/
def CatalogOutcome.acceptedEan : CatalogOutcome → Option JsString
  | .accepted outcome => some outcome.subjectEan
  | .rejected _ => none

/-- `mapCatalogOutcome`, which does not use the number of the target. -/
def mapCatalogOutcome (outcome : ProductOutcome) (_targetEan : JsString) (recordedAt : ℤ) :
    CatalogOutcome :=
  match outcome with
  | .rejected rejection =>
    .rejected
      { isQuarantined := rejection.isQuarantined
        normalizedRecord := .outcome rejection
        rawChainCode := rejection.subject.chainCode
        reason := rejection.reason
        recordedAt
        sourceRecordId := rejection.sourceRecordId
        subjectChain := subjectChain rejection.subject
        subjectEan := rejection.subject.ean }
  | .accepted record =>
    .accepted
      { normalizedRecord := record
        recordedAt := record.retrievedAt
        sourceRecordId := record.sourceRecordId
        subjectEan := record.ean
        product :=
          { brand := record.brand
            categoryPath := record.categoryPath
            displayName := record.name
            packageAmount := record.packageMeasure.map PackageMeasure.amount
            packageUnit := record.packageMeasure.map PackageMeasure.unit
            retrievedAt := record.retrievedAt
            sourceUpdatedAt := record.sourceUpdatedAt } }

section Canonical

variable (host : Host)

/-- `catalogConflictOutcome`. -/
def catalogConflictOutcome (candidateCount : ℕ) (conflictSourceRecordIds : List JsString)
    (conflictType : ConflictType) (recordedAt : ℤ) (sourceRecordId : JsString)
    (subjectEan : Option JsString) : CatalogOutcome :=
  .rejected
    { isQuarantined := true
      normalizedRecord := .conflict candidateCount
        (sortBy host.localeCompare conflictSourceRecordIds) conflictType
      rawChainCode := none
      reason := .duplicateIdentity
      recordedAt
      sourceRecordId
      subjectChain := none
      subjectEan }

/-! ### One outcome for each record -/

/-- `knownEans` of the candidates of a record. -/
def knownEans (group : List CatalogSourceCandidate) : List JsString :=
  (group.filterMap catalogSubjectEan).dedup

/-- `selected`, the candidate that speaks for the candidates of a record. -/
def selectedCandidate (group : List CatalogSourceCandidate) : Option CatalogSourceCandidate :=
  let discoveryCandidates := group.filter fun candidate => candidate.origin = .discovery
  let discoveryAccepted := discoveryCandidates.filter fun candidate => candidate.IsAccepted
  let discoveryShapes := (discoveryAccepted.map CatalogSourceCandidate.outcome).dedup
  let allShapes := (group.map CatalogSourceCandidate.outcome).dedup
  if group.length = 1 ∨ allShapes.length = 1 then group.head?
  else if 0 < discoveryAccepted.length ∧
      (∀ candidate ∈ discoveryCandidates, candidate.IsAccepted) ∧ discoveryShapes.length = 1 ∧
      (knownEans group).length = 1 then
    discoveryAccepted.head?
  else none

/-- The outcome of a record, from its candidates. -/
def recordOutcome (recordedAt : ℤ) (sourceRecordId : JsString)
    (group : List CatalogSourceCandidate) : CatalogOutcome :=
  match selectedCandidate group with
  | some selected => mapCatalogOutcome selected.outcome selected.targetEan recordedAt
  | none =>
    catalogConflictOutcome host group.length [sourceRecordId] .sourceRecordId recordedAt
      sourceRecordId (if (knownEans group).length = 1 then (knownEans group).head? else none)

/-- `IndexedCatalogOutcome`. -/
structure IndexedCatalogOutcome where
  index : ℕ
  outcome : CatalogOutcome
  deriving DecidableEq

/-- `sourceCanonical`. -/
def sourceCanonical (candidates : List CatalogSourceCandidate) (recordedAt : ℤ) :
    List IndexedCatalogOutcome :=
  (JsMap.groupBy (fun entry : CatalogSourceCandidate × ℕ => catalogSourceRecordId entry.1)
    candidates.zipIdx).map fun record =>
      { index := (record.2.map Prod.snd).min?.getD 0
        outcome := recordOutcome host recordedAt record.1 (record.2.map Prod.fst) }

/-! ### One accepted product for each GTIN -/

variable (entries : List IndexedCatalogOutcome)

/-- `acceptedByEan`. -/
def acceptedByEan :
    JsMap JsString (List (JsString × IndexedCatalogOutcome)) :=
  JsMap.groupBy Prod.fst (entries.filterMap fun entry =>
    entry.outcome.acceptedEan.map fun subjectEan => (subjectEan, entry))

/-- The groups of `acceptedByEan` with more than one entry. -/
def conflictingGroups :
    List (JsString × List IndexedCatalogOutcome) :=
  ((acceptedByEan entries).filter fun group => ¬ group.2.length < 2).map fun group =>
    (group.1, group.2.map Prod.snd)

/-- `conflictingAccepted`. -/
def conflictingAccepted : List IndexedCatalogOutcome :=
  (conflictingGroups entries).flatMap Prod.snd

/-- `eanConflicts`. -/
def eanConflicts (recordedAt : ℤ) :
    List IndexedCatalogOutcome :=
  (conflictingGroups entries).flatMap fun group =>
    let sourceRecordIds := sortBy host.localeCompare
      (group.2.map fun entry => entry.outcome.sourceRecordId)
    group.2.map fun entry =>
      { index := entry.index
        outcome := catalogConflictOutcome host group.2.length sourceRecordIds .subjectEan recordedAt
          entry.outcome.sourceRecordId (some group.1) }

/-- The order of the outcomes. -/
def compareIndexed : IndexedCatalogOutcome → IndexedCatalogOutcome → Ordering :=
  compareLex (compareOn IndexedCatalogOutcome.index)
    (on (fun entry => entry.outcome.sourceRecordId) host.localeCompare)

/-- `canonicalCatalogOutcomes`. -/
def canonicalCatalogOutcomes (candidates : List CatalogSourceCandidate) (recordedAt : ℤ) :
    List CatalogOutcome :=
  let entries := sourceCanonical host candidates recordedAt
  (sortBy (compareIndexed host)
    ((entries.filter fun entry => entry ∉ conflictingAccepted entries) ++
      eanConflicts host entries recordedAt)).map IndexedCatalogOutcome.outcome

end Canonical

end Handleplan.Kassalapp
