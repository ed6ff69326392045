import Handleplan.Domain.Evidence

/-!
# Comparison coverage

For each chain a comparison expects, what is known about the price of one product there: a price, a
current statement that the chain does not carry the product, or a reason why nothing is known.

A request names a product and chains as they were given, which may have white space around them. The
scope that is derived is parsed again: it has the identifiers without that white space, and is
refused when a cell does not meet the schema.

## Main definitions

* `CoverageStatus`, `ComparisonScope` and their schemas.
* `AcceptsRequest` — the checks of a request.
* `deriveComparisonScopeFrom` — the scope of a request as it was given.
* `deriveComparisonScope` — the scope of a product and chains without white space.

## Main results

* `eq_of_deriveComparisonScope` — a derived scope meets its schema and is about the expected chains,
  in order.
-/

namespace Handleplan

open JsString Sorting

/-- `KNOWN_NOT_CARRIED_MAX_AGE_MS`: 72 hours. -/
def knownNotCarriedMaxAgeMs : ℤ := 72 * 60 * 60 * 1000

/-! ### Records -/

/-- `reason` of an ineligible cell. -/
inductive IneligibleReason where
  | sourceDisabled | ambiguousProduct | ambiguousScope | wrongScope | unknownScope | notYetValid
  | expired | membershipDisabled | invalidEvidence
  deriving DecidableEq

/-- `reason` of an unknown cell. -/
inductive UnknownReason where
  | notChecked | sourceUnavailable
  deriving DecidableEq

/-- `CoverageStatus`. -/
inductive CoverageStatus where
  | priced (evidenceId : JsString)
  | knownNotCarried (sourceId : JsString) (checkedAt : ℤ)
  | stale (evidenceId : JsString) (observedAt staleAt : ℤ)
  | ineligible (evidenceId : Option JsString) (reason : IneligibleReason) (evaluatedAt : ℤ)
  | unknown (reason : UnknownReason) (checkedAt : Option ℤ)
  deriving DecidableEq

/-- An entry of a scope. -/
structure ScopeEntry where
  chainId : JsString
  status : CoverageStatus
  deriving DecidableEq

/-- `completeness`. -/
inductive Completeness where
  | complete | partly
  deriving DecidableEq

/-- `ComparisonScope`. -/
structure ComparisonScope where
  completeness : Completeness
  evaluatedAt : ℤ
  expectedChainIds : List JsString
  entries : List ScopeEntry
  deriving DecidableEq

/-- `state` of a coverage check. -/
inductive CoverageCheckState where
  | knownNotCarried | sourceUnavailable
  deriving DecidableEq

/-- `CoverageCheck`. -/
structure CoverageCheck where
  id : JsString
  sourceId : JsString
  canonicalProductId : JsString
  chainId : JsString
  state : CoverageCheckState
  checkedAt : ℤ
  geographicScope : GeographicScope
  deriving DecidableEq

/-- The evidence a priced cell names. -/
def CoverageStatus.pricedEvidenceId : CoverageStatus → Option JsString
  | .priced evidenceId => some evidenceId
  | _ => none

/-- The evidence a stale or ineligible cell names. -/
def CoverageStatus.excludedEvidenceId : CoverageStatus → Option JsString
  | .stale evidenceId _ _ => some evidenceId
  | .ineligible evidenceId _ _ => evidenceId
  | _ => none

/-- The source of a statement that a product is not carried. -/
def CoverageStatus.notCarriedSourceId : CoverageStatus → Option JsString
  | .knownNotCarried sourceId _ => some sourceId
  | _ => none

/-- Whether a cell is priced or known not to be carried. -/
def CoverageStatus.isResolved : CoverageStatus → Bool
  | .priced _ => true
  | .knownNotCarried _ _ => true
  | _ => false

/-! ### Schemas -/

/-- `coverageStatusSchema`. -/
def CoverageStatusSchema : CoverageStatus → Prop
  | .priced evidenceId => IdentifierSchema evidenceId
  | .knownNotCarried sourceId checkedAt =>
    IdentifierSchema sourceId ∧ CanonicalTimestamp checkedAt
  | .stale evidenceId observedAt staleAt =>
    IdentifierSchema evidenceId ∧ CanonicalTimestamp observedAt ∧ CanonicalTimestamp staleAt ∧
      observedAt < staleAt
  | .ineligible evidenceId _ evaluatedAt =>
    (∀ id ∈ evidenceId, IdentifierSchema id) ∧ CanonicalTimestamp evaluatedAt
  | .unknown _ checkedAt => ∀ t ∈ checkedAt, CanonicalTimestamp t

instance : DecidablePred CoverageStatusSchema := fun status => by
  cases status <;> unfold CoverageStatusSchema <;> infer_instance

/-- The check of `comparisonScopeSchema` on a cell that is known not to be carried. -/
def NotCarriedCurrent (evaluatedAt : ℤ) : CoverageStatus → Prop
  | .knownNotCarried _ checkedAt =>
    checkedAt ≤ evaluatedAt ∧ evaluatedAt - checkedAt ≤ knownNotCarriedMaxAgeMs
  | _ => True

instance (evaluatedAt : ℤ) : DecidablePred (NotCarriedCurrent evaluatedAt) := fun status => by
  cases status <;> unfold NotCarriedCurrent <;> infer_instance

/-- `comparisonScopeSchema`. -/
@[mk_iff] structure ComparisonScopeSchema (scope : ComparisonScope) : Prop where
  evaluatedAt : CanonicalTimestamp scope.evaluatedAt
  expectedChainIds : 1 ≤ scope.expectedChainIds.length ∧
    ∀ id ∈ scope.expectedChainIds, IdentifierSchema id
  entries : 1 ≤ scope.entries.length ∧ ∀ entry ∈ scope.entries,
    IdentifierSchema entry.chainId ∧ CoverageStatusSchema entry.status
  uniqueExpected : scope.expectedChainIds.Nodup
  uniqueEntries : (scope.entries.map (·.chainId)).Nodup
  matching : scope.entries.length = scope.expectedChainIds.length ∧
    ∀ id ∈ scope.expectedChainIds, id ∈ scope.entries.map (·.chainId)
  complete : scope.completeness = .complete →
    ∀ entry ∈ scope.entries, entry.status.isResolved = true
  current : ∀ entry ∈ scope.entries, NotCarriedCurrent scope.evaluatedAt entry.status

instance : DecidablePred ComparisonScopeSchema :=
  fun _ => decidable_of_iff' _ (comparisonScopeSchema_iff _)

/-- `coverageCheckSchema`. -/
@[mk_iff] structure CoverageCheckSchema (check : CoverageCheck) : Prop where
  id : IdentifierSchema check.id
  sourceId : IdentifierSchema check.sourceId
  canonicalProductId : IdentifierSchema check.canonicalProductId
  chainId : IdentifierSchema check.chainId
  checkedAt : CanonicalTimestamp check.checkedAt
  geographicScope : GeographicScopeSchema check.geographicScope

instance : DecidablePred CoverageCheckSchema :=
  fun _ => decidable_of_iff' _ (coverageCheckSchema_iff _)

/-! ### Derivation -/

/-- `dedupeStrictById`: the first record of each identifier, unless two records of one identifier
differ. -/
def dedupeStrictById {α : Type} [DecidableEq α] (id : α → JsString) (values : List α) :
    Option (List α) :=
  if ∃ a ∈ values, ∃ b ∈ values, id a = id b ∧ a ≠ b then none
  else some (JsMap.ofFirstEntries (values.map fun value => (id value, value))).values

variable (evidence : PriceEvidence)

/-- `evidenceConcernsProduct`. -/
def evidenceConcernsProduct (canonicalProductId : JsString) : Prop :=
  match evidence.productMatch with
  | .exact id => id = canonicalProductId
  | .ambiguous ids => canonicalProductId ∈ ids

instance (evidence : PriceEvidence) (canonicalProductId : JsString) :
    Decidable (evidenceConcernsProduct evidence canonicalProductId) := by
  unfold evidenceConcernsProduct
  cases evidence.productMatch <;> infer_instance

/-- `mapIneligibleReason`. -/
def mapIneligibleReason : IneligiblePriceReason → IneligibleReason
  | .sourceDisabled => .sourceDisabled
  | .ambiguous => .ambiguousProduct
  | .ambiguousScope => .ambiguousScope
  | .wrongScope => .wrongScope
  | .unknownScope => .unknownScope
  | .notYetValid => .notYetValid
  | .expired => .expired
  | .future | .invalid | .stale => .invalidEvidence

/-- Whether a price is eligible. -/
def isEligible (context : PriceEvidenceEligibilityContext) : Bool :=
  (parseEligiblePriceEvidence evidence context).toBool

/-- `evidenceStatus`. -/
def evidenceStatus (context : PriceEvidenceEligibilityContext) :
    CoverageStatus :=
  match parseEligiblePriceEvidence evidence context with
  | .ok _ => .priced evidence.id
  | .error .stale =>
    .stale evidence.id evidence.observedAt (evidence.observedAt + context.maxAgeMs)
  | .error reason => .ineligible (some evidence.id) (mapIneligibleReason reason) context.now

/-- The specificity of a scope in a context. -/
def specificityIn (scope : GeographicScope) (context : PriceEvidenceEligibilityContext) :
    Option ℕ :=
  geographicScopeSpecificity scope context.location context.geographicDirectory

variable (context : PriceEvidenceEligibilityContext)

/-- `compareEligibleEvidence`. -/
def compareEligibleEvidence :
    PriceEvidence → PriceEvidence → Ordering :=
  compareLex (descending (compareOn fun evidence : PriceEvidence =>
      specificityIn evidence.geographicScope context)) <|
    compareLex (descending (compareOn (·.observedAt))) <|
      compareLex (compareOn (·.amountOre)) <|
        on (·.id) compareText

/-- The rank of a state among checks of one age and scope. -/
def CoverageCheckState.rank : CoverageCheckState → ℕ
  | .sourceUnavailable => 0
  | .knownNotCarried => 1

/-- `compareCoverageChecks`. -/
def compareCoverageChecks :
    CoverageCheck → CoverageCheck → Ordering :=
  compareLex (descending (compareOn fun check : CoverageCheck =>
      specificityIn check.geographicScope context)) <|
    compareLex (descending (compareOn (·.checkedAt))) <|
      compareLex (compareOn (·.state.rank)) <|
        on (·.id) compareText

/-- Whether a cell is stale. -/
def CoverageStatus.isStale : CoverageStatus → Bool
  | .stale _ _ _ => true
  | _ => false

/-- The order of evidence that prices nothing: stale before ineligible, then the latest first. -/
def compareUnresolvedEvidence :
    PriceEvidence → PriceEvidence → Ordering :=
  compareLex (compareOn fun evidence : PriceEvidence =>
      if (evidenceStatus evidence context).isStale then 0 else 1) <|
    compareLex (descending (compareOn (·.observedAt))) <|
      on (·.id) compareText

/-- `checkIsCurrentAndApplicable`. -/
def checkIsCurrentAndApplicable (check : CoverageCheck) (canonicalProductId : JsString)
    (context : PriceEvidenceEligibilityContext) : Prop :=
  check.canonicalProductId = canonicalProductId ∧ check.sourceId ∈ context.enabledSourceIds ∧
    check.checkedAt ≤ context.now ∧ context.now - check.checkedAt ≤ context.maxAgeMs ∧
    specificityIn check.geographicScope context ≠ none

instance (check : CoverageCheck) (canonicalProductId : JsString)
    (context : PriceEvidenceEligibilityContext) :
    Decidable (checkIsCurrentAndApplicable check canonicalProductId context) :=
  inferInstanceAs (Decidable (_ ∧ _ ∧ _ ∧ _ ∧ _))

/-- The status of a chain that no eligible evidence prices: by its coverage checks, or else by the
evidence that is not eligible. -/
def unpricedStatus (canonicalProductId chainId : JsString) (candidates : List PriceEvidence)
    (checks : List CoverageCheck) (context : PriceEvidenceEligibilityContext) : CoverageStatus :=
  let applicableChecks := sortBy (compareCoverageChecks context) (checks.filter fun check =>
    check.chainId = chainId ∧ checkIsCurrentAndApplicable check canonicalProductId context)
  match applicableChecks.head? with
  | some selectedCheck =>
    let equallyCurrentChecks := applicableChecks.filter fun check =>
      check.checkedAt = selectedCheck.checkedAt ∧
        specificityIn check.geographicScope context =
          specificityIn selectedCheck.geographicScope context
    if 1 < (equallyCurrentChecks.map (·.state)).dedup.length then
      .unknown .sourceUnavailable (some selectedCheck.checkedAt)
    else
      match selectedCheck.state with
      | .knownNotCarried => .knownNotCarried selectedCheck.sourceId selectedCheck.checkedAt
      | .sourceUnavailable => .unknown .sourceUnavailable (some selectedCheck.checkedAt)
  | none =>
    match least (compareUnresolvedEvidence context) candidates with
    | none => .unknown .notChecked none
    | some unresolved => evidenceStatus unresolved context

/-- The status of a chain: the evidence of the product without white space, and the checks of the
product as it was given. -/
def chainStatusFrom (product canonicalProductId chainId : JsString) (evidence : List PriceEvidence)
    (checks : List CoverageCheck) (context : PriceEvidenceEligibilityContext) : CoverageStatus :=
  let candidates := evidence.filter fun candidate =>
    candidate.chainId = chainId ∧ candidate.priceKind = .ordinary ∧
      evidenceConcernsProduct candidate product
  let eligibleCandidates := sortBy (compareEligibleEvidence context)
    (candidates.filter fun candidate => isEligible candidate context)
  match eligibleCandidates.head? with
  | some eligible =>
    let equallyCurrent := eligibleCandidates.filter fun candidate =>
      candidate.observedAt = eligible.observedAt ∧
        specificityIn candidate.geographicScope context =
          specificityIn eligible.geographicScope context
    if 1 < (equallyCurrent.map (·.amountOre)).dedup.length then
      .ineligible ((least (on (·.id) compareText) equallyCurrent).map (·.id)) .invalidEvidence
        context.now
    else .priced eligible.id
  | none => unpricedStatus canonicalProductId chainId candidates checks context

/-- The status of a chain in the scope of a product. -/
def chainStatus (canonicalProductId chainId : JsString) (evidence : List PriceEvidence)
    (checks : List CoverageCheck) (context : PriceEvidenceEligibilityContext) : CoverageStatus :=
  chainStatusFrom canonicalProductId canonicalProductId chainId evidence checks context

/-- The checks of a request. -/
@[mk_iff] structure AcceptsRequest (canonicalProductId : JsString) (expectedChainIds : List JsString)
    (context : PriceEvidenceEligibilityContext) : Prop where
  canonicalProductId : IdentifierSchema (trim canonicalProductId)
  location : GeographicContextSchema context.location
  maxAgeMs : context.maxAgeMs ≤ maxSafeInteger
  length : 1 ≤ expectedChainIds.length ∧ expectedChainIds.length ≤ 13
  unique : expectedChainIds.Nodup
  expectedChainIds : ∀ id ∈ expectedChainIds, IdentifierSchema (trim id)

instance (canonicalProductId : JsString) (expectedChainIds : List JsString)
    (context : PriceEvidenceEligibilityContext) :
    Decidable (AcceptsRequest canonicalProductId expectedChainIds context) :=
  decidable_of_iff' _ (acceptsRequest_iff _ _ _)

/-- The scope of cells before it is parsed, and what parsing makes of its identifiers. -/
def parsedScope (now : ℤ) (cells : List ScopeEntry) : ComparisonScope where
  completeness := if cells.all (·.status.isResolved) then .complete else .partly
  evaluatedAt := now
  expectedChainIds := cells.map fun cell => trim cell.chainId
  entries := cells.map fun cell => { cell with chainId := trim cell.chainId }

/-- Cells whose chains have no white space around them are left as they are. -/
theorem parsedScope_of_trimmed {now : ℤ} {cells : List ScopeEntry}
    (h : ∀ cell ∈ cells, trim cell.chainId = cell.chainId) :
    parsedScope now cells =
      { completeness := if cells.all (·.status.isResolved) then .complete else .partly
        evaluatedAt := now
        expectedChainIds := cells.map (·.chainId)
        entries := cells } := by
  unfold parsedScope
  rw [List.map_congr_left h]
  congr 1
  exact (List.map_congr_left fun cell hcell => congrArg₂ ScopeEntry.mk (h cell hcell) rfl).trans
    (List.map_id _)

/-- `deriveComparisonScope` of a request as it was given. -/
def deriveComparisonScopeFrom (canonicalProductId : JsString) (expectedChainIds : List JsString)
    (priceEvidence : List PriceEvidence) (coverageChecks : List CoverageCheck)
    (context : PriceEvidenceEligibilityContext) : Option ComparisonScope :=
  if ¬ AcceptsRequest canonicalProductId expectedChainIds context then none
  else
    match dedupeStrictById (·.id) (priceEvidence.filter fun e => PriceEvidenceSchema e),
      dedupeStrictById (·.id) (coverageChecks.filter fun check => CoverageCheckSchema check) with
    | some evidence, some checks =>
      let scope := parsedScope context.now <| expectedChainIds.map fun chainId =>
        { chainId := chainId
          status := chainStatusFrom (trim canonicalProductId) canonicalProductId chainId evidence
            checks context }
      if ComparisonScopeSchema scope then some scope else none
    | _, _ => none

/-- `deriveComparisonScope` of identifiers that have no white space around them. -/
def deriveComparisonScope (canonicalProductId : JsString) (expectedChainIds : List JsString)
    (priceEvidence : List PriceEvidence) (coverageChecks : List CoverageCheck)
    (context : PriceEvidenceEligibilityContext) : Option ComparisonScope :=
  if ¬ (IdentifierSchema canonicalProductId ∧ ∀ id ∈ expectedChainIds, IdentifierSchema id) then none
  else
    deriveComparisonScopeFrom canonicalProductId expectedChainIds priceEvidence coverageChecks context

section Scope

variable {canonicalProductId : JsString} {expectedChainIds : List JsString}
  {priceEvidence : List PriceEvidence} {coverageChecks : List CoverageCheck}
  {context : PriceEvidenceEligibilityContext} {scope : ComparisonScope}

/-- **What a derived scope is**: it meets its schema, and has a cell for each expected chain, in
order. -/
theorem eq_of_deriveComparisonScope
    (h : deriveComparisonScope canonicalProductId expectedChainIds priceEvidence coverageChecks
      context = some scope) :
    ComparisonScopeSchema scope ∧ ∃ evidence checks,
      dedupeStrictById (·.id) (priceEvidence.filter fun e => PriceEvidenceSchema e) = some evidence ∧
      dedupeStrictById (·.id) (coverageChecks.filter fun check => CoverageCheckSchema check) =
        some checks ∧
      scope.evaluatedAt = context.now ∧ scope.expectedChainIds = expectedChainIds ∧
      scope.entries = expectedChainIds.map (fun chainId =>
        ⟨chainId, chainStatus canonicalProductId chainId evidence checks context⟩) ∧
      scope.completeness =
        if scope.entries.all (·.status.isResolved) then .complete else .partly := by
  obtain ⟨hids, h⟩ := Option.ite_none_left_eq_some.mp h
  obtain ⟨hproduct, hchains⟩ := not_not.mp hids
  obtain ⟨-, h⟩ := Option.ite_none_left_eq_some.mp h
  split at h
  case h_2 => cases h
  case h_1 evidence checks hevidence hchecks =>
    dsimp only at h
    rw [parsedScope_of_trimmed, hproduct.1] at h
    · obtain ⟨hschema, heq⟩ := Option.ite_none_right_eq_some.mp h
      cases heq
      exact ⟨hschema, evidence, checks, hevidence, hchecks, rfl, by
        rw [List.map_map]; exact List.map_id _, rfl, rfl⟩
    · intro cell hcell
      obtain ⟨chainId, hchain, rfl⟩ := List.mem_map.mp hcell
      exact (hchains chainId hchain).1

end Scope

end Handleplan
