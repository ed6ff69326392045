import Handleplan.Domain.CoverageSpec

/-!
# When a comparison scope is derived

A valid request has a scope unless two chains differ in white space only, two records of one id
differ, or the schema refuses a cell.

## Main definitions

* `StaleWithoutWindow`, `AbsentForTooLong` — the cells that the schema refuses.

## Main results

* `cellFits_chainStatusFrom` — the schema accepts all other cells.
* `deriveComparisonScopeFrom_isSome_iff` — when there is a scope.
-/

namespace Handleplan

open JsString Sorting

/-! ### The cells that the schema accepts -/

section Cells

variable (product canonicalProductId chainId : JsString) (context : PriceEvidenceEligibilityContext)
  (priceEvidence : List PriceEvidence) (coverageChecks : List CoverageCheck)

/-- A chain is stale, and no time has passed until it became so. -/
def StaleWithoutWindow : Prop :=
  context.maxAgeMs = 0 ∧ eligiblePrices product chainId context priceEvidence = [] ∧
    applicableChecks canonicalProductId chainId context coverageChecks = [] ∧
    ∃ e ∈ priceEvidence, PriceEvidenceSchema e ∧ (e.chainId = chainId ∧ e.priceKind = .ordinary ∧
      evidenceConcernsProduct e product) ∧ parseEligiblePriceEvidence e context = .error .stale

/-- A chain is known not to carry the product, by a check that the schema takes to be too old. -/
def AbsentForTooLong : Prop :=
  eligiblePrices product chainId context priceEvidence = [] ∧
    (∃ check, IsSelectedCheck canonicalProductId chainId context coverageChecks check ∧
      knownNotCarriedMaxAgeMs < context.now - check.checkedAt) ∧
    ∀ check, IsSelectedCheck canonicalProductId chainId context coverageChecks check →
      check.state = .knownNotCarried

/-- The schema of a scope accepts a cell. -/
def CellFits (now : ℤ) (status : CoverageStatus) : Prop :=
  CoverageStatusSchema status ∧ NotCarriedCurrent now status

variable {product canonicalProductId chainId context priceEvidence coverageChecks}
  {evidence : List PriceEvidence} {checks : List CoverageCheck}

/-- A stale price is older than the maximum age. -/
theorem lt_age_of_stale {e : PriceEvidence}
    (h : parseEligiblePriceEvidence e context = .error .stale) :
    (context.maxAgeMs : ℤ) < context.now - e.observedAt := by
  by_contra hfresh
  unfold parseEligiblePriceEvidence at h
  simp only [hfresh, if_false] at h
  split_ifs at h
  all_goals first | cases h | (split at h <;> cases h)

/-- The status of evidence that is not stale, or whose maximum age is positive, is accepted. -/
theorem cellFits_evidenceStatus {e : PriceEvidence} (hschema : PriceEvidenceSchema e)
    (hnow : CanonicalTimestamp context.now)
    (hstale : parseEligiblePriceEvidence e context = .error .stale → 0 < context.maxAgeMs) :
    CellFits context.now (evidenceStatus e context) := by
  have hid : ∀ id ∈ some e.id, IdentifierSchema id := fun id hid => Option.some.inj hid ▸ hschema.id
  unfold evidenceStatus
  cases hparse : parseEligiblePriceEvidence e context with
  | ok parsed => exact ⟨hschema.id, trivial⟩
  | error reason =>
    cases reason with
    | stale =>
      -- It has become stale between two timestamps that are canonical.
      have hage := lt_age_of_stale hparse
      have hpositive := hstale hparse
      have hobserved := hschema.observedAt
      have hwindow : CanonicalTimestamp (e.observedAt + context.maxAgeMs) :=
        ⟨by linarith [hobserved.1, Int.natCast_nonneg context.maxAgeMs], by linarith [hnow.2]⟩
      exact ⟨⟨hschema.id, hobserved, hwindow, by omega⟩, trivial⟩
    | invalid => exact ⟨⟨hid, hnow⟩, trivial⟩
    | sourceDisabled => exact ⟨⟨hid, hnow⟩, trivial⟩
    | ambiguous => exact ⟨⟨hid, hnow⟩, trivial⟩
    | future => exact ⟨⟨hid, hnow⟩, trivial⟩
    | notYetValid => exact ⟨⟨hid, hnow⟩, trivial⟩
    | expired => exact ⟨⟨hid, hnow⟩, trivial⟩
    | unknownScope => exact ⟨⟨hid, hnow⟩, trivial⟩
    | ambiguousScope => exact ⟨⟨hid, hnow⟩, trivial⟩
    | wrongScope => exact ⟨⟨hid, hnow⟩, trivial⟩

/-- The status of a chain without an eligible price is accepted, unless it is stale without a window
or absent for too long. -/
theorem cellFits_unpricedStatus {candidates : List PriceEvidence}
    (hcandidates : ∀ e ∈ candidates, PriceEvidenceSchema e)
    (hchecks : ∀ check ∈ checks, CoverageCheckSchema check)
    (hnow : CanonicalTimestamp context.now)
    (hstale : (checks.filter fun check => check.chainId = chainId ∧
        checkIsCurrentAndApplicable check canonicalProductId context) = [] →
      ∀ e ∈ candidates, parseEligiblePriceEvidence e context = .error .stale → 0 < context.maxAgeMs)
    (habsent : ∀ sourceId checkedAt,
      unpricedStatus canonicalProductId chainId candidates checks context =
          .knownNotCarried sourceId checkedAt →
        context.now - checkedAt ≤ knownNotCarriedMaxAgeMs) :
    CellFits context.now (unpricedStatus canonicalProductId chainId candidates checks context) := by
  unfold unpricedStatus at habsent ⊢
  dsimp only at habsent ⊢
  cases hselected : (sortBy (compareCoverageChecks context) (checks.filter fun check =>
      check.chainId = chainId ∧ checkIsCurrentAndApplicable check canonicalProductId context)).head? with
  | none =>
    dsimp only
    have hnil := hstale (sortBy_eq_nil_iff.mp (List.head?_eq_none_iff.mp hselected))
    cases hleast : least (compareUnresolvedEvidence context) candidates with
    | none =>
      have hno : ∀ t ∈ (none : Option ℤ), CanonicalTimestamp t := fun t ht => by cases ht
      exact ⟨hno, trivial⟩
    | some unresolved =>
      have hmem := least_mem hleast
      exact cellFits_evidenceStatus (hcandidates _ hmem) hnow (hnil _ hmem)
  | some selected =>
    rw [hselected] at habsent
    dsimp only at habsent ⊢
    obtain ⟨hmem, hcurrent⟩ := List.mem_filter.mp (mem_sortBy.mp (List.mem_of_head? hselected))
    have hcurrent := (of_decide_eq_true hcurrent).2
    have hschema := hchecks selected hmem
    have hunknown : CellFits context.now
        (.unknown .sourceUnavailable (some selected.checkedAt)) :=
      ⟨fun t ht => Option.some.inj ht ▸ hschema.checkedAt, trivial⟩
    by_cases hdiffer : 1 < (((sortBy (compareCoverageChecks context) (checks.filter fun check =>
        check.chainId = chainId ∧
          checkIsCurrentAndApplicable check canonicalProductId context)).filter fun check =>
        check.checkedAt = selected.checkedAt ∧ specificityIn check.geographicScope context =
          specificityIn selected.geographicScope context).map (·.state)).dedup.length
    · rw [if_pos hdiffer]
      exact hunknown
    · rw [if_neg hdiffer] at habsent ⊢
      cases hstate : selected.state with
      | knownNotCarried =>
        rw [hstate] at habsent
        exact ⟨⟨hschema.sourceId, hschema.checkedAt⟩, hcurrent.2.2.1, habsent _ _ rfl⟩
      | sourceUnavailable => exact hunknown

/-- **The schema accepts the cell of a chain** that is neither stale without a window nor absent for
too long. -/
theorem cellFits_chainStatusFrom
    (hevidence : ∀ e, e ∈ evidence ↔ e ∈ priceEvidence ∧ PriceEvidenceSchema e)
    (hchecks : ∀ check, check ∈ checks ↔ check ∈ coverageChecks ∧ CoverageCheckSchema check)
    (hnow : CanonicalTimestamp context.now)
    (hstale : ¬ StaleWithoutWindow product canonicalProductId chainId context priceEvidence
      coverageChecks)
    (habsent : ¬ AbsentForTooLong product canonicalProductId chainId context priceEvidence
      coverageChecks) :
    CellFits context.now
      (chainStatusFrom product canonicalProductId chainId evidence checks context) := by
  unfold chainStatusFrom
  dsimp only
  cases hfirst : (sortBy (compareEligibleEvidence context) ((evidence.filter fun candidate =>
      candidate.chainId = chainId ∧ candidate.priceKind = .ordinary ∧
        evidenceConcernsProduct candidate product).filter
          fun candidate => isEligible candidate context)).head? with
  | some first =>
    have hmem := List.mem_of_mem_filter (List.mem_of_mem_filter
      (mem_sortBy.mp (List.mem_of_head? hfirst)))
    dsimp only
    split_ifs
    · refine ⟨⟨fun id hid => ?_, hnow⟩, trivial⟩
      obtain ⟨e, he, rfl⟩ := Option.map_eq_some_iff.mp hid
      have he := List.mem_of_mem_filter (List.mem_of_mem_filter
        (mem_sortBy.mp (List.mem_of_mem_filter (least_mem he))))
      exact ((hevidence e).mp he).2.id
    · exact ⟨((hevidence first).mp hmem).2.id, trivial⟩
  | none =>
    have hnil : eligiblePrices product chainId context priceEvidence = [] := by
      have hempty := sortBy_eq_nil_iff.mp (List.head?_eq_none_iff.mp hfirst)
      refine List.filter_eq_nil_iff.mpr fun e he heligible => ?_
      obtain ⟨hschema, hchain, hkind, hconcerns, heligible⟩ := of_decide_eq_true heligible
      exact List.filter_eq_nil_iff.mp hempty e (List.mem_filter.mpr
        ⟨(hevidence e).mpr ⟨he, hschema⟩, decide_eq_true ⟨hchain, hkind, hconcerns⟩⟩) heligible
    refine cellFits_unpricedStatus (fun e he => ((hevidence e).mp (List.mem_of_mem_filter he)).2)
      (fun check hcheck => ((hchecks check).mp hcheck).2) hnow ?_ ?_
    · intro hunchecked e he hparse
      by_contra hzero
      obtain ⟨he, hcandidate⟩ := List.mem_filter.mp he
      obtain ⟨he, hschema⟩ := (hevidence e).mp he
      refine hstale ⟨Nat.eq_zero_of_not_pos hzero, hnil, ?_, e, he, hschema,
        of_decide_eq_true hcandidate, hparse⟩
      refine List.filter_eq_nil_iff.mpr fun check hcheck happlies => ?_
      obtain ⟨hschema, happlies⟩ := of_decide_eq_true happlies
      exact List.filter_eq_nil_iff.mp hunchecked check ((hchecks check).mpr ⟨hcheck, hschema⟩)
        (decide_eq_true happlies)
    · intro sourceId checkedAt hstatus
      obtain ⟨⟨check, hselected, -, rfl⟩, hall⟩ := notCarried_of_unpricedStatus hchecks hstatus
      by_contra hold
      exact habsent ⟨hnil, ⟨check, hselected, not_le.mp hold⟩, hall⟩

end Cells

/-! ### The scope -/

section Scope

variable {canonicalProductId : JsString} {expectedChainIds : List JsString}
  {priceEvidence : List PriceEvidence} {coverageChecks : List CoverageCheck}
  {context : PriceEvidenceEligibilityContext}

/-- No two different records have one id. -/
def AgreeById {α : Type} (id : α → JsString) (values : List α) : Prop :=
  ∀ a ∈ values, ∀ b ∈ values, id a = id b → a = b

instance {α : Type} [DecidableEq α] (id : α → JsString) : DecidablePred (AgreeById id) :=
  fun _ => inferInstanceAs (Decidable (∀ _ ∈ _, ∀ _ ∈ _, _ → _))

theorem agreeById_of_dedupeStrictById {α : Type} [DecidableEq α] {id : α → JsString}
    {values kept : List α} (h : dedupeStrictById id values = some kept) : AgreeById id values := by
  intro a ha b hb hid
  by_contra hne
  exact (Option.ite_none_left_eq_some.mp h).1 ⟨a, ha, b, hb, hid, hne⟩

theorem exists_dedupeStrictById {α : Type} [DecidableEq α] {id : α → JsString} {values : List α}
    (h : AgreeById id values) : ∃ kept, dedupeStrictById id values = some kept :=
  ⟨_, if_neg fun ⟨a, ha, b, hb, hid, hne⟩ => hne (h a ha b hb hid)⟩

/-- **The schema accepts the scope** of chains that are distinct without white space, at an instant
that has a timestamp, when it accepts each cell. -/
theorem comparisonScopeSchema_parsedScope {now : ℤ} {cells : List ScopeEntry}
    (hids : 1 ≤ cells.length ∧ ∀ cell ∈ cells, IdentifierSchema (trim cell.chainId)) :
    ComparisonScopeSchema (parsedScope now cells) ↔
      CanonicalTimestamp now ∧ (cells.map fun cell => trim cell.chainId).Nodup ∧
        ∀ cell ∈ cells, CellFits now cell.status := by
  constructor
  · intro h
    refine ⟨h.evaluatedAt, h.uniqueExpected, fun cell hcell => ?_⟩
    have hentry : { cell with chainId := trim cell.chainId } ∈ (parsedScope now cells).entries :=
      List.mem_map_of_mem hcell
    have hcurrent := h.current _ hentry
    exact ⟨(h.entries.2 _ hentry).2, hcurrent⟩
  · rintro ⟨hnow, hunique, hcells⟩
    have hchains : (parsedScope now cells).entries.map (·.chainId) =
        cells.map fun cell => trim cell.chainId := by
      rw [parsedScope, List.map_map]
      rfl
    exact {
      evaluatedAt := hnow
      expectedChainIds := by
        refine ⟨by simpa [parsedScope] using hids.1, fun id hid => ?_⟩
        obtain ⟨cell, hcell, rfl⟩ := List.mem_map.mp hid
        exact hids.2 cell hcell
      entries := by
        refine ⟨by simpa [parsedScope] using hids.1, fun entry hentry => ?_⟩
        obtain ⟨cell, hcell, rfl⟩ := List.mem_map.mp hentry
        exact ⟨hids.2 cell hcell, (hcells cell hcell).1⟩
      uniqueExpected := hunique
      uniqueEntries := by
        rw [hchains]
        exact hunique
      matching := by
        rw [hchains]
        exact ⟨by simp [parsedScope], fun id hid => hid⟩
      complete := by
        intro hcomplete entry hentry
        obtain ⟨cell, hcell, rfl⟩ := List.mem_map.mp hentry
        have hall : cells.all (·.status.isResolved) = true := by
          by_contra hnot
          rw [parsedScope, if_neg hnot] at hcomplete
          cases hcomplete
        exact List.all_eq_true.mp hall cell hcell
      current := by
        intro entry hentry
        obtain ⟨cell, hcell, rfl⟩ := List.mem_map.mp hentry
        exact (hcells cell hcell).2 }

/-- **A valid request has a scope**, which meets the schema, exactly when its instant has a
timestamp, its chains are distinct without white space, and no two different valid records have one
id; of requests with a chain that is stale without a window, or absent for too long, nothing is
said.

**Proof sketch.** The records are all kept when no two of one id differ. Of each chain the cell is
accepted (`cellFits_chainStatusFrom`), and so is the scope of these cells. -/
theorem deriveComparisonScopeFrom_isSome_iff
    (hrequest : AcceptsRequest canonicalProductId expectedChainIds context)
    (hstale : ∀ chainId ∈ expectedChainIds, ¬ StaleWithoutWindow (trim canonicalProductId)
      canonicalProductId chainId context priceEvidence coverageChecks)
    (habsent : ∀ chainId ∈ expectedChainIds, ¬ AbsentForTooLong (trim canonicalProductId)
      canonicalProductId chainId context priceEvidence coverageChecks) :
    (∃ scope, deriveComparisonScopeFrom canonicalProductId expectedChainIds priceEvidence
        coverageChecks context = some scope ∧ ComparisonScopeSchema scope) ↔
      CanonicalTimestamp context.now ∧ (expectedChainIds.map trim).Nodup ∧
        AgreeById (·.id) (priceEvidence.filter fun e => PriceEvidenceSchema e) ∧
        AgreeById (·.id) (coverageChecks.filter fun check => CoverageCheckSchema check) := by
  have hids : ∀ evidence checks,
      1 ≤ (expectedChainIds.map fun chainId => (⟨chainId, chainStatusFrom (trim canonicalProductId)
          canonicalProductId chainId evidence checks context⟩ : ScopeEntry)).length ∧
        ∀ cell ∈ expectedChainIds.map fun chainId => (⟨chainId, chainStatusFrom
          (trim canonicalProductId) canonicalProductId chainId evidence checks context⟩ : ScopeEntry),
            IdentifierSchema (trim cell.chainId) := by
    intro evidence checks
    refine ⟨by simpa using hrequest.length.1, fun cell hcell => ?_⟩
    obtain ⟨chainId, hchain, rfl⟩ := List.mem_map.mp hcell
    exact hrequest.expectedChainIds chainId hchain
  unfold deriveComparisonScopeFrom
  rw [if_neg (not_not.mpr hrequest)]
  constructor
  · rintro ⟨scope, hscope, -⟩
    split at hscope
    next evidence checks hevidence hchecks =>
      obtain ⟨hschema, -⟩ := Option.ite_none_right_eq_some.mp hscope
      obtain ⟨hnow, hunique, -⟩ := (comparisonScopeSchema_parsedScope (hids evidence checks)).mp hschema
      rw [List.map_map] at hunique
      exact ⟨hnow, hunique, agreeById_of_dedupeStrictById hevidence,
        agreeById_of_dedupeStrictById hchecks⟩
    next => cases hscope
  · rintro ⟨hnow, hunique, hevidence, hchecks⟩
    obtain ⟨evidence, hkept⟩ := exists_dedupeStrictById hevidence
    obtain ⟨checks, hkeptChecks⟩ := exists_dedupeStrictById hchecks
    have hschema := (comparisonScopeSchema_parsedScope (hids evidence checks)).mpr
      ⟨hnow, by rw [List.map_map]; exact hunique, fun cell hcell => by
        obtain ⟨chainId, hchain, rfl⟩ := List.mem_map.mp hcell
        refine cellFits_chainStatusFrom (fun e => ?_) (fun check => ?_) hnow (hstale chainId hchain)
          (habsent chainId hchain)
        · rw [(dedupeStrictById_eq_some hkept).2, List.mem_filter, decide_eq_true_iff]
        · rw [(dedupeStrictById_eq_some hkeptChecks).2, List.mem_filter, decide_eq_true_iff]⟩
    rw [hkept, hkeptChecks]
    dsimp only
    rw [if_pos hschema]
    exact ⟨_, rfl, hschema⟩

/-! ### Examples -/

/-- A price of a product at a chain. -/
def priceAt (id : JsString) (amountOre : ℕ) (observedAt : ℤ) : PriceEvidence where
  id := id
  sourceId := js "source"
  sourceRecordId := id
  chainId := js "chain"
  productMatch := .exact (js "product")
  amountOre := amountOre
  priceKind := .ordinary
  evidenceLevel := .observed
  observedAt := observedAt
  validFrom := none
  validUntil := none
  geographicScope := .national (js "NO")

/-- A check that a chain does not carry a product. -/
def absenceAt (chainId : JsString) (checkedAt : ℤ) : CoverageCheck where
  id := js "check"
  sourceId := js "source"
  canonicalProductId := js "product"
  chainId := chainId
  state := .knownNotCarried
  checkedAt := checkedAt
  geographicScope := .national (js "NO")

/-- A context in the whole country, ten days after the first timestamp. -/
def nationwide (maxAgeMs : ℕ) : PriceEvidenceEligibilityContext where
  now := 10 * 24 * 60 * 60 * 1000
  maxAgeMs := maxAgeMs
  location := ⟨js "NO", none, none, none⟩
  enabledSourceIds := [js "source"]
  geographicDirectory := none

/-- A chain with a price of ten days before, and one that does not carry the product by a check of
the day before. -/
theorem deriveComparisonScopeFrom_isSome_absent :
    ∃ scope, deriveComparisonScopeFrom (js "product") [js "chain", js "other"]
      [priceAt (js "price") 100 0] [absenceAt (js "other") (9 * 24 * 60 * 60 * 1000)]
      (nationwide (24 * 60 * 60 * 1000)) = some scope ∧ ComparisonScopeSchema scope := by
  refine (deriveComparisonScopeFrom_isSome_iff (by decide +kernel) ?_ ?_).mpr (by decide +kernel)
  · rintro chainId - ⟨hzero, -⟩
    exact absurd hzero (by decide)
  · rintro chainId - ⟨-, ⟨check, hselected, hold⟩, -⟩
    obtain rfl := List.mem_singleton.mp (List.mem_of_mem_filter hselected.mem)
    exact absurd hold (by decide)

/-- No scope is derived where two prices of one id differ, where a price is stale at the maximum age
0, where a product has not been carried for nine days, and where two chains differ in white
space. -/
theorem not_deriveComparisonScopeFrom_total :
    (∃ evidence context, AcceptsRequest (js "product") [js "chain"] context ∧
      (∀ e ∈ evidence, PriceEvidenceSchema e) ∧
        deriveComparisonScopeFrom (js "product") [js "chain"] evidence [] context = none) ∧
    (∃ e context, AcceptsRequest (js "product") [js "chain"] context ∧ PriceEvidenceSchema e ∧
      deriveComparisonScopeFrom (js "product") [js "chain"] [e] [] context = none) ∧
    (∃ check context, AcceptsRequest (js "product") [js "chain"] context ∧
      CoverageCheckSchema check ∧
        deriveComparisonScopeFrom (js "product") [js "chain"] [] [check] context = none) ∧
    ∃ chainIds context, AcceptsRequest (js "product") chainIds context ∧
      deriveComparisonScopeFrom (js "product") chainIds [] [] context = none := by
  refine ⟨⟨[priceAt (js "price") 100 0, priceAt (js "price") 200 0], nationwide 1, ?_⟩,
    ⟨priceAt (js "price") 100 0, nationwide 0, ?_⟩,
    ⟨absenceAt (js "chain") (24 * 60 * 60 * 1000), nationwide (10 * 24 * 60 * 60 * 1000), ?_⟩,
    ⟨[js "chain", js " chain"], nationwide 1, ?_⟩⟩
  all_goals decide +kernel

end Scope

end Handleplan
