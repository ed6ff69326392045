import Handleplan.Domain.Coverage
import Mathlib.Data.Finset.Card

/-!
# What a derived comparison scope says

A chain is priced when the newest eligible prices of the most specific scope agree, and known not to
carry a product when there is no eligible price and the newest checks of the most specific scope say
so. The order in which prices and checks are listed does not matter.

## Main definitions

* `IsSelected` — an entry of the most specific scope, and the newest of these.
* `CellIsSound` — what the status of a chain says.

## Main results

* `isSelected_iff` — what is selected is as specific and as new as the first entry.
* `chainStatusFrom_eq_of_perm` — a status does not depend on the order of the lists.
* `deriveComparisonScope_isSound` — a derived scope does not depend on the order of the
  lists, says this of each chain, and is complete when each chain is priced or known not to carry
  the product.
-/

namespace Handleplan

open JsString Sorting

/-! ### The most specific and newest entries -/

section Selection

variable {α : Type}

/-- **An entry is selected**: no other one has a more specific scope, and none that is as specific
is newer. -/
@[mk_iff isSelected_iff_mem] structure IsSelected (scopeOf : α → GeographicScope) (clockOf : α → ℤ)
    (context : PriceEvidenceEligibilityContext) (l : List α) (a : α) : Prop where
  mem : a ∈ l
  specific : ∀ b ∈ l, ∀ m ∈ specificityIn (scopeOf b) context,
    ∃ n ∈ specificityIn (scopeOf a) context, m ≤ n
  newest : ∀ b ∈ l, specificityIn (scopeOf b) context = specificityIn (scopeOf a) context →
    clockOf b ≤ clockOf a

/-- The most specific first, then the newest, then by another comparison. -/
def compareSelection (scopeOf : α → GeographicScope) (clockOf : α → ℤ)
    (context : PriceEvidenceEligibilityContext) (rest : α → α → Ordering) : α → α → Ordering :=
  compareLex (descending (compareOn fun a => specificityIn (scopeOf a) context)) <|
    compareLex (descending (compareOn clockOf)) rest

variable {scopeOf : α → GeographicScope} {clockOf : α → ℤ}
  {context : PriceEvidenceEligibilityContext} {rest : α → α → Ordering} {l : List α} {a first : α}

theorem le_of_isLE_compare {x y : Option ℕ} (h : (compare x y).isLE = true) :
    ∀ m ∈ x, ∃ n ∈ y, m ≤ n := by
  intro m hm
  obtain rfl := hm
  cases y with
  | none => cases h
  | some n => exact ⟨n, rfl, Nat.isLE_compare.mp h⟩

instance [Std.TransCmp rest] : Std.TransCmp (compareSelection scopeOf clockOf context rest) :=
  inferInstanceAs (Std.TransCmp (compareLex (descending (compareOn fun a =>
    specificityIn (scopeOf a) context)) (compareLex (descending (compareOn clockOf)) rest)))

/-- The first entry is selected. -/
theorem isSelected_head [Std.TransCmp rest]
    (h : (sortBy (compareSelection scopeOf clockOf context rest) l).head? = some first) :
    IsSelected scopeOf clockOf context l first := by
  have hle : ∀ b ∈ l, (compareSelection scopeOf clockOf context rest first b).isLE = true :=
    fun b hb => least_isLE h hb
  refine ⟨least_mem h, fun b hb => ?_, fun b hb heq => ?_⟩
  · have hfirst : (descending (compareOn fun a => specificityIn (scopeOf a) context)
        first b).isLE = true := isLE_left_of_compareLex (hle b hb)
    exact le_of_isLE_compare hfirst
  · have hsame : descending (compareOn fun a => specificityIn (scopeOf a) context) first b = .eq := by
      simp [descending, compareOn, heq]
    have hclock := isLE_left_of_compareLex (isLE_right_of_compareLex (hle b hb) hsame)
    exact Std.isLE_compare.mp hclock

theorem isSelected_congr {l l' : List α} (h : ∀ a, a ∈ l ↔ a ∈ l') :
    IsSelected scopeOf clockOf context l a ↔ IsSelected scopeOf clockOf context l' a := by
  simp only [isSelected_iff_mem, h]

/-- The first entry is selected from the sorted list. -/
theorem isSelected_head_sortBy [Std.TransCmp rest] {cmp : α → α → Ordering}
    (hcmp : cmp = compareSelection scopeOf clockOf context rest)
    (h : (sortBy cmp l).head? = some first) :
    IsSelected scopeOf clockOf context (sortBy cmp l) first := by
  subst hcmp
  exact (isSelected_congr fun _ => mem_sortBy).mpr (isSelected_head h)

/-- **What is selected** is as specific and as new as the first entry. -/
theorem isSelected_iff (h : IsSelected scopeOf clockOf context l first) :
    IsSelected scopeOf clockOf context l a ↔ a ∈ l ∧ clockOf a = clockOf first ∧
      specificityIn (scopeOf a) context = specificityIn (scopeOf first) context := by
  constructor
  · intro ha
    have hspecific :
        specificityIn (scopeOf a) context = specificityIn (scopeOf first) context := by
      refine Option.ext fun n => ⟨fun hn => ?_, fun hn => ?_⟩
      · obtain ⟨m, hm, hle⟩ := h.specific a ha.mem n hn
        obtain ⟨n', hn', hle'⟩ := ha.specific first h.mem m hm
        obtain rfl := Option.some.inj (hn.symm.trans hn')
        exact le_antisymm hle hle' ▸ hm
      · obtain ⟨m, hm, hle⟩ := ha.specific first h.mem n hn
        obtain ⟨n', hn', hle'⟩ := h.specific a ha.mem m hm
        obtain rfl := Option.some.inj (hn.symm.trans hn')
        exact le_antisymm hle hle' ▸ hm
    exact ⟨ha.mem, le_antisymm (h.newest a ha.mem hspecific) (ha.newest first h.mem hspecific.symm),
      hspecific⟩
  · rintro ⟨hmem, hclock, hspecific⟩
    refine ⟨hmem, ?_, ?_⟩
    · rw [hspecific]
      exact h.specific
    · rw [hspecific, hclock]
      exact h.newest

/-- What is selected does not all have the same value. -/
theorem one_lt_length_dedup_iff {β : Type} [DecidableEq β]
    (h : IsSelected scopeOf clockOf context l first) (f : α → β) :
    1 < (((l.filter fun a => clockOf a = clockOf first ∧
      specificityIn (scopeOf a) context = specificityIn (scopeOf first) context).map f).dedup).length ↔
      ∃ a b, IsSelected scopeOf clockOf context l a ∧ IsSelected scopeOf clockOf context l b ∧
        f a ≠ f b := by
  rw [← List.card_toFinset, Finset.one_lt_card]
  simp only [List.mem_toFinset, List.mem_map, List.mem_filter, decide_eq_true_iff,
    isSelected_iff h]
  constructor
  · rintro ⟨_, ⟨a, ha, rfl⟩, _, ⟨b, hb, rfl⟩, hne⟩
    exact ⟨a, b, ha, hb, hne⟩
  · rintro ⟨a, b, ha, hb, hne⟩
    exact ⟨f a, ⟨a, ha, rfl⟩, f b, ⟨b, hb, rfl⟩, hne⟩

end Selection

/-! ### The order of the lists -/

section Order

variable {product canonicalProductId chainId : JsString} {context : PriceEvidenceEligibilityContext}

theorem compareEligibleEvidence_eq : compareEligibleEvidence context =
    compareSelection (·.geographicScope) (·.observedAt) context
      (compareLex (compareOn (·.amountOre)) (on (·.id) compareText)) := rfl

theorem compareCoverageChecks_eq : compareCoverageChecks context =
    compareSelection (·.geographicScope) (·.checkedAt) context
      (compareLex (compareOn (·.state.rank)) (on (·.id) compareText)) := rfl

instance : Std.TransCmp (compareEligibleEvidence context) :=
  compareEligibleEvidence_eq ▸ inferInstance

instance : Std.TransCmp (compareCoverageChecks context) :=
  compareCoverageChecks_eq ▸ inferInstance

instance : Std.TransCmp (compareUnresolvedEvidence context) :=
  inferInstanceAs (Std.TransCmp (compareLex _ (compareLex (descending (compareOn _)) _)))

theorem id_eq_of_compareEligibleEvidence {a b : PriceEvidence}
    (h : compareEligibleEvidence context a b = .eq) : a.id = b.id := by
  obtain ⟨-, h⟩ := compareLex_eq_iff.mp h
  obtain ⟨-, h⟩ := compareLex_eq_iff.mp h
  obtain ⟨-, h⟩ := compareLex_eq_iff.mp h
  exact on_eq_iff.mp h

theorem id_eq_of_compareCoverageChecks {a b : CoverageCheck}
    (h : compareCoverageChecks context a b = .eq) : a.id = b.id := by
  obtain ⟨-, h⟩ := compareLex_eq_iff.mp h
  obtain ⟨-, h⟩ := compareLex_eq_iff.mp h
  obtain ⟨-, h⟩ := compareLex_eq_iff.mp h
  exact on_eq_iff.mp h

theorem id_eq_of_compareUnresolvedEvidence {a b : PriceEvidence}
    (h : compareUnresolvedEvidence context a b = .eq) : a.id = b.id := by
  obtain ⟨-, h⟩ := compareLex_eq_iff.mp h
  obtain ⟨-, h⟩ := compareLex_eq_iff.mp h
  exact on_eq_iff.mp h

variable {evidence evidence' : List PriceEvidence} {checks checks' : List CoverageCheck}

/-- The status of a chain without an eligible price does not depend on the order of the lists. -/
theorem unpricedStatus_eq_of_perm (hevidence : evidence.Perm evidence')
    (hids : (evidence.map fun e => e.id).Nodup) (hchecks : checks.Perm checks')
    (hcheckIds : (checks.map fun check => check.id).Nodup) :
    unpricedStatus canonicalProductId chainId evidence checks context =
      unpricedStatus canonicalProductId chainId evidence' checks' context := by
  have hleast : least (compareUnresolvedEvidence context) evidence =
      least (compareUnresolvedEvidence context) evidence' :=
    least_eq_of_perm hevidence fun a ha b hb heq =>
      List.inj_on_of_nodup_map hids ha hb (id_eq_of_compareUnresolvedEvidence heq)
  have hsorted : sortBy (compareCoverageChecks context) _ = sortBy (compareCoverageChecks context) _ :=
    sortBy_eq_of_perm (hchecks.filter fun check => decide (check.chainId = chainId ∧
      checkIsCurrentAndApplicable check canonicalProductId context)) ?_
  · simp only [unpricedStatus, hsorted, hleast]
  · intro a ha b hb heq
    exact List.inj_on_of_nodup_map hcheckIds (List.mem_of_mem_filter ha) (List.mem_of_mem_filter hb)
      (id_eq_of_compareCoverageChecks heq)

/-- **The status of a chain does not depend on the order of the lists**, of which the entries have
different ids. -/
theorem chainStatusFrom_eq_of_perm (hevidence : evidence.Perm evidence')
    (hids : (evidence.map fun e => e.id).Nodup) (hchecks : checks.Perm checks')
    (hcheckIds : (checks.map fun check => check.id).Nodup) :
    chainStatusFrom product canonicalProductId chainId evidence checks context =
      chainStatusFrom product canonicalProductId chainId evidence' checks' context := by
  have hcandidates := hevidence.filter fun candidate => decide (candidate.chainId = chainId ∧
    candidate.priceKind = .ordinary ∧ evidenceConcernsProduct candidate product)
  have hunpriced : unpricedStatus canonicalProductId chainId _ checks context =
      unpricedStatus canonicalProductId chainId _ checks' context :=
    unpricedStatus_eq_of_perm hcandidates (hids.sublist
      (List.filter_sublist.map fun e : PriceEvidence => e.id)) hchecks hcheckIds
  have hsorted : sortBy (compareEligibleEvidence context) _ =
      sortBy (compareEligibleEvidence context) _ :=
    sortBy_eq_of_perm (hcandidates.filter fun candidate => isEligible candidate context) ?_
  · simp only [chainStatusFrom, hsorted, hunpriced]
  · intro a ha b hb heq
    exact List.inj_on_of_nodup_map hids (List.mem_of_mem_filter (List.mem_of_mem_filter ha))
      (List.mem_of_mem_filter (List.mem_of_mem_filter hb)) (id_eq_of_compareEligibleEvidence heq)

end Order

/-! ### Records of one id -/

section Dedupe

variable {α : Type} [DecidableEq α] {id : α → JsString} {values values' kept : List α}

/-- What is kept has different ids, and all records are kept. -/
theorem dedupeStrictById_eq_some (h : dedupeStrictById id values = some kept) :
    (kept.map id).Nodup ∧ ∀ a, a ∈ kept ↔ a ∈ values := by
  unfold dedupeStrictById at h
  obtain ⟨hnone, heq⟩ := Option.ite_none_left_eq_some.mp h
  cases heq
  refine ⟨JsMap.nodup_map_values_ofFirstEntries_map id values, fun a => ?_⟩
  refine JsMap.mem_values_ofFirstEntries_map fun b hb c hc hid => ?_
  by_contra hne
  exact hnone ⟨b, hb, c, hc, hid, hne⟩

/-- Records in another order are kept in another order. -/
theorem dedupeStrictById_perm (h : values.Perm values') :
    (dedupeStrictById id values = none ∧ dedupeStrictById id values' = none) ∨
      ∃ kept kept', dedupeStrictById id values = some kept ∧
        dedupeStrictById id values' = some kept' ∧ kept.Perm kept' := by
  by_cases hdiffer : ∃ a ∈ values, ∃ b ∈ values, id a = id b ∧ a ≠ b
  · have hdiffer' : ∃ a ∈ values', ∃ b ∈ values', id a = id b ∧ a ≠ b := by
      obtain ⟨a, ha, b, hb, hab⟩ := hdiffer
      exact ⟨a, h.mem_iff.mp ha, b, h.mem_iff.mp hb, hab⟩
    exact .inl ⟨if_pos hdiffer, if_pos hdiffer'⟩
  · have hdiffer' : ¬ ∃ a ∈ values', ∃ b ∈ values', id a = id b ∧ a ≠ b := by
      rintro ⟨a, ha, b, hb, hab⟩
      exact hdiffer ⟨a, h.mem_iff.mpr ha, b, h.mem_iff.mpr hb, hab⟩
    have hkept : dedupeStrictById id values = some _ := if_neg hdiffer
    have hkept' : dedupeStrictById id values' = some _ := if_neg hdiffer'
    obtain ⟨hnodup, hmem⟩ := dedupeStrictById_eq_some hkept
    obtain ⟨hnodup', hmem'⟩ := dedupeStrictById_eq_some hkept'
    refine .inr ⟨_, _, hkept, hkept', ?_⟩
    refine (List.perm_ext_iff_of_nodup (List.Nodup.of_map id hnodup)
      (List.Nodup.of_map id hnodup')).mpr fun a => ?_
    rw [hmem, hmem', h.mem_iff]

end Dedupe

/-! ### What a status says -/

section Cells

variable (canonicalProductId chainId : JsString) (context : PriceEvidenceEligibilityContext)

/-- The eligible ordinary prices of a product at a chain. -/
def eligiblePrices (priceEvidence : List PriceEvidence) : List PriceEvidence :=
  priceEvidence.filter fun e => PriceEvidenceSchema e ∧ e.chainId = chainId ∧
    e.priceKind = .ordinary ∧ evidenceConcernsProduct e canonicalProductId ∧
      isEligible e context = true

/-- The current and applicable checks of a product at a chain. -/
def applicableChecks (coverageChecks : List CoverageCheck) : List CoverageCheck :=
  coverageChecks.filter fun check => CoverageCheckSchema check ∧ check.chainId = chainId ∧
    checkIsCurrentAndApplicable check canonicalProductId context

/-- A price is among the newest of the most specific scope. -/
abbrev IsSelectedPrice (priceEvidence : List PriceEvidence) : PriceEvidence → Prop :=
  IsSelected (·.geographicScope) (·.observedAt) context
    (eligiblePrices canonicalProductId chainId context priceEvidence)

/-- A check is among the newest of the most specific scope. -/
abbrev IsSelectedCheck (coverageChecks : List CoverageCheck) : CoverageCheck → Prop :=
  IsSelected (·.geographicScope) (·.checkedAt) context
    (applicableChecks canonicalProductId chainId context coverageChecks)

/-- There are eligible prices, and the selected ones agree on the amount. -/
def PricesAgree (priceEvidence : List PriceEvidence) : Prop :=
  (∃ e, IsSelectedPrice canonicalProductId chainId context priceEvidence e) ∧
    ∀ e e', IsSelectedPrice canonicalProductId chainId context priceEvidence e →
      IsSelectedPrice canonicalProductId chainId context priceEvidence e' →
        e.amountOre = e'.amountOre

/-- **What the status of a chain says**: it is priced when the selected prices agree, and then by
one of them; it is known not to carry the product only when there is no eligible price and all
selected checks say so. -/
structure CellIsSound (priceEvidence : List PriceEvidence) (coverageChecks : List CoverageCheck)
    (status : CoverageStatus) : Prop where
  priced : (∃ evidenceId, status = .priced evidenceId) ↔
    PricesAgree canonicalProductId chainId context priceEvidence
  named : ∀ evidenceId, status = .priced evidenceId →
    ∃ e, IsSelectedPrice canonicalProductId chainId context priceEvidence e ∧ e.id = evidenceId
  notCarried : ∀ sourceId checkedAt, status = .knownNotCarried sourceId checkedAt →
    eligiblePrices canonicalProductId chainId context priceEvidence = [] ∧
      (∃ check, IsSelectedCheck canonicalProductId chainId context coverageChecks check ∧
        check.sourceId = sourceId ∧ check.checkedAt = checkedAt) ∧
      ∀ check, IsSelectedCheck canonicalProductId chainId context coverageChecks check →
        check.state = .knownNotCarried

variable {canonicalProductId chainId context} {evidence priceEvidence : List PriceEvidence}
  {checks coverageChecks : List CoverageCheck}

/-- Evidence that is not eligible prices nothing. -/
theorem evidenceStatus_ne_priced {e : PriceEvidence} (h : isEligible e context = false)
    (evidenceId : JsString) : evidenceStatus e context ≠ .priced evidenceId := by
  unfold isEligible at h
  unfold evidenceStatus
  cases hparse : parseEligiblePriceEvidence e context with
  | ok parsed => rw [hparse] at h; cases h
  | error reason => cases reason <;> simp

theorem evidenceStatus_ne_knownNotCarried (e : PriceEvidence) (sourceId : JsString) (checkedAt : ℤ) :
    evidenceStatus e context ≠ .knownNotCarried sourceId checkedAt := by
  unfold evidenceStatus
  cases parseEligiblePriceEvidence e context with
  | ok parsed => simp
  | error reason => cases reason <;> simp

/-- The checks of a chain do not price it. -/
theorem unpricedStatus_ne_priced {candidates : List PriceEvidence}
    (h : ∀ e ∈ candidates, isEligible e context = false) (evidenceId : JsString) :
    unpricedStatus canonicalProductId chainId candidates checks context ≠ .priced evidenceId := by
  intro heq
  unfold unpricedStatus at heq
  dsimp only at heq
  split at heq
  · split_ifs at heq
    split at heq <;> cases heq
  · split at heq
    · cases heq
    · exact evidenceStatus_ne_priced (h _ (least_mem ‹_›)) evidenceId heq

/-- **A chain is known not to carry a product** when all selected checks say so. -/
theorem notCarried_of_unpricedStatus {candidates : List PriceEvidence} {sourceId : JsString}
    {checkedAt : ℤ}
    (hchecks : ∀ check, check ∈ checks ↔ check ∈ coverageChecks ∧ CoverageCheckSchema check)
    (h : unpricedStatus canonicalProductId chainId candidates checks context =
      .knownNotCarried sourceId checkedAt) :
    (∃ check, IsSelectedCheck canonicalProductId chainId context coverageChecks check ∧
      check.sourceId = sourceId ∧ check.checkedAt = checkedAt) ∧
      ∀ check, IsSelectedCheck canonicalProductId chainId context coverageChecks check →
        check.state = .knownNotCarried := by
  unfold unpricedStatus at h
  dsimp only at h
  split at h
  case h_2 =>
    split at h
    · cases h
    · exact absurd h (evidenceStatus_ne_knownNotCarried _ _ _)
  case h_1 selected hselected =>
    have hsame : ∀ check, check ∈ sortBy (compareCoverageChecks context)
          (checks.filter fun check => check.chainId = chainId ∧
            checkIsCurrentAndApplicable check canonicalProductId context) ↔
        check ∈ applicableChecks canonicalProductId chainId context coverageChecks := by
      intro check
      simp only [mem_sortBy, applicableChecks, List.mem_filter, hchecks, decide_eq_true_iff]
      tauto
    have hfirst := isSelected_head_sortBy compareCoverageChecks_eq hselected
    split_ifs at h with hdiffer
    have hagree := mt (one_lt_length_dedup_iff hfirst fun check => check.state).mpr hdiffer
    simp only [isSelected_congr hsame] at hagree hfirst
    split at h
    case h_2 => cases h
    case h_1 hstate =>
      obtain ⟨rfl, rfl⟩ := CoverageStatus.knownNotCarried.inj h
      refine ⟨⟨selected, hfirst, rfl, rfl⟩, fun check hcheck => ?_⟩
      by_contra hne
      exact hagree ⟨check, selected, hcheck, hfirst, by rwa [hstate]⟩

/-- **The status of a chain is sound**, when all prices and checks that meet their schemas are
considered.

**Proof sketch.** Where there are eligible prices, the first one in order is selected, and the chain
is priced unless the selected ones differ. Where there is none, no candidate is eligible, and the
status is by the checks. -/
theorem cellIsSound_chainStatus
    (hevidence : ∀ e, e ∈ evidence ↔ e ∈ priceEvidence ∧ PriceEvidenceSchema e)
    (hchecks : ∀ check, check ∈ checks ↔ check ∈ coverageChecks ∧ CoverageCheckSchema check) :
    CellIsSound canonicalProductId chainId context priceEvidence coverageChecks
      (chainStatus canonicalProductId chainId evidence checks context) := by
  have hsame : ∀ e, e ∈ sortBy (compareEligibleEvidence context)
        ((evidence.filter fun candidate => candidate.chainId = chainId ∧
          candidate.priceKind = .ordinary ∧
            evidenceConcernsProduct candidate canonicalProductId).filter
              fun candidate => isEligible candidate context) ↔
      e ∈ eligiblePrices canonicalProductId chainId context priceEvidence := by
    intro e
    simp only [mem_sortBy, eligiblePrices, List.mem_filter, hevidence, decide_eq_true_iff]
    tauto
  unfold chainStatus chainStatusFrom
  dsimp only
  split
  case h_2 hnone =>
    have hnil : eligiblePrices canonicalProductId chainId context priceEvidence = [] :=
      List.eq_nil_iff_forall_not_mem.mpr fun e he => by
        rw [← hsame, List.head?_eq_none_iff.mp hnone] at he
        cases he
    have hnot : ∀ e ∈ evidence.filter fun candidate => candidate.chainId = chainId ∧
        candidate.priceKind = .ordinary ∧ evidenceConcernsProduct candidate canonicalProductId,
          isEligible e context = false := by
      intro e he
      by_contra heligible
      have hmem := (hsame e).mp (mem_sortBy.mpr (List.mem_filter.mpr
        ⟨he, Bool.eq_true_of_not_eq_false heligible⟩))
      rw [hnil] at hmem
      cases hmem
    refine ⟨⟨?_, ?_⟩, ?_, ?_⟩
    · rintro ⟨evidenceId, heq⟩
      exact absurd heq (unpricedStatus_ne_priced hnot evidenceId)
    · rintro ⟨⟨e, he⟩, -⟩
      have hmem := he.mem
      rw [hnil] at hmem
      cases hmem
    · intro evidenceId heq
      exact absurd heq (unpricedStatus_ne_priced hnot evidenceId)
    · intro sourceId checkedAt heq
      exact ⟨hnil, notCarried_of_unpricedStatus hchecks heq⟩
  case h_1 first hsome =>
    have hfirst := isSelected_head_sortBy compareEligibleEvidence_eq hsome
    have hdiffer := one_lt_length_dedup_iff hfirst fun e => e.amountOre
    simp only [isSelected_congr hsame] at hdiffer hfirst
    split_ifs with hif
    · obtain ⟨e, e', he, he', hne⟩ := hdiffer.mp hif
      refine ⟨⟨?_, ?_⟩, ?_, ?_⟩
      · rintro ⟨evidenceId, heq⟩
        cases heq
      · rintro ⟨-, hagree⟩
        exact absurd (hagree e e' he he') hne
      · rintro evidenceId heq
        cases heq
      · rintro sourceId checkedAt heq
        cases heq
    · refine ⟨⟨fun _ => ⟨⟨first, hfirst⟩, fun e e' he he' => ?_⟩, fun _ => ⟨first.id, rfl⟩⟩, ?_, ?_⟩
      · by_contra hne
        exact hif (hdiffer.mpr ⟨e, e', he, he', hne⟩)
      · intro evidenceId heq
        exact ⟨first, hfirst, CoverageStatus.priced.inj heq⟩
      · rintro sourceId checkedAt heq
        cases heq

end Cells

/-! ### The scope -/

section Scope

variable {canonicalProductId : JsString} {expectedChainIds : List JsString}
  {priceEvidence priceEvidence' : List PriceEvidence}
  {coverageChecks coverageChecks' : List CoverageCheck} {context : PriceEvidenceEligibilityContext}

/-- **A derived scope does not depend on the order** in which prices and checks are listed. -/
theorem deriveComparisonScope_eq_of_perm (hevidence : priceEvidence.Perm priceEvidence')
    (hchecks : coverageChecks.Perm coverageChecks') :
    deriveComparisonScope canonicalProductId expectedChainIds priceEvidence coverageChecks context =
      deriveComparisonScope canonicalProductId expectedChainIds priceEvidence' coverageChecks'
        context := by
  unfold deriveComparisonScope deriveComparisonScopeFrom
  refine if_congr Iff.rfl rfl (if_congr Iff.rfl rfl ?_)
  obtain ⟨hnone, hnone'⟩ | ⟨evidence, evidence', hkept, hkept', hperm⟩ :=
    dedupeStrictById_perm (hevidence.filter fun e => PriceEvidenceSchema e)
  · rw [hnone, hnone']
  obtain ⟨hnone, hnone'⟩ | ⟨checks, checks', hkeptChecks, hkeptChecks', hpermChecks⟩ :=
    dedupeStrictById_perm (hchecks.filter fun check => CoverageCheckSchema check)
  · rw [hnone, hnone', hkept, hkept']
  have hstatus : ∀ product chainId,
      chainStatusFrom product canonicalProductId chainId evidence checks context =
        chainStatusFrom product canonicalProductId chainId evidence' checks' context :=
    fun _ _ => chainStatusFrom_eq_of_perm hperm (dedupeStrictById_eq_some hkept).1 hpermChecks
      (dedupeStrictById_eq_some hkeptChecks).1
  rw [hkept, hkept', hkeptChecks, hkeptChecks']
  simp only [hstatus]

/-- A status that is resolved is a price, or that the product is not carried. -/
theorem isResolved_iff {status : CoverageStatus} : status.isResolved = true ↔
    (∃ evidenceId, status = .priced evidenceId) ∨
      ∃ sourceId checkedAt, status = .knownNotCarried sourceId checkedAt := by
  cases status <;> simp [CoverageStatus.isResolved]

/-- **A derived scope is sound**: it does not depend on the order in which prices and checks are
listed, each status says what it should, and the scope is complete when each chain is priced or
known not to carry the product. -/
theorem deriveComparisonScope_isSound (canonicalProductId : JsString)
    (expectedChainIds : List JsString) (priceEvidence : List PriceEvidence)
    (coverageChecks : List CoverageCheck) (context : PriceEvidenceEligibilityContext) :
    (∀ priceEvidence' coverageChecks', priceEvidence.Perm priceEvidence' →
      coverageChecks.Perm coverageChecks' →
        deriveComparisonScope canonicalProductId expectedChainIds priceEvidence coverageChecks
          context = deriveComparisonScope canonicalProductId expectedChainIds priceEvidence'
            coverageChecks' context) ∧
    ∀ scope, deriveComparisonScope canonicalProductId expectedChainIds priceEvidence coverageChecks
      context = some scope →
        scope.entries.map (fun entry => entry.chainId) = expectedChainIds ∧
        (∀ entry ∈ scope.entries, CellIsSound canonicalProductId entry.chainId context priceEvidence
          coverageChecks entry.status) ∧
        (scope.completeness = .complete ↔ ∀ entry ∈ scope.entries,
          (∃ evidenceId, entry.status = .priced evidenceId) ∨
            ∃ sourceId checkedAt, entry.status = .knownNotCarried sourceId checkedAt) := by
  refine ⟨fun _ _ => deriveComparisonScope_eq_of_perm, fun scope h => ?_⟩
  obtain ⟨-, evidence, checks, hevidence, hchecks, -, -, hentries, hcompleteness⟩ :=
    eq_of_deriveComparisonScope h
  have hevidence : ∀ e, e ∈ evidence ↔ e ∈ priceEvidence ∧ PriceEvidenceSchema e := by
    intro e
    rw [(dedupeStrictById_eq_some hevidence).2, List.mem_filter, decide_eq_true_iff]
  have hchecks : ∀ check, check ∈ checks ↔ check ∈ coverageChecks ∧ CoverageCheckSchema check := by
    intro check
    rw [(dedupeStrictById_eq_some hchecks).2, List.mem_filter, decide_eq_true_iff]
  refine ⟨?_, fun entry hentry => ?_, ?_⟩
  · rw [hentries, List.map_map]
    exact List.map_id _
  · rw [hentries] at hentry
    obtain ⟨chainId, -, rfl⟩ := List.mem_map.mp hentry
    exact cellIsSound_chainStatus hevidence hchecks
  · rw [hcompleteness]
    simp only [← isResolved_iff, ← List.all_eq_true]
    split_ifs with hall <;> simp [hall]

end Scope

end Handleplan
