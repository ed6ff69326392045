import Handleplan.Domain.CoverageTotal
import Handleplan.Domain.History

/-!
# What a historical comparison is derived from

A comparison is that of the current price with all observations of its baseline, listed by instant
and then by identifier. A locale may take two identifiers for equal, and then observations of one
instant are listed as they were given.

## Main definitions

* `InBaseline` — the observations of the baseline of a current price.
* `SeparatesBaseline` — the locale tells the observations of one instant apart.
* `ComparisonIsBound` — what a derived comparison has to do with the evidence.

## Main results

* `deriveHistoricalComparison_eq_of_same` — only the baseline matters, in any order.
* `usesBaseline_of_derive` — the identifiers and the median are those of the baseline.
* `comparisonIsBound_of_derive` — a comparison is verified with its evidence in any
  order, and with what it cites only, and with no other baseline.
-/

namespace Handleplan

open JsString Sorting

variable {host : Host} {current : PriceEvidence} {eligibility : HistoricalEligibility}
  {comparisonId : JsString} {derivedAt : ℤ} {historicalEvidence historicalEvidence' : List PriceEvidence}
  {comparison : HistoricalComparison}

/-! ### The baseline -/

/-- A valid observation is of the baseline of a current price. -/
def InBaseline (current : PriceEvidence) (eligibility : HistoricalEligibility) (e : PriceEvidence) :
    Prop :=
  PriceEvidenceSchema e ∧ ∃ canonicalProductId ∈ current.productMatch.exactProductId,
    IsBaseline current canonicalProductId eligibility e

instance (current : PriceEvidence) (eligibility : HistoricalEligibility) :
    DecidablePred (InBaseline current eligibility) :=
  fun _ => inferInstanceAs (Decidable (_ ∧ ∃ _ ∈ _, _))

/-- The runtime tells the observations of one instant apart. -/
def SeparatesBaseline (host : Host) (current : PriceEvidence) (eligibility : HistoricalEligibility)
    (historicalEvidence : List PriceEvidence) : Prop :=
  ∀ e ∈ historicalEvidence, ∀ e' ∈ historicalEvidence, InBaseline current eligibility e →
    InBaseline current eligibility e' → e.observedAt = e'.observedAt →
      host.localeCompare e.id e'.id = .eq → e.id = e'.id

/-- What is considered: the current price, and the valid observations. -/
def considered (current : PriceEvidence) (historicalEvidence : List PriceEvidence) :
    List PriceEvidence :=
  current :: historicalEvidence.filter fun e => PriceEvidenceSchema e

/-- The checks of a derivation that do not look at the observations. -/
@[mk_iff] structure AcceptsCurrent (comparisonId : JsString) (current : PriceEvidence) (derivedAt : ℤ)
    (eligibility : HistoricalEligibility) : Prop where
  comparisonId : IdentifierSchema comparisonId
  schema : PriceEvidenceSchema current
  maxAgeMs : (eligibility.currentMaxAgeMs : ℤ) ≤ maxCurrentEvidenceAgeMs
  eligible : isEligible current (eligibility.context derivedAt eligibility.currentMaxAgeMs) = true
  ordinary : current.priceKind = .ordinary
  unambiguous : current.evidenceLevel ≠ .ambiguous
  observed : current.observedAt ≤ derivedAt

/-- **A derivation, by its checks.** -/
theorem deriveHistoricalComparison_eq_some_iff :
    deriveHistoricalComparison host comparisonId current historicalEvidence derivedAt eligibility =
        some comparison ↔
      AcceptsCurrent comparisonId current derivedAt eligibility ∧
        ∃ canonicalProductId kept, current.productMatch.exactProductId = some canonicalProductId ∧
          dedupeStrictById (·.id) (considered current historicalEvidence) = some kept ∧
          comparisonWithBaseline comparisonId current canonicalProductId
            (sortBy (compareEvidenceOrder host)
              (kept.filter fun e => IsBaseline current canonicalProductId eligibility e))
            derivedAt = some comparison := by
  unfold deriveHistoricalComparison
  simp only [Option.ite_none_left_eq_some, acceptsCurrent_iff, not_or, not_not, not_lt,
    Bool.not_eq_false, ne_eq, and_assoc]
  refine and_congr_right fun _ => and_congr_right fun _ => and_congr_right fun _ =>
    and_congr_right fun _ => and_congr_right fun _ => and_congr_right fun _ => and_congr_right fun _ => ?_
  constructor
  · intro h
    split at h
    next canonicalProductId kept hproduct hkept => exact ⟨_, _, hproduct, hkept, h⟩
    next => cases h
  · rintro ⟨canonicalProductId, kept, hproduct, hkept, h⟩
    rw [hproduct, show dedupeStrictById (·.id) (current :: _) = some kept from hkept]
    exact h

/-- The baseline that is kept is that of the observations: the current price is none of it. -/
theorem mem_baseline {canonicalProductId : JsString} {kept : List PriceEvidence}
    (hproduct : current.productMatch.exactProductId = some canonicalProductId)
    (hkept : dedupeStrictById (·.id) (considered current historicalEvidence) = some kept)
    {e : PriceEvidence} :
    e ∈ kept.filter (fun e => IsBaseline current canonicalProductId eligibility e) ↔
      e ∈ historicalEvidence ∧ InBaseline current eligibility e := by
  rw [List.mem_filter, decide_eq_true_iff, (dedupeStrictById_eq_some hkept).2, considered,
    List.mem_cons, List.mem_filter, decide_eq_true_iff]
  unfold InBaseline
  rw [hproduct]
  constructor
  · rintro ⟨rfl | ⟨hmem, hschema⟩, hbaseline⟩
    · exact absurd rfl hbaseline.1
    · exact ⟨hmem, hschema, canonicalProductId, rfl, hbaseline⟩
  · rintro ⟨hmem, hschema, canonicalProductId', hproduct', hbaseline⟩
    cases hproduct'
    exact ⟨.inr ⟨hmem, hschema⟩, hbaseline⟩

theorem compareEvidenceOrder_eq_iff {a b : PriceEvidence} :
    compareEvidenceOrder host a b = .eq ↔
      a.observedAt = b.observedAt ∧ host.localeCompare a.id b.id = .eq := by
  unfold compareEvidenceOrder
  rw [compareLex_eq_iff]
  exact and_congr_left' compare_eq_iff_eq

instance [Std.TransCmp host.localeCompare] : Std.TransCmp (compareEvidenceOrder host) :=
  inferInstanceAs (Std.TransCmp (compareLex (compareOn _) (on _ host.localeCompare)))

/-- **Only the baseline matters**, in any order, when no records conflict. -/
theorem deriveHistoricalComparison_eq_of_same [Std.TransCmp host.localeCompare]
    (hagree : AgreeById (·.id) (considered current historicalEvidence))
    (hagree' : AgreeById (·.id) (considered current historicalEvidence'))
    (hsame : ∀ e, InBaseline current eligibility e →
      (e ∈ historicalEvidence ↔ e ∈ historicalEvidence'))
    (hseparates : SeparatesBaseline host current eligibility historicalEvidence) :
    deriveHistoricalComparison host comparisonId current historicalEvidence derivedAt eligibility =
      deriveHistoricalComparison host comparisonId current historicalEvidence' derivedAt
        eligibility := by
  obtain ⟨kept, hkept⟩ := exists_dedupeStrictById hagree
  obtain ⟨kept', hkept'⟩ := exists_dedupeStrictById hagree'
  refine Option.ext fun comparison => ?_
  rw [deriveHistoricalComparison_eq_some_iff, deriveHistoricalComparison_eq_some_iff]
  refine and_congr_right fun _ => exists_congr fun canonicalProductId => ?_
  simp only [hkept, hkept', Option.some.injEq, exists_and_left, exists_eq_left']
  refine and_congr_right fun hproduct => ?_
  have hperm : (kept.filter fun e => IsBaseline current canonicalProductId eligibility e).Perm
      (kept'.filter fun e => IsBaseline current canonicalProductId eligibility e) := by
    refine (List.perm_ext_iff_of_nodup ?_ ?_).mpr fun e => ?_
    · exact (List.Nodup.of_map _ (dedupeStrictById_eq_some hkept).1).filter _
    · exact (List.Nodup.of_map _ (dedupeStrictById_eq_some hkept').1).filter _
    · rw [mem_baseline hproduct hkept, mem_baseline hproduct hkept']
      exact and_congr_left fun hbaseline => hsame e hbaseline
  rw [sortBy_eq_of_perm hperm]
  -- The order separates the observations, of which no two have one id.
  intro a ha b hb heq
  obtain ⟨ha', hbaseline⟩ := (mem_baseline hproduct hkept).mp ha
  obtain ⟨hb', hbaseline'⟩ := (mem_baseline hproduct hkept).mp hb
  obtain ⟨hinstant, hlocale⟩ := compareEvidenceOrder_eq_iff.mp heq
  exact hagree a (List.mem_cons_of_mem _ (List.mem_filter.mpr ⟨ha', decide_eq_true hbaseline.1⟩)) b
    (List.mem_cons_of_mem _ (List.mem_filter.mpr ⟨hb', decide_eq_true hbaseline'.1⟩))
    (hseparates a ha' b hb' hbaseline hbaseline' hinstant hlocale)

/-- Records in another order conflict in the same way. -/
theorem deriveHistoricalComparison_eq_of_perm [Std.TransCmp host.localeCompare]
    (hperm : historicalEvidence.Perm historicalEvidence')
    (hseparates : SeparatesBaseline host current eligibility historicalEvidence) :
    deriveHistoricalComparison host comparisonId current historicalEvidence derivedAt eligibility =
      deriveHistoricalComparison host comparisonId current historicalEvidence' derivedAt
        eligibility := by
  have hmem : ∀ e, e ∈ considered current historicalEvidence ↔
      e ∈ considered current historicalEvidence' :=
    fun e => ((hperm.filter _).cons current).mem_iff
  by_cases hagree : AgreeById (·.id) (considered current historicalEvidence)
  · refine deriveHistoricalComparison_eq_of_same hagree ?_ (fun e _ => hperm.mem_iff) hseparates
    exact fun a ha b hb => hagree a ((hmem a).mpr ha) b ((hmem b).mpr hb)
  · have hagree' : ¬ AgreeById (·.id) (considered current historicalEvidence') := fun h =>
      hagree fun a ha b hb => h a ((hmem a).mp ha) b ((hmem b).mp hb)
    refine Option.ext fun comparison => ?_
    rw [deriveHistoricalComparison_eq_some_iff, deriveHistoricalComparison_eq_some_iff]
    constructor
    · rintro ⟨-, -, kept, -, hkept, -⟩
      exact absurd (agreeById_of_dedupeStrictById hkept) hagree
    · rintro ⟨-, -, kept, -, hkept, -⟩
      exact absurd (agreeById_of_dedupeStrictById hkept) hagree'

/-! ### What a comparison reports -/

/-- **A comparison is that of all observations of the baseline**: it cites each once, and its
baseline is the median of their amounts. -/
def UsesBaseline (current : PriceEvidence) (eligibility : HistoricalEligibility)
    (historicalEvidence : List PriceEvidence) (comparison : HistoricalComparison) : Prop :=
  ∃ baseline : List PriceEvidence, (baseline.map (·.id)).Nodup ∧
    (∀ e, e ∈ baseline ↔ e ∈ historicalEvidence ∧ InBaseline current eligibility e) ∧
    comparison.sourceEvidenceIds = baseline.map (·.id) ∧
    medianOre (baseline.map (·.amountOre)) = some comparison.baselineOre

/-- A comparison with a baseline cites it, and meets its schema. -/
theorem comparisonWithBaseline_eq_some {canonicalProductId : JsString} {baseline : List PriceEvidence}
    (h : comparisonWithBaseline comparisonId current canonicalProductId baseline derivedAt =
      some comparison) :
    HistoricalComparisonSchema comparison ∧ comparison.id = comparisonId ∧
      comparison.sourceEvidenceIds = baseline.map (·.id) ∧
      medianOre (baseline.map (·.amountOre)) = some comparison.baselineOre := by
  unfold comparisonWithBaseline at h
  dsimp only at h
  obtain ⟨-, h⟩ := Option.ite_none_left_eq_some.mp h
  obtain ⟨hmedian, h⟩ := Option.ite_none_left_eq_some.mp h
  obtain ⟨hschema, h⟩ := Option.ite_none_right_eq_some.mp h
  cases h
  refine ⟨hschema, rfl, rfl, ?_⟩
  cases hvalue : medianOre (baseline.map (·.amountOre)) with
  | none =>
    rw [hvalue] at hmedian
    exact absurd (.inl rfl) hmedian
  | some value => rfl

/-- What a derived comparison says. -/
theorem usesBaseline_of_derive
    (h : deriveHistoricalComparison host comparisonId current historicalEvidence derivedAt eligibility =
      some comparison) :
    HistoricalComparisonSchema comparison ∧ comparison.id = comparisonId ∧
      AgreeById (·.id) (considered current historicalEvidence) ∧
      UsesBaseline current eligibility historicalEvidence comparison := by
  obtain ⟨-, canonicalProductId, kept, hproduct, hkept, hcomparison⟩ :=
    deriveHistoricalComparison_eq_some_iff.mp h
  obtain ⟨hschema, hid, hcited, hmedian⟩ := comparisonWithBaseline_eq_some hcomparison
  have hnodup : ((kept.filter fun e => IsBaseline current canonicalProductId eligibility e).map
      (·.id)).Nodup :=
    (dedupeStrictById_eq_some hkept).1.sublist (List.filter_sublist.map _)
  refine ⟨hschema, hid, agreeById_of_dedupeStrictById hkept, _, ?_, fun e => ?_, hcited, hmedian⟩
  · exact ((sortBy_perm _ _).map _).nodup_iff.mpr hnodup
  · rw [mem_sortBy, mem_baseline hproduct hkept]

/-- The identifiers that are cited are those of the baseline. -/
theorem UsesBaseline.mem_cited (h : UsesBaseline current eligibility historicalEvidence comparison)
    {id : JsString} : id ∈ comparison.sourceEvidenceIds ↔
      ∃ e ∈ historicalEvidence, InBaseline current eligibility e ∧ e.id = id := by
  obtain ⟨baseline, -, hmem, hcited, -⟩ := h
  rw [hcited, List.mem_map]
  simp only [hmem, and_assoc]

/-! ### Verification -/

/-- The observations that a comparison cites. -/
def citedBy (comparison : HistoricalComparison) (historicalEvidence : List PriceEvidence) :
    List PriceEvidence :=
  historicalEvidence.filter fun e => e.id ∈ comparison.sourceEvidenceIds

/-- **What a derived comparison has to do with the evidence**: it cites the baseline, of which it
has the median; it is verified with the evidence in any order, and with what it cites in any order;
it is not verified with an observation of the baseline that it does not cite, nor with one that is
not of the evidence next to what it cites. -/
structure ComparisonIsBound (host : Host) (current : PriceEvidence) (derivedAt : ℤ)
    (eligibility : HistoricalEligibility) (historicalEvidence : List PriceEvidence)
    (comparison : HistoricalComparison) : Prop where
  uses : UsesBaseline current eligibility historicalEvidence comparison
  verified : SeparatesBaseline host current eligibility historicalEvidence →
    ∀ evidence' : List PriceEvidence, evidence'.Perm historicalEvidence ∨
        evidence'.Perm (citedBy comparison historicalEvidence) →
      HistoricalComparisonMatchesEvidence host comparison current evidence' derivedAt eligibility
  refused : ∀ evidence' : List PriceEvidence, ∀ e ∈ evidence', InBaseline current eligibility e →
    e.id ∉ comparison.sourceEvidenceIds ∨
        e ∉ historicalEvidence ∧ (∀ e' ∈ citedBy comparison historicalEvidence, e' ∈ evidence') →
      ¬ HistoricalComparisonMatchesEvidence host comparison current evidence' derivedAt eligibility

/-- What is cited is the baseline. -/
theorem mem_citedBy (h : UsesBaseline current eligibility historicalEvidence comparison)
    {e : PriceEvidence} (hbaseline : InBaseline current eligibility e) :
    e ∈ historicalEvidence ↔ e ∈ citedBy comparison historicalEvidence := by
  unfold citedBy
  rw [List.mem_filter, decide_eq_true_iff]
  exact ⟨fun hmem => ⟨hmem, h.mem_cited.mpr ⟨e, hmem, hbaseline, rfl⟩⟩, And.left⟩

/-- What is cited conflicts in no other way. -/
theorem agreeById_citedBy (h : AgreeById (·.id) (considered current historicalEvidence)) :
    AgreeById (·.id) (considered current (citedBy comparison historicalEvidence)) := by
  have hsub : ∀ e ∈ considered current (citedBy comparison historicalEvidence),
      e ∈ considered current historicalEvidence := by
    intro e he
    rcases List.mem_cons.mp he with rfl | he
    · exact List.mem_cons_self
    · obtain ⟨hcited, hschema⟩ := List.mem_filter.mp he
      exact List.mem_cons_of_mem _ (List.mem_filter.mpr ⟨List.mem_of_mem_filter hcited, hschema⟩)
  exact fun a ha b hb => h a (hsub a ha) b (hsub b hb)

/-- **A derived comparison is bound to its evidence.**

**Proof sketch.** Evidence with the same baseline derives the same comparison, in any order
(`deriveHistoricalComparison_eq_of_same`), and what is cited has it. A comparison that is derived
from other evidence cites all of its baseline (`usesBaseline_of_derive`), and two records of one
identifier are refused. -/
theorem comparisonIsBound_of_derive [Std.TransCmp host.localeCompare]
    (h : deriveHistoricalComparison host comparisonId current historicalEvidence derivedAt eligibility =
      some comparison) :
    ComparisonIsBound host current derivedAt eligibility historicalEvidence comparison := by
  obtain ⟨hschema, rfl, hagree, huses⟩ := usesBaseline_of_derive h
  refine ⟨huses, fun hseparates evidence' hevidence => ⟨hschema, ?_⟩, ?_⟩
  · rcases hevidence with hperm | hperm
    · rw [← deriveHistoricalComparison_eq_of_perm hperm.symm hseparates, h]
    · have hcited : SeparatesBaseline host current eligibility
          (citedBy comparison historicalEvidence) := fun e he e' he' =>
        hseparates e (List.mem_of_mem_filter he) e' (List.mem_of_mem_filter he')
      rw [← deriveHistoricalComparison_eq_of_perm hperm.symm hcited,
        ← deriveHistoricalComparison_eq_of_same hagree (agreeById_citedBy hagree)
          (fun e => mem_citedBy huses) hseparates, h]
  · rintro evidence' e he hbaseline hnot ⟨-, hmatches⟩
    obtain ⟨-, -, hagree', huses'⟩ := usesBaseline_of_derive hmatches
    have hcited := huses'.mem_cited.mpr ⟨e, he, hbaseline, rfl⟩
    rcases hnot with hnot | ⟨hnot, hall⟩
    · exact hnot hcited
    · -- The record that was cited under this identifier is there too, and is another one.
      obtain ⟨e', he', hbaseline', hid⟩ := huses.mem_cited.mp hcited
      have hmem' := hall e' ((mem_citedBy huses hbaseline').mp he')
      have heq : e' = e := hagree' e'
        (List.mem_cons_of_mem _ (List.mem_filter.mpr ⟨hmem', decide_eq_true hbaseline'.1⟩)) e
        (List.mem_cons_of_mem _ (List.mem_filter.mpr ⟨he, decide_eq_true hbaseline.1⟩)) hid
      exact hnot (heq ▸ he')

/-- **Historical comparisons are bound to their evidence**: where the runtime, whose order of texts
is consistent, tells the observations of one instant apart, a derivation does not depend on the
order of the evidence; and each comparison that is derived is that of its baseline, and is verified
with it alone. -/
theorem historicalComparisons_hold [Std.TransCmp host.localeCompare] :
    (SeparatesBaseline host current eligibility historicalEvidence →
      ∀ evidence' : List PriceEvidence, evidence'.Perm historicalEvidence →
        deriveHistoricalComparison host comparisonId current evidence' derivedAt eligibility =
          deriveHistoricalComparison host comparisonId current historicalEvidence derivedAt
            eligibility) ∧
    ∀ comparison, deriveHistoricalComparison host comparisonId current historicalEvidence derivedAt
        eligibility = some comparison →
      ComparisonIsBound host current derivedAt eligibility historicalEvidence comparison :=
  ⟨fun hseparates _ hperm =>
      (deriveHistoricalComparison_eq_of_perm hperm.symm hseparates).symm,
    fun _ h => comparisonIsBound_of_derive h⟩

/-! ### Examples -/

instance : Std.TransCmp Host.ascii.localeCompare :=
  inferInstanceAs (Std.TransCmp (compareLex
    (on (fun s : JsString => s.map fun u : UInt16 => if 65 ≤ u ∧ u ≤ 90 then u + 32 else u) compareText)
    (descending compareText)))

/-- A runtime that ignores the control characters of texts that it compares. -/
def Host.ignoringControls : Host :=
  { Host.ascii with
    localeCompare := on (fun s => s.filter fun u => decide (32 ≤ u)) Host.ascii.localeCompare }

/-- A day. -/
def dayMs : ℤ := 24 * 60 * 60 * 1000

/-- The price of the last day. -/
def lastPrice : PriceEvidence := priceAt (js "last") 50 (7 * dayMs)

/-- Where the price is looked at, on that day. -/
def nationwideEligibility : HistoricalEligibility where
  currentMaxAgeMs := 0
  enabledSourceIds := [js "source"]
  location := ⟨js "NO", none, none, none⟩
  geographicDirectory := none

/-- The prices of the days before, which are the same. -/
def weekBefore : List PriceEvidence :=
  [priceAt (js "day0") 200 0, priceAt (js "day1") 200 dayMs, priceAt (js "day2") 200 (2 * dayMs),
    priceAt (js "day3") 200 (3 * dayMs), priceAt (js "day4") 200 (4 * dayMs),
    priceAt (js "day5") 200 (5 * dayMs), priceAt (js "day6") 200 (6 * dayMs)]

/-- The comparison of the price of the last day. -/
def lastComparison (host : Host) (historicalEvidence : List PriceEvidence) :
    Option HistoricalComparison :=
  deriveHistoricalComparison host (js "comparison") lastPrice historicalEvidence (7 * dayMs)
    nationwideEligibility

/-- The same prices, with two observations of the first day that the runtime tells apart. -/
def observedTwice : List PriceEvidence := priceAt (js "again") 200 0 :: weekBefore

theorem isSome_lastComparison : (lastComparison Host.ascii observedTwice).isSome := by
  decide +kernel

/-- The comparison of that week does not depend on the order of the observations, and is bound. -/
theorem historicalComparisons_hold_week :
    lastComparison Host.ascii observedTwice.reverse = lastComparison Host.ascii observedTwice ∧
      ComparisonIsBound Host.ascii lastPrice (7 * dayMs) nationwideEligibility observedTwice
        ((lastComparison Host.ascii observedTwice).get isSome_lastComparison) := by
  have hseparates :
      SeparatesBaseline Host.ascii lastPrice nationwideEligibility observedTwice := by
    unfold SeparatesBaseline
    decide +kernel
  exact ⟨historicalComparisons_hold.1 hseparates _ (List.reverse_perm _),
    historicalComparisons_hold.2 _ (Option.some_get isSome_lastComparison).symm⟩

/-- The price of the first day, observed seven times, before those of the other days. -/
def oftenObserved : List PriceEvidence :=
  ["a", "b", "c", "d", "e", "f", "g"].map (fun id => priceAt (js id) 100 0) ++ weekBefore.tail

theorem isSome_lastComparison_oftenObserved : (lastComparison Host.ascii oftenObserved).isSome := by
  decide +kernel

/-- Two observations of one instant, whose identifiers the runtime takes for equal, are cited as
they were given. The price of one day that has been observed often weighs more than those of the
other days. -/
theorem not_historicalComparisons_hold :
    (∃ evidence evidence' : List PriceEvidence, evidence'.Perm evidence ∧
      lastComparison Host.ignoringControls evidence' ≠
        lastComparison Host.ignoringControls evidence) ∧
    ∃ (evidence : List PriceEvidence) (daily : ℤ → ℕ),
      (∀ e ∈ evidence, InBaseline lastPrice nationwideEligibility e ∧
        e.amountOre = daily (utcObservationDay e.observedAt)) ∧
      ∃ comparison, lastComparison Host.ascii evidence = some comparison ∧
        medianOre ((evidence.map fun e => utcObservationDay e.observedAt).dedup.map daily) ≠
          some comparison.baselineOre := by
  constructor
  · refine ⟨priceAt (js "day0") 200 0 :: priceAt (js "day0" ++ [1]) 200 0 :: weekBefore.tail,
      priceAt (js "day0" ++ [1]) 200 0 :: priceAt (js "day0") 200 0 :: weekBefore.tail,
      List.Perm.swap _ _ _, ?_⟩
    decide +kernel
  · refine ⟨oftenObserved, fun day => if day = 0 then 100 else 200, by decide +kernel, _,
      (Option.some_get isSome_lastComparison_oftenObserved).symm, ?_⟩
    decide +kernel

end Handleplan
