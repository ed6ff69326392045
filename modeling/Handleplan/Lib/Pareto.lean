import Mathlib.Data.Set.Finite.List
import Mathlib.Order.WellFoundedSet
import Mathlib.Data.List.Perm.Basic

/-!
# Pareto frontiers of finite lists

The entries of a list that no other entry dominates, for any strict dominance relation.

## Main definitions

* `Pareto.frontier` — the entries that no entry dominates.

## Main results

* `Pareto.exists_mem_frontier` — completeness: every entry is on the frontier or dominated by an
  entry of the frontier.
* `Pareto.frontier_eq_self` — a list of mutually non-dominated entries is its own frontier.
* `Pareto.frontier_perm` — the frontier follows permutations of the list.

## Implementation notes

Dominance is Boolean, as a program computes it. It has to be a strict order only on the entries of
the list at hand, so the hypotheses are packed in `Pareto.StrictOn`: the relations of a program are
often strict orders only on the values that passed its validation.
-/

namespace Pareto

variable {α : Type*} {dom : α → α → Bool} {l l' : List α}

/-- The entries of the list that no entry dominates. -/
def frontier (dom : α → α → Bool) (l : List α) : List α :=
  l.filter fun c => !l.any fun o => dom o c

/-- Dominance is a strict order on the entries of the list. -/
structure StrictOn (dom : α → α → Bool) (l : List α) : Prop where
  irrefl : ∀ a ∈ l, dom a a = false
  trans : ∀ a ∈ l, ∀ b ∈ l, ∀ c ∈ l, dom a b = true → dom b c = true → dom a c = true

@[simp] theorem mem_frontier {c : α} :
    c ∈ frontier dom l ↔ c ∈ l ∧ ∀ o ∈ l, dom o c = false := by
  simp [frontier, List.mem_filter]

/-- Relations that agree on the entries have the same frontier. -/
theorem frontier_congr {dom' : α → α → Bool} (h : ∀ c ∈ l, ∀ o ∈ l, dom o c = dom' o c) :
    frontier dom l = frontier dom' l := by
  refine List.filter_congr fun c hc => ?_
  have hany : (l.any fun o => dom o c) = l.any fun o => dom' o c := by
    rw [Bool.eq_iff_iff, List.any_eq_true, List.any_eq_true]
    exact exists_congr fun o => and_congr_right fun ho => by rw [h c hc o ho]
  rw [hany]

theorem frontier_sublist (dom : α → α → Bool) (l : List α) : (frontier dom l).Sublist l :=
  List.filter_sublist

theorem frontier_perm (h : l.Perm l') : (frontier dom l).Perm (frontier dom l') := by
  have hany : (fun c => !l.any fun o => dom o c) = fun c => !l'.any fun o => dom o c := by
    funext c
    rw [h.any_eq]
  unfold frontier
  rw [hany]
  exact h.filter _

/-- The frontier follows a map that keeps dominance. -/
theorem frontier_map {β : Type*} {dom' : β → β → Bool} {f : α → β}
    (h : ∀ a b, dom' (f a) (f b) = dom a b) :
    frontier dom' (l.map f) = (frontier dom l).map f := by
  unfold frontier
  rw [List.filter_map]
  congr 1
  refine List.filter_congr fun c _ => ?_
  simp [List.any_map, Function.comp_def, h]

/-- A list of mutually non-dominated entries is its own frontier. -/
theorem frontier_eq_self (h : ∀ c ∈ l, ∀ o ∈ l, dom o c = false) : frontier dom l = l := by
  refine List.filter_eq_self.mpr fun c hc => ?_
  simpa using h c hc

/-- **Completeness of the frontier**: every entry is on it or dominated by an entry on it.

**Proof sketch.** The dominance relation restricted to the finitely many entries is well founded;
descend from an entry to a dominating one until none dominates. -/
theorem exists_mem_frontier (hs : StrictOn dom l) {c : α} (hc : c ∈ l) :
    ∃ m ∈ frontier dom l, m = c ∨ dom m c = true := by
  let r : {a // a ∈ l} → {a // a ∈ l} → Prop := fun a b => dom a.1 b.1 = true
  have hstrict : IsStrictOrder {a // a ∈ l} r :=
    { irrefl := fun a h => by simp [r, hs.irrefl a.1 a.2] at h
      trans := fun a b c => hs.trans a.1 a.2 b.1 b.2 c.1 c.2 }
  have hfin : Finite {a // a ∈ l} := List.finite_toSet l
  have hwf : WellFounded r := Finite.wellFounded_of_trans_of_irrefl r
  suffices ∀ c : {a // a ∈ l}, ∃ m ∈ frontier dom l, m = c.1 ∨ dom m c.1 = true from this ⟨c, hc⟩
  intro c
  induction c using hwf.induction with
  | _ c ih =>
    by_cases hdom : ∃ o ∈ l, dom o c.1 = true
    · obtain ⟨o, ho, hoc⟩ := hdom
      obtain ⟨m, hm, hmo⟩ := ih ⟨o, ho⟩ hoc
      refine ⟨m, hm, Or.inr ?_⟩
      rcases hmo with rfl | hmo
      · exact hoc
      · exact hs.trans m (mem_frontier.mp hm).1 o ho c.1 c.2 hmo hoc
    · refine ⟨c.1, mem_frontier.mpr ⟨c.2, fun o ho => ?_⟩, Or.inl rfl⟩
      by_contra hne
      exact hdom ⟨o, ho, by simpa using hne⟩

end Pareto
