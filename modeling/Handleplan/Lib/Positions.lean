import Mathlib.Data.Finset.Sort
import Mathlib.Order.Interval.Finset.Nat

/-!
# Picking the elements at a set of positions

A list reduced to the elements at some of its positions, in their order.

## Main definitions

* `Positions.pick` — the elements at a finite set of positions.

## Main results

* `Positions.pick_sublist` — what is picked is a sublist.
* `Positions.head?_pick`, `getLast?_pick` — the ends are kept when their positions are.
* `Positions.length_pick` — distinct positions of the list give distinct elements.
-/

namespace Handleplan.Positions

variable {α : Type*}

/-- The elements of a list at the positions of a finite set, in the order of the positions. -/
def pick (l : List α) (s : Finset ℕ) : List α :=
  (s.sort (· ≤ ·)).filterMap fun i => l[i]?

theorem filterMap_range_getElem? (l : List α) :
    (List.range l.length).filterMap (fun i => l[i]?) = l := by
  induction l with
  | nil => rfl
  | cons a l ih =>
    have hfirst : (fun i => (a :: l)[i]?) 0 = some a := rfl
    rw [List.length_cons, List.range_succ_eq_map, List.filterMap_cons_some hfirst,
      List.filterMap_map]
    exact congrArg (a :: ·) ih

/-- The positions of a set below `n`, in order, are the positions below `n` that are in the set. -/
theorem sort_eq_filter_range {s : Finset ℕ} {n : ℕ} (h : ∀ i ∈ s, i < n) :
    s.sort (· ≤ ·) = (List.range n).filter (· ∈ s) := by
  refine List.Perm.eq_of_pairwise' (r := (· ≤ ·)) (s.pairwise_sort _)
    ((List.pairwise_le_range (n := n)).sublist List.filter_sublist) ?_
  refine (List.perm_ext_iff_of_nodup (s.sort_nodup _) (List.nodup_range.filter _)).mpr
    fun i => ?_
  simp only [Finset.mem_sort, List.mem_filter, List.mem_range, decide_eq_true_eq]
  exact ⟨fun hi => ⟨h i hi, hi⟩, And.right⟩

variable {l : List α} {s : Finset ℕ}

theorem mem_pick {a : α} : a ∈ pick l s ↔ ∃ i ∈ s, l[i]? = some a := by
  simp [pick]

section

variable (h : ∀ i ∈ s, i < l.length)

include h

theorem pick_sublist : (pick l s).Sublist l := by
  unfold pick
  rw [sort_eq_filter_range h]
  calc ((List.range l.length).filter (· ∈ s)).filterMap (fun i => l[i]?)
      |>.Sublist ((List.range l.length).filterMap fun i => l[i]?) :=
        List.filter_sublist.filterMap _
    _ = l := filterMap_range_getElem? l

theorem head?_pick (hfirst : 0 ∈ s) : (pick l s).head? = l.head? := by
  cases l with
  | nil => exact absurd (h 0 hfirst) (Nat.not_lt_zero 0)
  | cons a l =>
    have hvalue : (fun i => (a :: l)[i]?) 0 = some a := rfl
    unfold pick
    rw [sort_eq_filter_range h, List.length_cons, List.range_succ_eq_map,
      List.filter_cons_of_pos (by simpa using hfirst), List.filterMap_cons_some hvalue]
    rfl

theorem getLast?_pick (hlast : l.length - 1 ∈ s) :
    (pick l s).getLast? = l.getLast? := by
  rcases List.eq_nil_or_concat' l with rfl | ⟨l, a, rfl⟩
  · exact absurd (h _ hlast) (Nat.not_lt_zero _)
  · have hlength : (l ++ [a]).length = l.length + 1 := List.length_append
    have hvalue : (fun i => (l ++ [a])[i]?) l.length = some a := by simp
    rw [hlength, Nat.add_sub_cancel] at hlast
    unfold pick
    rw [sort_eq_filter_range h, hlength, List.range_succ, List.filter_append,
      List.filter_cons_of_pos (by simpa using hlast), List.filterMap_append, List.filter_nil,
      List.filterMap_cons_some hvalue, List.filterMap_nil, List.getLast?_concat,
      List.getLast?_concat]

theorem length_pick : (pick l s).length = s.card := by
  unfold pick
  rw [List.length_filterMap_eq_countP, List.countP_eq_length.mpr, Finset.length_sort]
  intro i hi
  simpa using h i ((Finset.mem_sort _).mp hi)

end

end Handleplan.Positions
