import Mathlib.Data.List.Basic
import Mathlib.Data.List.Sublists

/-!
# Enumerations

The small exhaustive searches: all non-empty selections of at most so many entries of a list, all
ways to take one entry of each of several lists, and all orders of a list.

## Main definitions

* `Subsets.combinations` — the bounded selections, each in the order of the list, depth first.
* `Subsets.choices` — one entry of each list.
* `Subsets.arrangements` — the orders of a list.

## Main results

* `Subsets.mem_combinations` — the selections are the non-empty sublists within the bound.
* `Subsets.mem_choices`, `Subsets.mem_arrangements` — nothing is missing from the other two.
-/

namespace Subsets

variable {α : Type*}

/-- The selections that extend `current` by at least one entry of the list. -/
def extensions (maximum : ℕ) : List α → List α → List (List α)
  | [], _ => []
  | a :: rest, current =>
    let extended := current ++ [a]
    extended ::
      ((if extended.length = maximum then [] else extensions maximum rest extended) ++
        extensions maximum rest current)

/-- The non-empty selections of at most `maximum` entries. -/
def combinations (l : List α) (maximum : ℕ) : List (List α) :=
  if maximum = 0 then [] else extensions maximum l []

/-- The sublists that extend a list. -/
theorem mem_extensions {maximum : ℕ} {l current s : List α} (hlt : current.length < maximum) :
    s ∈ extensions maximum l current ↔
      ∃ t, s = current ++ t ∧ t ≠ [] ∧ t.Sublist l ∧ s.length ≤ maximum := by
  induction l generalizing current with
  | nil =>
    simp only [extensions, List.not_mem_nil, List.sublist_nil, false_iff]
    rintro ⟨t, -, hne, rfl, -⟩
    exact hne rfl
  | cons a rest ih =>
    have hdeep : s ∈ (if (current ++ [a]).length = maximum then []
        else extensions maximum rest (current ++ [a])) ↔
        ∃ t, s = current ++ a :: t ∧ t ≠ [] ∧ t.Sublist rest ∧ s.length ≤ maximum := by
      split_ifs with hfull
      · simp only [List.not_mem_nil, false_iff]
        rintro ⟨t, rfl, hne, -, hle⟩
        have hpos := List.length_pos_iff.mpr hne
        simp only [List.length_append, List.length_cons, List.length_nil] at hfull hle
        omega
      · have hshort : (current ++ [a]).length < maximum := by
          simp only [List.length_append, List.length_cons, List.length_nil] at hfull ⊢
          omega
        rw [ih hshort]
        simp
    rw [extensions, List.mem_cons, List.mem_append, hdeep, ih hlt]
    constructor
    · rintro (rfl | ⟨t, rfl, -, hsub, hle⟩ | ⟨t, rfl, hne, hsub, hle⟩)
      · refine ⟨[a], rfl, by simp, by simp, ?_⟩
        simp only [List.length_append, List.length_cons, List.length_nil]
        omega
      · exact ⟨a :: t, rfl, by simp, hsub.cons_cons a, hle⟩
      · exact ⟨t, rfl, hne, hsub.cons a, hle⟩
    · rintro ⟨t, rfl, hne, hsub, hle⟩
      cases hsub with
      | cons _ hsub => exact Or.inr (Or.inr ⟨t, rfl, hne, hsub, hle⟩)
      | cons_cons _ hsub =>
        rename_i t
        by_cases ht : t = []
        · subst ht
          exact Or.inl rfl
        · exact Or.inr (Or.inl ⟨t, rfl, ht, hsub, hle⟩)

/-- **The selections** are the non-empty sublists with at most `maximum` entries. -/
theorem mem_combinations {l s : List α} {maximum : ℕ} :
    s ∈ combinations l maximum ↔ s ≠ [] ∧ s.Sublist l ∧ s.length ≤ maximum := by
  unfold combinations
  split_ifs with h
  · simp only [List.not_mem_nil, false_iff]
    rintro ⟨hne, -, hle⟩
    have := List.length_pos_iff.mpr hne
    omega
  · rw [mem_extensions (by simpa using Nat.pos_of_ne_zero h)]
    simp

/-! ### One of each -/

/-- All ways to take one entry of each list, those of the first list outermost. -/
def choices : List (List α) → List (List α)
  | [] => [[]]
  | options :: rest => options.flatMap fun a => (choices rest).map (a :: ·)

theorem mem_choices {options : List (List α)} {s : List α} :
    s ∈ choices options ↔ List.Forall₂ (fun a o => a ∈ o) s options := by
  induction options generalizing s with
  | nil => simp [choices]
  | cons o rest ih =>
    simp only [choices, List.mem_flatMap, List.mem_map, ih, List.forall₂_cons_right_iff]
    constructor
    · rintro ⟨a, ha, t, ht, rfl⟩
      exact ⟨a, t, ha, ht, rfl⟩
    · rintro ⟨a, t, ha, ht, rfl⟩
      exact ⟨a, ha, t, ht, rfl⟩

/-! ### Orders -/

/-- The orders of a list of at most `fuel` entries: each entry in turn before the orders of the
others. -/
def arrangements : ℕ → List α → List (List α)
  | 0, l => [l]
  | fuel + 1, l =>
    if l.length ≤ 1 then [l]
    else l.zipIdx.flatMap fun (a, i) => (arrangements fuel (l.eraseIdx i)).map (a :: ·)

/-- **The orders of a list** are its permutations. -/
theorem mem_arrangements {fuel : ℕ} {l s : List α} (h : l.length ≤ fuel) :
    s ∈ arrangements fuel l ↔ s.Perm l := by
  induction fuel generalizing l s with
  | zero =>
    obtain rfl := List.length_eq_zero_iff.mp (Nat.le_zero.mp h)
    simp [arrangements]
  | succ fuel ih =>
    unfold arrangements
    split_ifs with hshort
    · match l, hshort with
      | [], _ => simp
      | [a], _ => simp
    · simp only [List.mem_flatMap, Prod.exists, List.mem_zipIdx_iff_getElem?, List.mem_map]
      constructor
      · rintro ⟨a, i, hi, t, ht, rfl⟩
        obtain ⟨hlt, rfl⟩ := List.getElem?_eq_some_iff.mp hi
        have hlength := List.length_eraseIdx_of_lt hlt
        rw [ih (by omega)] at ht
        exact (ht.cons _).trans (List.getElem_cons_eraseIdx_perm hlt)
      · intro hs
        cases s with
        | nil => exact absurd hs.length_eq (by simp only [List.length_nil]; omega)
        | cons a t =>
          obtain ⟨i, hlt, rfl⟩ := List.getElem_of_mem (hs.subset List.mem_cons_self)
          have hlength := List.length_eraseIdx_of_lt hlt
          refine ⟨l[i], i, List.getElem?_eq_getElem hlt, t, ?_, rfl⟩
          rw [ih (by omega)]
          exact (hs.trans (List.getElem_cons_eraseIdx_perm hlt).symm).cons_inv

end Subsets
