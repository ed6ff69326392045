import Mathlib.Data.List.Basic
import Mathlib.Data.List.DropRight
import Mathlib.Data.List.Forall2
import Mathlib.Tactic.SplitIfs

/-!
# Searching a text

The leftmost place of a list at which a partial function has a value, as a regular expression is
searched in a text, and readings of the beginning of a list.

## Main definitions

* `TextSearch.search` — the leftmost place, with what stands before it.
* `TextSearch.afterPrefix` — what follows a prefix, compared entry by entry.
* `TextSearch.slice` — a part of a list by its places.

## Main results

* `TextSearch.exists_of_search` — a place that is found.
* `TextSearch.isSome_search` — a place that is there is found.
* `TextSearch.afterPrefix_eq_some_iff` — a prefix and what follows.
-/

namespace TextSearch

variable {α β : Type*}

/-! ### Places -/

/-- The leftmost place at which there is a value, with what stands before it. -/
def search (p : List α → Option β) : List α → Option (List α × β)
  | [] => (p []).map fun found => ([], found)
  | a :: rest =>
    match p (a :: rest) with
    | some found => some ([], found)
    | none => (search p rest).map fun place => (a :: place.1, place.2)

variable {p : List α → Option β} {s before rest : List α} {found : β}

/-- A place that is found: the list is split there, and the value is that of the rest. -/
theorem exists_of_search (h : search p s = some (before, found)) :
    ∃ rest, s = before ++ rest ∧ p rest = some found := by
  induction s generalizing before with
  | nil =>
    obtain ⟨value, hvalue, heq⟩ := Option.map_eq_some_iff.mp h
    cases heq
    exact ⟨[], rfl, hvalue⟩
  | cons a s ih =>
    unfold search at h
    cases hhere : p (a :: s) with
    | some value =>
      rw [hhere] at h
      cases h
      exact ⟨a :: s, rfl, hhere⟩
    | none =>
      rw [hhere] at h
      obtain ⟨⟨earlier, value⟩, hplace, heq⟩ := Option.map_eq_some_iff.mp h
      cases heq
      obtain ⟨rest, rfl, hrest⟩ := ih hplace
      exact ⟨rest, rfl, hrest⟩

/-- A place that is there is found, or one before it. -/
theorem isSome_search (before : List α) (h : (p rest).isSome = true) :
    (search p (before ++ rest)).isSome = true := by
  induction before with
  | nil =>
    obtain ⟨value, hvalue⟩ := Option.isSome_iff_exists.mp h
    cases rest with
    | nil => simp [search, hvalue]
    | cons a rest => simp [search, hvalue]
  | cons a before ih =>
    rw [List.cons_append, search]
    split
    · rfl
    · rw [Option.isSome_map]
      exact ih

/-! ### Prefixes -/

/-- What follows a prefix, whose entries are compared with those of the list. -/
def afterPrefix (fits : β → α → Bool) : List β → List α → Option (List α)
  | [], s => some s
  | _ :: _, [] => none
  | b :: pattern, a :: s => if fits b a then afterPrefix fits pattern s else none

variable {fits : β → α → Bool} {pattern : List β}

/-- A prefix and what follows. -/
theorem afterPrefix_eq_some_iff : afterPrefix fits pattern s = some rest ↔
    ∃ head, s = head ++ rest ∧ List.Forall₂ (fun b a => fits b a = true) pattern head := by
  induction pattern generalizing s with
  | nil =>
    constructor
    · exact fun h => ⟨[], Option.some.inj h, .nil⟩
    · rintro ⟨head, rfl, hhead⟩
      cases hhead
      rfl
  | cons b pattern ih =>
    cases s with
    | nil =>
      refine iff_of_false (by simp [afterPrefix]) ?_
      rintro ⟨head, hs, hhead⟩
      cases hhead
      cases hs
    | cons a s =>
      rw [afterPrefix]
      split_ifs with hfits
      · rw [ih]
        constructor
        · rintro ⟨head, rfl, hhead⟩
          exact ⟨a :: head, rfl, .cons hfits hhead⟩
        · rintro ⟨head, hs, hhead⟩
          obtain ⟨a', head', hfirst, hhead', rfl⟩ := List.forall₂_cons_left_iff.mp hhead
          obtain ⟨-, rfl⟩ := List.cons.inj hs
          exact ⟨head', rfl, hhead'⟩
      · refine iff_of_false (by simp) ?_
        rintro ⟨head, hs, hhead⟩
        obtain ⟨a', head', hfirst, -, rfl⟩ := List.forall₂_cons_left_iff.mp hhead
        obtain ⟨rfl, -⟩ := List.cons.inj hs
        exact hfits hfirst

/-- A prefix is followed by what follows it. -/
theorem afterPrefix_append {head : List α}
    (h : List.Forall₂ (fun b a => fits b a = true) pattern head) :
    afterPrefix fits pattern (head ++ rest) = some rest :=
  afterPrefix_eq_some_iff.mpr ⟨head, rfl, h⟩

/-! ### Parts -/

/-- `slice`: the part of a list from a place up to another. -/
def slice (s : List α) (start stop : ℕ) : List α := (s.take stop).drop start

/-- A part that begins at the end of a beginning. -/
theorem slice_append_left (before rest : List α) (n : ℕ) :
    slice (before ++ rest) before.length (before.length + n) = rest.take n := by
  rw [slice, List.take_length_add_append, List.drop_left]

/-- A part that ends at the end of a beginning. -/
theorem slice_append_right (before rest : List α) (n : ℕ) :
    slice (before ++ rest) (before.length - n) before.length = before.drop (before.length - n) := by
  rw [slice, List.take_left]

/-- The run of entries of a kind that a list begins with, followed by one that is of another
kind. -/
theorem takeWhile_append_cons {q : α → Bool} {run : List α} {a : α} (hrun : ∀ x ∈ run, q x = true)
    (ha : q a = false) : (run ++ a :: rest).takeWhile q = run ∧
      (run ++ a :: rest).dropWhile q = a :: rest := by
  induction run with
  | nil => simp [ha]
  | cons x run ih =>
    rw [List.forall_mem_cons] at hrun
    obtain ⟨htake, hdrop⟩ := ih hrun.2
    simp [hrun.1, htake, hdrop]

/-- A run of entries of a kind at the end is dropped. -/
theorem rdropWhile_append {q : α → Bool} {run : List α} (s : List α) (hrun : ∀ x ∈ run, q x = true) :
    (s ++ run).rdropWhile q = s.rdropWhile q := by
  rw [List.rdropWhile, List.rdropWhile, List.reverse_append, List.dropWhile_append_of_pos]
  exact fun x hx => hrun x (List.mem_reverse.mp hx)

end TextSearch
