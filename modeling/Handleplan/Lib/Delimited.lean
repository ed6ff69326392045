import Mathlib.Data.List.Basic

/-!
# Texts that are split at a mark

Where a list is split at an element of a kind that one of its parts has none of, the parts are
determined.

## Main results

* `Delimited.eq_of_append_cons_left` — at the first element of a kind.
* `Delimited.eq_of_append_cons_right` — at the last element of a kind.
-/

namespace Delimited

variable {α : Type*} {P : α → Prop} {a a' b b' : List α} {x x' : α}

/-- Two lists that are equal, each split at its first element of a kind. -/
theorem eq_of_append_cons_left (ha : ∀ y ∈ a, ¬ P y) (ha' : ∀ y ∈ a', ¬ P y) (hx : P x)
    (hx' : P x') (h : a ++ x :: b = a' ++ x' :: b') : a = a' ∧ x = x' ∧ b = b' := by
  induction a generalizing a' with
  | nil =>
    cases a' with
    | nil => exact ⟨rfl, List.cons.inj h⟩
    | cons y a' =>
      obtain rfl := (List.cons.inj h).1
      exact absurd hx (ha' x List.mem_cons_self)
  | cons y a ih =>
    cases a' with
    | nil =>
      obtain rfl := (List.cons.inj h).1
      exact absurd hx' (ha y List.mem_cons_self)
    | cons y' a' =>
      obtain ⟨rfl, htail⟩ := List.cons.inj h
      obtain ⟨rfl, hrest⟩ := ih (fun z hz => ha z (List.mem_cons_of_mem y hz))
        (fun z hz => ha' z (List.mem_cons_of_mem y hz)) htail
      exact ⟨rfl, hrest⟩

/-- Two lists that are equal, each split at its last element of a kind. -/
theorem eq_of_append_cons_right (hb : ∀ y ∈ b, ¬ P y) (hb' : ∀ y ∈ b', ¬ P y) (hx : P x)
    (hx' : P x') (h : a ++ x :: b = a' ++ x' :: b') : a = a' ∧ x = x' ∧ b = b' := by
  have hreverse : b.reverse ++ x :: a.reverse = b'.reverse ++ x' :: a'.reverse := by
    simpa using congrArg List.reverse h
  obtain ⟨hb, hx, ha⟩ := eq_of_append_cons_left (fun y hy => hb y (List.mem_reverse.mp hy))
    (fun y hy => hb' y (List.mem_reverse.mp hy)) hx hx' hreverse
  exact ⟨List.reverse_injective ha, hx, List.reverse_injective hb⟩

end Delimited
