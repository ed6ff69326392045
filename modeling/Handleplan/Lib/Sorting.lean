import Mathlib.Data.List.Sort
import Mathlib.Data.List.Perm.Basic
import Mathlib.Data.List.Nodup
import Mathlib.Data.List.Dedup

/-!
# Sorting by a three-way comparator

A stable sort driven by a comparator `cmp : α → α → Ordering`, and the facts a program that
sorts and then reads the first entry, or compares two sorted copies, relies on.

## Main definitions

* `Sorting.sortBy` — the stable sort of a list by a comparator.
* `Sorting.least` — the first entry of the sorted list.
* `Sorting.on`, `Sorting.descending` — comparators made from others.

## Main results

* `Sorting.sortBy_eq_of_perm` — a comparator that separates the entries makes the sorted list
  independent of the input order.
* `Sorting.sortBy_eq_of_perm_of_pairwise` — a list that is already in order is the sorted form of
  each of its permutations.
* `Sorting.least_eq_some_iff` — the first entry of the sorted list is a least entry, and the only
  one when the comparator separates the entries.

## Design

The sort is insertion sort, which is stable and structurally recursive, so that sorted lists can be
computed by the kernel. Comparators are transitive in the sense of `Std.TransCmp`; the chains
`a || b || c` of a program become `Ordering.then` or `compareLex`.
-/

namespace Sorting

variable {α β : Type*}

/-- The stable sort of a list by a three-way comparator. -/
def sortBy (cmp : α → α → Ordering) (l : List α) : List α :=
  l.insertionSort fun a b => (cmp a b).isLE = true

/-- The first entry of the sorted list. -/
def least (cmp : α → α → Ordering) (l : List α) : Option α :=
  (sortBy cmp l).head?

/-- Comparison of a key by a given comparator. -/
def on (f : α → β) (cmp : β → β → Ordering) (a b : α) : Ordering := cmp (f a) (f b)

/-- Comparison the other way round. -/
def descending (cmp : α → α → Ordering) (a b : α) : Ordering := cmp b a

instance (f : α → β) (cmp : β → β → Ordering) [Std.TransCmp cmp] : Std.TransCmp (on f cmp) where
  eq_swap {a b} := Std.OrientedCmp.eq_swap (a := f a) (b := f b)
  isLE_trans {a b c} := Std.TransCmp.isLE_trans (a := f a) (b := f b) (c := f c)

instance (cmp : α → α → Ordering) [Std.TransCmp cmp] : Std.TransCmp (descending cmp) :=
  inferInstanceAs (Std.TransCmp fun a b => cmp b a)

theorem on_eq_iff {f : α → β} {cmp : β → β → Ordering} [Std.LawfulEqCmp cmp] {a b : α} :
    on f cmp a b = .eq ↔ f a = f b :=
  Std.LawfulEqCmp.compare_eq_iff_eq (a := f a) (b := f b)

/-- A lexicographic comparison calls two values equal when both comparisons do. -/
theorem compareLex_eq_iff {cmp₁ cmp₂ : α → α → Ordering} {a b : α} :
    compareLex cmp₁ cmp₂ a b = .eq ↔ cmp₁ a b = .eq ∧ cmp₂ a b = .eq := by
  simp [compareLex, Ordering.then_eq_eq]

/-- A lexicographic comparison by a number first is a comparison of pairs. -/
theorem isLE_compareLex_compareOn_iff {f : α → ℕ} {cmp : α → α → Ordering} {a b : α} :
    (compareLex (compareOn f) cmp a b).isLE = true ↔
      f a < f b ∨ f a = f b ∧ (cmp a b).isLE = true := by
  simp only [compareLex, compareOn]
  rcases Nat.lt_trichotomy (f a) (f b) with h | h | h
  · simp [Nat.compare_eq_lt.mpr h, h]
  · simp [h]
  · simp [Nat.compare_eq_gt.mpr h, Nat.lt_asymm h, Nat.ne_of_gt h]

theorem le_of_isLE_compareLex {f : α → ℕ} {cmp : α → α → Ordering} {a b : α}
    (h : (compareLex (compareOn f) cmp a b).isLE = true) : f a ≤ f b := by
  rcases isLE_compareLex_compareOn_iff.mp h with h | h
  · exact Nat.le_of_lt h
  · exact Nat.le_of_eq h.1

/-- What comes first lexicographically comes first by the first comparison. -/
theorem isLE_left_of_compareLex {cmp₁ cmp₂ : α → α → Ordering} {a b : α}
    (h : (compareLex cmp₁ cmp₂ a b).isLE = true) : (cmp₁ a b).isLE = true := by
  unfold compareLex at h
  cases h₁ : cmp₁ a b <;> simp_all

/-- And by the second one, where the first one does not decide. -/
theorem isLE_right_of_compareLex {cmp₁ cmp₂ : α → α → Ordering} {a b : α}
    (h : (compareLex cmp₁ cmp₂ a b).isLE = true) (heq : cmp₁ a b = .eq) :
    (cmp₂ a b).isLE = true := by
  simpa [compareLex, heq] using h

variable {cmp : α → α → Ordering} {l l' : List α}

/-! ### Membership and length -/

theorem sortBy_perm (cmp : α → α → Ordering) (l : List α) : (sortBy cmp l).Perm l :=
  List.perm_insertionSort _ l

@[simp] theorem mem_sortBy {a : α} : a ∈ sortBy cmp l ↔ a ∈ l :=
  (sortBy_perm cmp l).mem_iff

@[simp] theorem length_sortBy : (sortBy cmp l).length = l.length :=
  (sortBy_perm cmp l).length_eq

@[simp] theorem sortBy_nil : sortBy cmp ([] : List α) = [] := rfl

@[simp] theorem sortBy_singleton (a : α) : sortBy cmp [a] = [a] := rfl

@[simp] theorem sortBy_eq_nil_iff : sortBy cmp l = [] ↔ l = [] := by
  rw [← List.length_eq_zero_iff, length_sortBy, List.length_eq_zero_iff]

theorem nodup_sortBy : (sortBy cmp l).Nodup ↔ l.Nodup :=
  (sortBy_perm cmp l).nodup_iff

/-- A list in order is its own sorted form. -/
theorem sortBy_of_pairwise (h : l.Pairwise fun a b => (cmp a b).isLE = true) :
    sortBy cmp l = l :=
  List.Pairwise.insertionSort_eq h

/-- Comparators that agree on the entries sort alike. -/
theorem sortBy_congr {cmp' : α → α → Ordering} (h : ∀ a ∈ l, ∀ b ∈ l, cmp a b = cmp' a b) :
    sortBy cmp l = sortBy cmp' l := by
  induction l with
  | nil => rfl
  | cons a l ih =>
    have htail := ih fun x hx y hy => h x (List.mem_cons_of_mem _ hx) y (List.mem_cons_of_mem _ hy)
    have hinsert : ∀ t : List α, (∀ b ∈ t, b ∈ l) →
        List.orderedInsert (fun x y => (cmp x y).isLE = true) a t =
          List.orderedInsert (fun x y => (cmp' x y).isLE = true) a t := by
      intro t ht
      induction t with
      | nil => rfl
      | cons b t iht =>
        have hab := h a List.mem_cons_self b (List.mem_cons_of_mem _ (ht b List.mem_cons_self))
        rw [List.orderedInsert_cons, List.orderedInsert_cons, hab,
          iht fun x hx => ht x (List.mem_cons_of_mem _ hx)]
    simp only [sortBy, List.insertionSort_cons] at htail ⊢
    rw [htail]
    exact hinsert _ fun b hb => (List.mem_insertionSort _).mp hb

theorem least_congr {cmp' : α → α → Ordering} (h : ∀ a ∈ l, ∀ b ∈ l, cmp a b = cmp' a b) :
    least cmp l = least cmp' l := by
  rw [least, sortBy_congr h]
  rfl

theorem least_mem {a : α} (h : least cmp l = some a) : a ∈ l :=
  mem_sortBy.mp (List.mem_of_head? h)

@[simp] theorem least_eq_none_iff : least cmp l = none ↔ l = [] := by
  simp [least]

@[simp] theorem least_nil : least cmp ([] : List α) = none := rfl

@[simp] theorem least_singleton (a : α) : least cmp [a] = some a := rfl

/-- A first entry that is below all others is the least one. -/
theorem least_cons_eq {a : α} (h : ∀ b ∈ l, (cmp a b).isLE = true) :
    least cmp (a :: l) = some a := by
  rw [least, sortBy, List.insertionSort_cons]
  change (List.orderedInsert _ a (sortBy cmp l)).head? = some a
  cases hsorted : sortBy cmp l with
  | nil => rfl
  | cons b t =>
    have hb : b ∈ sortBy cmp l := hsorted ▸ List.mem_cons_self
    rw [List.orderedInsert_cons, if_pos (h b (mem_sortBy.mp hb))]
    rfl

theorem exists_least (cmp : α → α → Ordering) {a : α} (h : a ∈ l) :
    ∃ b, least cmp l = some b := by
  cases hl : least cmp l with
  | none => simp_all
  | some b => exact ⟨b, rfl⟩

/-! ### Order -/

section Trans

variable [Std.TransCmp cmp]

instance isTrans_isLE : IsTrans α fun a b => (cmp a b).isLE = true :=
  ⟨fun _ _ _ hab hbc => Std.TransCmp.isLE_trans hab hbc⟩

instance total_isLE : Std.Total fun a b : α => (cmp a b).isLE = true := by
  refine ⟨fun a b => ?_⟩
  rcases h : (cmp a b).isLE with _ | _
  · right
    have hgt : cmp a b = .gt := by
      cases hc : cmp a b <;> simp_all [Ordering.isLE]
    rw [Std.OrientedCmp.gt_iff_lt] at hgt
    simp [hgt]
  · exact Or.inl rfl

/-- The sorted list is in order. -/
theorem pairwise_sortBy (cmp : α → α → Ordering) [Std.TransCmp cmp] (l : List α) :
    (sortBy cmp l).Pairwise fun a b => (cmp a b).isLE = true :=
  List.pairwise_insertionSort _ l

@[simp] theorem sortBy_sortBy : sortBy cmp (sortBy cmp l) = sortBy cmp l :=
  sortBy_of_pairwise (pairwise_sortBy cmp l)

/-- Two lists in order with the same entries are equal, when entries the comparator cannot
separate are equal. -/
theorem eq_of_perm_of_pairwise (hp : l.Perm l')
    (hsep : ∀ a ∈ l, ∀ b ∈ l, cmp a b = .eq → a = b)
    (h : l.Pairwise fun a b => (cmp a b).isLE = true)
    (h' : l'.Pairwise fun a b => (cmp a b).isLE = true) : l = l' := by
  refine hp.eq_of_pairwise (fun a b ha hb hab hba => ?_) h h'
  refine hsep a ha b (hp.mem_iff.mpr hb) ?_
  exact Std.OrientedCmp.isLE_antisymm hab hba

/-- **The sorted list does not depend on the input order** when the comparator separates the
entries. -/
theorem sortBy_eq_of_perm (hp : l.Perm l')
    (hsep : ∀ a ∈ l, ∀ b ∈ l, cmp a b = .eq → a = b) : sortBy cmp l = sortBy cmp l' := by
  have hs : (sortBy cmp l).Perm (sortBy cmp l') :=
    (sortBy_perm cmp l).trans (hp.trans (sortBy_perm cmp l').symm)
  refine eq_of_perm_of_pairwise hs ?_ (pairwise_sortBy cmp l) (pairwise_sortBy cmp l')
  intro a ha b hb
  exact hsep a (mem_sortBy.mp ha) b (mem_sortBy.mp hb)

/-- A list in order is the sorted form of each of its permutations. -/
theorem sortBy_eq_of_perm_of_pairwise (hp : l.Perm l')
    (hsep : ∀ a ∈ l, ∀ b ∈ l, cmp a b = .eq → a = b)
    (h : l'.Pairwise fun a b => (cmp a b).isLE = true) : sortBy cmp l = l' := by
  rw [sortBy_eq_of_perm hp hsep, sortBy_of_pairwise h]

/-- A list whose entries fall into two parts, one before the other, is sorted part by part. -/
theorem sortBy_eq_append {a b : List α} (hp : l.Perm (a ++ b))
    (hsep : ∀ x ∈ l, ∀ y ∈ l, cmp x y = .eq → x = y)
    (h : ∀ x ∈ a, ∀ y ∈ b, (cmp x y).isLE = true) :
    sortBy cmp l = sortBy cmp a ++ sortBy cmp b := by
  have hparts : l.Perm (sortBy cmp a ++ sortBy cmp b) :=
    hp.trans ((sortBy_perm cmp a).symm.append (sortBy_perm cmp b).symm)
  refine sortBy_eq_of_perm_of_pairwise hparts hsep ?_
  refine List.pairwise_append.mpr ⟨pairwise_sortBy cmp a, pairwise_sortBy cmp b, ?_⟩
  intro x hx y hy
  exact h x (mem_sortBy.mp hx) y (mem_sortBy.mp hy)

/-- Sorting the kept entries is keeping entries of the sorted list. -/
theorem sortBy_filter (p : α → Bool) (hsep : ∀ a ∈ l, ∀ b ∈ l, cmp a b = .eq → a = b) :
    sortBy cmp (l.filter p) = (sortBy cmp l).filter p := by
  refine sortBy_eq_of_perm_of_pairwise ((sortBy_perm cmp l).symm.filter p) ?_
    ((pairwise_sortBy cmp l).filter p)
  intro a ha b hb
  exact hsep a (List.mem_of_mem_filter ha) b (List.mem_of_mem_filter hb)

/-! ### The least entry -/

theorem least_isLE {a b : α} (h : least cmp l = some a) (hb : b ∈ l) : (cmp a b).isLE = true := by
  have hp := pairwise_sortBy cmp l
  rw [← @mem_sortBy _ cmp] at hb
  unfold least at h
  cases hs : sortBy cmp l with
  | nil => simp [hs] at h
  | cons c t =>
    simp only [hs, List.head?_cons, Option.some.injEq] at h hb hp
    subst h
    rcases List.mem_cons.mp hb with rfl | hb
    · exact Std.ReflCmp.isLE_rfl
    · exact (List.pairwise_cons.mp hp).1 b hb

/-- The first entry of the sorted list, characterised: it is in the list and not above any entry.
The comparator must separate the entries, since the sort keeps one of several equal ones. -/
theorem least_eq_some_iff (hsep : ∀ a ∈ l, ∀ b ∈ l, cmp a b = .eq → a = b) {a : α} :
    least cmp l = some a ↔ a ∈ l ∧ ∀ b ∈ l, (cmp a b).isLE = true := by
  constructor
  · intro h
    exact ⟨least_mem h, fun b hb => least_isLE h hb⟩
  · rintro ⟨ha, hle⟩
    obtain ⟨b, hb⟩ := exists_least cmp ha
    have hab := hle b (least_mem hb)
    have hba := least_isLE hb ha
    rw [hb, hsep a ha b (least_mem hb) (Std.OrientedCmp.isLE_antisymm hab hba)]

/-- The least entry does not depend on the input order. -/
theorem least_eq_of_perm (hp : l.Perm l')
    (hsep : ∀ a ∈ l, ∀ b ∈ l, cmp a b = .eq → a = b) : least cmp l = least cmp l' := by
  unfold least
  rw [sortBy_eq_of_perm hp hsep]

/-- A least entry of a list is the least entry of every sublist that still holds it. -/
theorem least_of_subset {a : α} (h : least cmp l = some a) (ha : a ∈ l') (hsub : ∀ b ∈ l', b ∈ l)
    (hsep : ∀ a ∈ l, ∀ b ∈ l, cmp a b = .eq → a = b) : least cmp l' = some a := by
  refine (least_eq_some_iff fun x hx y hy => hsep x (hsub x hx) y (hsub y hy)).mpr ⟨ha, ?_⟩
  exact fun b hb => least_isLE h (hsub b hb)

end Trans

/-! ### Sorting and mapping -/

/-- Sorting commutes with a map that preserves the comparison. -/
theorem map_sortBy {cmp' : β → β → Ordering} (f : α → β) (h : ∀ a b, cmp' (f a) (f b) = cmp a b)
    (l : List α) : (sortBy cmp l).map f = sortBy cmp' (l.map f) := by
  induction l with
  | nil => rfl
  | cons a l ih =>
    have hins : ∀ t : List α,
        (List.orderedInsert (fun a b => (cmp a b).isLE = true) a t).map f =
          List.orderedInsert (fun a b => (cmp' a b).isLE = true) (f a) (t.map f) := by
      intro t
      induction t with
      | nil => rfl
      | cons b t iht =>
        by_cases hab : (cmp a b).isLE = true
        · simp [List.orderedInsert, h, hab]
        · simp [List.orderedInsert, h, hab, iht]
    simp only [sortBy, List.insertionSort_cons, List.map_cons] at ih ⊢
    rw [hins, ih]

end Sorting
