import Mathlib.Data.List.Nodup
import Mathlib.Data.List.Range

/-!
# Tables with numbered rows

Tables whose rows are numbered in the order of their insertion, and the insertion that keeps the row
that is there already, as `insert … on conflict do nothing` followed by a `select` does.

## Main definitions

* `Tables.Numbered` — the rows are numbered from one.
* `Tables.insertOrFind` — insert a row unless one of its key is there.
* `Tables.Unique` — rows with a unique index, and what `on conflict do nothing` inserts.

## Main results

* `Tables.Numbered.eq_of_number_eq` — a number is that of one row only.
* `Tables.forall_found_iff` — what holds of a new row holds of the row an insertion ends with
  exactly when it holds of the row that was there.
* `Tables.Unique.mem_insertAll_iff` — of all rows, those are there that come first with their key.
* `Tables.nodup_filterMap_of_nodup_flatMap` — rows with keys of their own are different.
-/

namespace Tables

variable {α : Type*}

/-- The rows are numbered from one in the order of the table. -/
def Numbered (number : α → ℕ) (rows : List α) : Prop :=
  rows.map number = List.range' 1 rows.length

/-- Insert a row under the next number, unless a row of its key is there; the row of that key at the
end, and whether it is new. -/
def insertOrFind (hasKey : α → Prop) [DecidablePred hasKey] (make : ℕ → α) (rows : List α) :
    List α × α × Bool :=
  match rows.find? fun row => hasKey row with
  | some row => (rows, row, false)
  | none => (rows ++ [make (rows.length + 1)], make (rows.length + 1), true)

variable {number : α → ℕ} {rows : List α}

theorem Numbered.nil : Numbered number [] := rfl

/-- **A number is that of one row only.** -/
theorem Numbered.eq_of_number_eq (h : Numbered number rows) {a b : α} (ha : a ∈ rows)
    (hb : b ∈ rows) (hab : number a = number b) : a = b := by
  have hnodup : (rows.map number).Nodup := by
    rw [h]
    exact List.nodup_range'
  exact List.inj_on_of_nodup_map hnodup ha hb hab

/-- A table whose rows are changed under their numbers is numbered as before. -/
theorem Numbered.map (h : Numbered number rows) {f : α → α}
    (hf : ∀ a, number (f a) = number a) : Numbered number (rows.map f) := by
  unfold Numbered at h ⊢
  rw [List.map_map, List.length_map, ← h]
  exact List.map_congr_left fun a _ => hf a

section insertOrFind

variable {hasKey : α → Prop} [DecidablePred hasKey] {make : ℕ → α}

theorem numbered_insertOrFind (h : Numbered number rows) (hmake : ∀ n, number (make n) = n) :
    Numbered number (insertOrFind hasKey make rows).1 := by
  unfold insertOrFind
  cases rows.find? fun row => hasKey row with
  | some row => exact h
  | none =>
    unfold Numbered at h ⊢
    rw [List.map_append, h, List.map_cons, List.map_nil, hmake, List.length_append,
      List.length_singleton, List.range'_concat, Nat.one_mul, Nat.add_comm 1]

/-- The row an insertion ends with is in the table. -/
theorem row_mem_insertOrFind :
    (insertOrFind hasKey make rows).2.1 ∈ (insertOrFind hasKey make rows).1 := by
  unfold insertOrFind
  cases hfind : rows.find? fun row => hasKey row with
  | some row => exact List.mem_of_find?_eq_some hfind
  | none => exact List.mem_append_right _ List.mem_cons_self

/-- **What holds of a new row** holds of the row an insertion ends with exactly when it holds of the
row that was there. -/
theorem forall_found_iff (hasKey : α → Prop) [DecidablePred hasKey] (make : ℕ → α)
    {P : α → Prop} (hmake : ∀ n, P (make n)) :
    P (insertOrFind hasKey make rows).2.1 ↔
      ∀ row, (rows.find? fun row => hasKey row) = some row → P row := by
  unfold insertOrFind
  cases rows.find? fun row => hasKey row with
  | some row => exact ⟨fun h _ heq => Option.some.inj heq ▸ h, fun h => h row rfl⟩
  | none => exact iff_of_true (hmake _) fun _ heq => by cases heq

/-- **A row that is inserted again is found.** -/
theorem insertOrFind_again (hmake : ∀ n, hasKey (make n)) :
    (insertOrFind hasKey make (insertOrFind hasKey make rows).1).2.1 =
      (insertOrFind hasKey make rows).2.1 := by
  unfold insertOrFind
  cases hfind : rows.find? fun row => hasKey row with
  | some row => simp only [hfind]
  | none =>
    have hagain : (rows ++ [make (rows.length + 1)]).find? (fun row => decide (hasKey row)) =
        some (make (rows.length + 1)) := by
      rw [List.find?_append, hfind, Option.none_or]
      exact List.find?_cons_of_pos (decide_eq_true (hmake _))
    simp only [hagain]

end insertOrFind

/-! ### Unique indexes -/

/-- Rows with a unique index. -/
structure Unique {κ : Type*} (key : α → κ) where
  rows : List α
  distinct : (rows.map key).Nodup

namespace Unique

variable {κ : Type*} {key : α → κ}

/-- A table without rows. -/
def empty (key : α → κ) : Unique key := ⟨[], List.nodup_nil⟩

/-- Two rows with one key are one row. -/
theorem eq_of_key_eq (table : Unique key) {a b : α} (ha : a ∈ table.rows) (hb : b ∈ table.rows)
    (hab : key a = key b) : a = b :=
  List.inj_on_of_nodup_map table.distinct ha hb hab

/-- A row with a key of its own is added. -/
theorem distinct_append {rows : List α} (h : (rows.map key).Nodup) {a : α}
    (ha : key a ∉ rows.map key) : ((rows ++ [a]).map key).Nodup := by
  rw [List.map_append, List.map_singleton, List.nodup_append']
  exact ⟨h, List.nodup_singleton _, List.disjoint_singleton.mpr ha⟩

variable [DecidableEq κ]

/-- `insert … on conflict do nothing`. -/
def insert (table : Unique key) (a : α) : Unique key :=
  if h : key a ∈ table.rows.map key then table
  else ⟨table.rows ++ [a], distinct_append table.distinct h⟩

/-- Several rows are inserted in turn. -/
def insertAll (table : Unique key) (rows : List α) : Unique key := rows.foldl insert table

variable (table : Unique key)

theorem insertAll_append (rows rows' : List α) :
    table.insertAll (rows ++ rows') = (table.insertAll rows).insertAll rows' :=
  List.foldl_append

theorem insert_of_mem {a : α} (h : key a ∈ table.rows.map key) : table.insert a = table :=
  dif_pos h

theorem insert_of_notMem {a : α} (h : key a ∉ table.rows.map key) :
    table.insert a = ⟨table.rows ++ [a], distinct_append table.distinct h⟩ :=
  dif_neg h

/-- What a key is looked up with, after an insertion. -/
theorem find?_insert (a : α) (k : κ) : (table.insert a).rows.find? (fun b => key b = k) =
    (table.rows ++ [a]).find? fun b => key b = k := by
  by_cases h : key a ∈ table.rows.map key
  · rw [insert_of_mem table h, List.find?_append]
    cases hfind : table.rows.find? fun b => key b = k with
    | some b => rfl
    | none =>
      obtain ⟨b, hb, hab⟩ := List.mem_map.mp h
      have hne : key a ≠ k := fun hak =>
        absurd (hab.trans hak) (by simpa using List.find?_eq_none.mp hfind b hb)
      rw [Option.none_or, List.find?_cons_of_neg (by simpa using hne)]
      rfl
  · rw [insert_of_notMem table h]

theorem find?_insertAll (rows : List α) (k : κ) : ∀ table : Unique key,
    (table.insertAll rows).rows.find? (fun b => key b = k) =
      (table.rows ++ rows).find? fun b => key b = k := by
  induction rows with
  | nil => exact fun table => by rw [List.append_nil]; rfl
  | cons a rows ih =>
    intro table
    show ((table.insert a).insertAll rows).rows.find? _ = _
    rw [ih, List.find?_append, find?_insert, ← List.find?_append, ← List.append_cons]

theorem mem_iff_find? {a : α} :
    a ∈ table.rows ↔ table.rows.find? (fun b => key b = key a) = some a := by
  refine ⟨fun ha => ?_, List.mem_of_find?_eq_some⟩
  cases hfind : table.rows.find? fun b => key b = key a with
  | none => exact absurd (decide_eq_true rfl) (List.find?_eq_none.mp hfind a ha)
  | some b =>
    have hkey := List.find?_some hfind
    rw [decide_eq_true_eq] at hkey
    rw [table.eq_of_key_eq (List.mem_of_find?_eq_some hfind) ha hkey]

/-- **The rows that are there** after several have been inserted: of all rows, those that come first
with their key. -/
theorem mem_insertAll_iff (rows : List α) {a : α} : a ∈ (table.insertAll rows).rows ↔
    (table.rows ++ rows).find? (fun b => key b = key a) = some a := by
  rw [mem_iff_find?, find?_insertAll]

end Unique

/-- Rows that each have a key of their own, among keys that are all different, are different. -/
theorem nodup_filterMap_of_nodup_flatMap {β κ : Type*} {f : α → List κ} {g : α → Option β}
    (c : β → κ) {l : List α} (hnodup : (l.flatMap f).Nodup)
    (hkey : ∀ a ∈ l, ∀ b, g a = some b → c b ∈ f a) : (l.filterMap g).Nodup := by
  induction l with
  | nil => exact List.nodup_nil
  | cons a l ih =>
    rw [List.flatMap_cons] at hnodup
    obtain ⟨-, htail, hdisjoint⟩ := List.nodup_append'.mp hnodup
    have hrest := ih htail fun x hx => hkey x (List.mem_cons_of_mem _ hx)
    rw [List.filterMap_cons]
    cases hg : g a with
    | none => exact hrest
    | some b =>
      refine List.nodup_cons.mpr ⟨fun hmem => ?_, hrest⟩
      obtain ⟨x, hx, hgx⟩ := List.mem_filterMap.mp hmem
      exact hdisjoint (hkey a List.mem_cons_self b hg)
        (List.mem_flatMap.mpr ⟨x, hx, hkey x (List.mem_cons_of_mem _ hx) b hgx⟩)

end Tables
