import Mathlib.Data.List.Basic
import Mathlib.Data.List.Dedup
import Mathlib.Data.List.Nodup
import Mathlib.Data.List.Induction

/-!
# Insertion-ordered maps

A map that iterates in the order in which its keys were first set, as the `Map` of JavaScript does:
setting a key again replaces its value in place.

## Main definitions

* `JsMap` — the entries of such a map in iteration order.
* `JsMap.set`, `JsMap.get?`, `JsMap.ofEntries`, `JsMap.values`, `JsMap.keys`.
* `JsMap.setUnlessOther` — setting a key that may not hold another value.
* `JsMap.groupBy` — the elements of a list by a key.
* `JsMap.ofHighest` — a map that keeps for each key the values of the highest rank.

## Main results

* `JsMap.get?_ofEntries_append_cons` — the last entry set for a key is the one read back.
* `JsMap.mem_values_ofEntries` — the values of a map built from entries are those set last for
  their key.
* `JsMap.nodup_keys_ofEntries` — a map built from entries has distinct keys.
* `JsMap.foldlM_setUnlessOther` — entries can all be set, refusing second values, exactly when no
  two give one key different values.
* `JsMap.holdsHighest_get?` — a key holds the values that no other one of the key outranks.
* `JsMap.flatMap_ofHighest_perm`, `JsMap.ofHighest_flatMap` — together these are the values that are
  not outranked, of which the same map is built again.
-/

/-- The entries of an insertion-ordered map, in iteration order. -/
abbrev JsMap (κ α : Type*) := List (κ × α)

namespace JsMap

variable {κ α : Type*} [DecidableEq κ]

/-- Set a key: in place when it is already there, at the end otherwise. -/
def set : JsMap κ α → κ → α → JsMap κ α
  | [], k, v => [(k, v)]
  | (k', v') :: m, k, v => if k' = k then (k, v) :: m else (k', v') :: set m k v

/-- The value of a key. -/
def get? : JsMap κ α → κ → Option α
  | [], _ => none
  | (k', v) :: m, k => if k' = k then some v else get? m k

/-- Whether a key is set. -/
def has (m : JsMap κ α) (k : κ) : Bool := (m.get? k).isSome

/-- The map after setting the entries of a list in turn. -/
def ofEntries (l : List (κ × α)) : JsMap κ α :=
  l.foldl (fun m e => m.set e.1 e.2) []

/-- The map after setting the entries of a list in turn, each only when its key is not set yet. -/
def ofFirstEntries (l : List (κ × α)) : JsMap κ α :=
  l.foldl (fun m e => if m.has e.1 then m else m.set e.1 e.2) []

omit [DecidableEq κ] in
/-- The keys in iteration order. -/
def keys (m : JsMap κ α) : List κ := m.map Prod.fst

omit [DecidableEq κ] in
/-- The values in iteration order. -/
def values (m : JsMap κ α) : List α := m.map Prod.snd

/-! ### Reading after one write -/

@[simp] theorem get?_nil (k : κ) : get? ([] : JsMap κ α) k = none := rfl

theorem get?_set (m : JsMap κ α) (k k' : κ) (v : α) :
    (m.set k v).get? k' = if k = k' then some v else m.get? k' := by
  induction m with
  | nil => by_cases h : k = k' <;> simp [set, get?, h]
  | cons e m ih =>
    obtain ⟨ke, ve⟩ := e
    by_cases hk : ke = k
    · subst hk
      by_cases h : ke = k' <;> simp [set, get?, h]
    · by_cases h : ke = k'
      · subst h
        simp [set, get?, hk, Ne.symm hk]
      · simp only [set, hk, if_false, get?, h, ih]

theorem mem_keys_set (m : JsMap κ α) (k k' : κ) (v : α) :
    k' ∈ (m.set k v).keys ↔ k' = k ∨ k' ∈ m.keys := by
  induction m with
  | nil => simp [set, keys]
  | cons e m ih =>
    obtain ⟨ke, ve⟩ := e
    by_cases hk : ke = k
    · subst hk
      simp [set, keys]
    · simp only [keys, set, hk, if_false, List.map_cons, List.mem_cons] at ih ⊢
      rw [ih]
      tauto

variable {m : JsMap κ α} {k : κ} {v a : α} {l : List (κ × α)}

theorem nodup_keys_set (h : m.keys.Nodup) (k : κ) (v : α) :
    (m.set k v).keys.Nodup := by
  induction m with
  | nil => simp [set, keys]
  | cons e m ih =>
    obtain ⟨ke, ve⟩ := e
    obtain ⟨hnot, hm⟩ := List.nodup_cons.mp h
    by_cases hk : ke = k
    · subst hk
      simpa [set, keys] using ⟨by simpa [keys] using hnot, hm⟩
    · have hset := ih hm
      have hmem := mem_keys_set m k ke v
      simp only [keys, set, hk, if_false, List.map_cons, List.nodup_cons] at hset hmem ⊢
      exact ⟨fun hin => hnot ((hmem.mp hin).resolve_left not_false), hset⟩

theorem mem_of_get? (h : m.get? k = some v) :
    (k, v) ∈ m := by
  induction m with
  | nil => cases h
  | cons e m ih =>
    obtain ⟨k', v'⟩ := e
    rw [get?] at h
    split_ifs at h with hk
    · rw [hk, Option.some.inj h]
      exact List.mem_cons_self
    · exact List.mem_cons_of_mem _ (ih h)

/-- The value of a key among the entries that are kept. -/
theorem get?_filter (h : m.keys.Nodup) (p : κ × α → Bool) (k : κ) :
    get? (m.filter p) k = (m.get? k).filter fun v => p (k, v) := by
  induction m with
  | nil => rfl
  | cons e m ih =>
    obtain ⟨ke, ve⟩ := e
    obtain ⟨hnot, hm⟩ := List.nodup_cons.mp h
    have hrest : ke = k → get? (m.filter p) k = none := by
      rintro rfl
      cases hget : get? (m.filter p) ke with
      | none => rfl
      | some v =>
        refine absurd (List.mem_map.mpr ⟨(ke, v), ?_, rfl⟩) hnot
        exact List.mem_of_mem_filter (mem_of_get? hget)
    by_cases hp : p (ke, ve) = true
    · rw [List.filter_cons_of_pos hp, get?, get?]
      by_cases hk : ke = k
      · subst hk
        rw [if_pos rfl, if_pos rfl, Option.filter_some, if_pos hp]
      · rw [if_neg hk, if_neg hk, ih hm]
    · rw [List.filter_cons_of_neg hp, get?]
      by_cases hk : ke = k
      · subst hk
        rw [if_pos rfl, hrest rfl, Option.filter_some, if_neg hp]
      · rw [if_neg hk, ih hm]

/-! ### Maps built from entries -/

theorem ofEntries_append_singleton (l : List (κ × α)) (e : κ × α) :
    ofEntries (l ++ [e]) = (ofEntries l).set e.1 e.2 := by
  simp [ofEntries]

theorem nodup_keys_ofEntries (l : List (κ × α)) : (ofEntries l).keys.Nodup := by
  induction l using List.reverseRecOn with
  | nil => simp [ofEntries, keys]
  | append_singleton l e ih =>
    rw [ofEntries_append_singleton]
    exact nodup_keys_set ih _ _

theorem mem_keys_ofEntries (l : List (κ × α)) (k : κ) :
    k ∈ (ofEntries l).keys ↔ k ∈ l.map Prod.fst := by
  induction l using List.reverseRecOn with
  | nil => simp [ofEntries, keys]
  | append_singleton l e ih =>
    rw [ofEntries_append_singleton, mem_keys_set, ih]
    simp [or_comm, eq_comm]

omit [DecidableEq κ] in
theorem mem_iff_get? [DecidableEq κ] (h : m.keys.Nodup) (k : κ) (v : α) :
    (k, v) ∈ m ↔ m.get? k = some v := by
  induction m with
  | nil => simp
  | cons e m ih =>
    obtain ⟨ke, ve⟩ := e
    obtain ⟨hnot, hm⟩ := List.nodup_cons.mp h
    by_cases hk : ke = k
    · subst hk
      have hv : (ke, v) ∉ m := fun hin => hnot (List.mem_map.mpr ⟨(ke, v), hin, rfl⟩)
      simp [get?, hv, eq_comm]
    · simp [get?, hk, ih hm, Ne.symm hk]

theorem get?_ofEntries_eq_none_iff (l : List (κ × α)) (k : κ) :
    (ofEntries l).get? k = none ↔ k ∉ l.map Prod.fst := by
  induction l using List.reverseRecOn with
  | nil => simp [ofEntries]
  | append_singleton l e ih =>
    rw [ofEntries_append_singleton, get?_set]
    by_cases h : e.1 = k
    · simp [h]
    · simp only [h, if_false, ih, List.map_append, List.mem_append, List.map_cons, List.map_nil,
        List.mem_singleton, Ne.symm h, or_false]

/-- The last entry set for a key is the one read back. -/
theorem get?_ofEntries_append_cons (pre post : List (κ × α)) (k : κ) (v : α)
    (h : k ∉ post.map Prod.fst) : (ofEntries (pre ++ (k, v) :: post)).get? k = some v := by
  induction post using List.reverseRecOn with
  | nil => simp [ofEntries_append_singleton, get?_set]
  | append_singleton post e ih =>
    simp only [List.map_append, List.map_cons, List.map_nil, List.mem_append, List.mem_singleton,
      not_or] at h
    rw [← List.cons_append, ← List.append_assoc, ofEntries_append_singleton, get?_set,
      if_neg (Ne.symm h.2), ih h.1]

/-- A value read back was set by an entry that no later entry overwrites. -/
theorem get?_ofEntries_eq_some_iff (l : List (κ × α)) (k : κ) (v : α) :
    (ofEntries l).get? k = some v ↔
      ∃ pre post, l = pre ++ (k, v) :: post ∧ k ∉ post.map Prod.fst := by
  constructor
  · intro h
    induction l using List.reverseRecOn with
    | nil => simp [ofEntries] at h
    | append_singleton l e ih =>
      rw [ofEntries_append_singleton, get?_set] at h
      by_cases hk : e.1 = k
      · simp only [hk, if_true, Option.some.injEq] at h
        exact ⟨l, [], by simp [← hk, ← h], by simp⟩
      · rw [if_neg hk] at h
        obtain ⟨pre, post, rfl, hpost⟩ := ih h
        refine ⟨pre, post ++ [e], by simp, ?_⟩
        simpa [hpost] using Ne.symm hk
  · rintro ⟨pre, post, rfl, h⟩
    exact get?_ofEntries_append_cons pre post k v h

/-- **The values of a map built from entries** are those set last for their key. -/
theorem mem_values_ofEntries (l : List (κ × α)) (v : α) :
    v ∈ (ofEntries l).values ↔
      ∃ k pre post, l = pre ++ (k, v) :: post ∧ k ∉ post.map Prod.fst := by
  constructor
  · intro h
    obtain ⟨⟨k, w⟩, hmem, rfl⟩ := List.mem_map.mp h
    have hget := (mem_iff_get? (nodup_keys_ofEntries l) k w).mp hmem
    exact ⟨k, (get?_ofEntries_eq_some_iff l k w).mp hget⟩
  · rintro ⟨k, hk⟩
    have hget := (get?_ofEntries_eq_some_iff l k v).mpr hk
    exact List.mem_map.mpr ⟨(k, v), (mem_iff_get? (nodup_keys_ofEntries l) k v).mpr hget, rfl⟩

/-- A record is kept under its key when no later record has that key. -/
theorem mem_values_ofEntries_map {key : α → κ} {l : List α} :
    a ∈ (ofEntries (l.map fun x => (key x, x))).values ↔
      ∃ pre post, l = pre ++ a :: post ∧ ∀ b ∈ post, key b ≠ key a := by
  rw [mem_values_ofEntries]
  constructor
  · rintro ⟨k, pre, post, heq, hnot⟩
    obtain ⟨pre', rest, rfl, rfl, hrest⟩ := List.map_eq_append_iff.mp heq
    obtain ⟨a', post', rfl, ha', rfl⟩ := List.map_eq_cons_iff.mp hrest
    cases ha'
    refine ⟨pre', post', rfl, fun b hb hkey => hnot ?_⟩
    exact List.mem_map.mpr ⟨(key b, b), List.mem_map.mpr ⟨b, hb, rfl⟩, hkey⟩
  · rintro ⟨pre, post, rfl, hnot⟩
    refine ⟨key a, pre.map fun x => (key x, x), post.map fun x => (key x, x), by simp, ?_⟩
    simpa using fun b hb => hnot b hb

/-- Each record has a record kept under its key. -/
theorem exists_mem_values_ofEntries_map (key : α → κ) {l : List α} (h : a ∈ l) :
    ∃ b ∈ (ofEntries (l.map fun x => (key x, x))).values, key b = key a := by
  have hkey : key a ∈ (ofEntries (l.map fun x => (key x, x))).keys := by
    rw [mem_keys_ofEntries, List.map_map]
    exact List.mem_map.mpr ⟨a, h, rfl⟩
  obtain ⟨⟨k, b⟩, hentry, rfl⟩ := List.mem_map.mp hkey
  have hget := (mem_iff_get? (nodup_keys_ofEntries _) _ _).mp hentry
  obtain ⟨pre, post, heq, -⟩ := (get?_ofEntries_eq_some_iff _ _ _).mp hget
  have hmem : (key a, b) ∈ l.map fun x => (key x, x) := by simp [heq]
  obtain ⟨x, -, hx⟩ := List.mem_map.mp hmem
  obtain ⟨hk, rfl⟩ := Prod.mk.inj hx
  exact ⟨x, List.mem_map.mpr ⟨_, hentry, rfl⟩, hk⟩

/-- Setting a key for the first time adds it at the end. -/
theorem set_of_notMem (h : k ∉ m.keys) (v : α) :
    m.set k v = m ++ [(k, v)] := by
  induction m with
  | nil => rfl
  | cons e m ih =>
    simp only [keys, List.map_cons, List.mem_cons, not_or] at h
    rw [set, if_neg (Ne.symm h.1), ih h.2]
    rfl

/-- A key that is last is set in place. -/
theorem set_append_singleton (h : k ∉ m.keys) (v w : α) :
    (m ++ [(k, v)] : JsMap κ α).set k w = m ++ [(k, w)] := by
  induction m with
  | nil => simp [set]
  | cons e m ih =>
    simp only [keys, List.map_cons, List.mem_cons, not_or] at h
    rw [List.cons_append, set, if_neg (Ne.symm h.1), ih h.2]
    rfl

theorem get?_append_singleton (h : k ∉ m.keys) (v : α) :
    (m ++ [(k, v)] : JsMap κ α).get? k = some v := by
  induction m with
  | nil => simp [get?]
  | cons e m ih =>
    simp only [keys, List.map_cons, List.mem_cons, not_or] at h
    rw [List.cons_append, get?, if_neg (Ne.symm h.1), ih h.2]

/-- Entries with distinct keys are kept as they are. -/
theorem ofEntries_of_nodup (h : (l.map Prod.fst).Nodup) : ofEntries l = l := by
  induction l using List.reverseRecOn with
  | nil => rfl
  | append_singleton l e ih =>
    rw [List.map_append, List.nodup_append] at h
    have hnot : e.1 ∉ keys l := fun hin => h.2.2 e.1 hin e.1 (by simp) rfl
    rw [ofEntries_append_singleton, ih h.1, set_of_notMem hnot]

/-! ### Maps that keep the first entry of a key -/

theorem ofFirstEntries_append_singleton (l : List (κ × α)) (e : κ × α) :
    ofFirstEntries (l ++ [e]) =
      if (ofFirstEntries l).has e.1 then ofFirstEntries l else (ofFirstEntries l).set e.1 e.2 := by
  rw [ofFirstEntries, List.foldl_append]
  rfl

theorem has_iff_mem_keys (m : JsMap κ α) (k : κ) : m.has k = true ↔ k ∈ m.keys := by
  induction m with
  | nil => simp [has, get?, keys]
  | cons e m ih =>
    obtain ⟨ke, ve⟩ := e
    simp only [has, keys] at ih ⊢
    by_cases h : ke = k
    · simp [get?, h]
    · simp [get?, h, ih, Ne.symm h]

/-- The keys are those of the list. -/
theorem mem_keys_ofFirstEntries (l : List (κ × α)) (k : κ) :
    k ∈ (ofFirstEntries l).keys ↔ k ∈ l.map Prod.fst := by
  induction l using List.reverseRecOn with
  | nil => simp [ofFirstEntries, keys]
  | append_singleton l e ih =>
    rw [ofFirstEntries_append_singleton]
    by_cases h : (ofFirstEntries l).has e.1 = true
    · rw [if_pos h, ih]
      have hmem := ih
      rw [has_iff_mem_keys] at h
      simp only [List.map_append, List.mem_append, List.map_cons, List.map_nil,
        List.mem_singleton]
      refine ⟨Or.inl, ?_⟩
      rintro (hk | rfl)
      · exact hk
      · exact hmem.mp h
    · rw [if_neg h, mem_keys_set, ih]
      simp [or_comm, eq_comm]

theorem mem_set {e : κ × α} (h : e ∈ m.set k v) :
    e = (k, v) ∨ e ∈ m := by
  induction m with
  | nil => simpa [set] using h
  | cons e' m ih =>
    obtain ⟨ke, ve⟩ := e'
    by_cases hk : ke = k
    · simp only [set, hk, if_true, List.mem_cons] at h
      rcases h with h | h
      · exact Or.inl h
      · exact Or.inr (List.mem_cons_of_mem _ h)
    · simp only [set, hk, if_false, List.mem_cons] at h
      rcases h with h | h
      · exact Or.inr (h ▸ List.mem_cons_self)
      · exact (ih h).imp_right (List.mem_cons_of_mem _)

/-- The entries of the map are entries of the list. -/
theorem mem_of_mem_ofFirstEntries {e : κ × α} (h : e ∈ ofFirstEntries l) :
    e ∈ l := by
  induction l using List.reverseRecOn with
  | nil => simp [ofFirstEntries] at h
  | append_singleton l e' ih =>
    rw [ofFirstEntries_append_singleton] at h
    split at h
    · exact List.mem_append_left _ (ih h)
    · rcases mem_set h with rfl | h
      · simp
      · exact List.mem_append_left _ (ih h)

theorem nodup_keys_ofFirstEntries (l : List (κ × α)) : (ofFirstEntries l).keys.Nodup := by
  induction l using List.reverseRecOn with
  | nil => exact List.nodup_nil
  | append_singleton l e ih =>
    rw [ofFirstEntries_append_singleton]
    split
    · exact ih
    · exact nodup_keys_set ih e.1 e.2

/-- Among records of which no two differ that have the same key, each is kept. -/
theorem mem_values_ofFirstEntries_map {key : α → κ} {l : List α}
    (h : ∀ a ∈ l, ∀ b ∈ l, key a = key b → a = b) :
    a ∈ (ofFirstEntries (l.map fun x => (key x, x))).values ↔ a ∈ l := by
  constructor
  · intro hmem
    obtain ⟨e, he, rfl⟩ := List.mem_map.mp hmem
    obtain ⟨b, hb, rfl⟩ := List.mem_map.mp (mem_of_mem_ofFirstEntries he)
    exact hb
  · intro hmem
    have hkey : key a ∈ (ofFirstEntries (l.map fun x => (key x, x))).keys := by
      rw [mem_keys_ofFirstEntries, List.map_map]
      exact List.mem_map.mpr ⟨a, hmem, rfl⟩
    obtain ⟨e, he, heq⟩ := List.mem_map.mp hkey
    obtain ⟨b, hb, rfl⟩ := List.mem_map.mp (mem_of_mem_ofFirstEntries he)
    obtain rfl := h b hb a hmem heq
    exact List.mem_map.mpr ⟨_, he, rfl⟩

/-- Records that are kept by their first key have different keys. -/
theorem nodup_map_values_ofFirstEntries_map (key : α → κ) (l : List α) :
    ((ofFirstEntries (l.map fun x => (key x, x))).values.map key).Nodup := by
  have hkeys : (ofFirstEntries (l.map fun x => (key x, x))).values.map key =
      (ofFirstEntries (l.map fun x => (key x, x))).keys := by
    rw [values, keys, List.map_map]
    refine List.map_congr_left fun e he => ?_
    obtain ⟨b, -, rfl⟩ := List.mem_map.mp (mem_of_mem_ofFirstEntries he)
    rfl
  rw [hkeys]
  exact nodup_keys_ofFirstEntries _

/-! ### Maps that refuse a second value -/

/-- Set a key unless it holds another value. -/
def setUnlessOther [DecidableEq α] (m : JsMap κ α) (k : κ) (v : α) : Option (JsMap κ α) :=
  if ∃ previous ∈ m.get? k, previous ≠ v then none else some (m.set k v)

omit [DecidableEq κ] in
/-- Entries of which no two give one key different values. -/
def Functional (l : List (κ × α)) : Prop := ∀ e ∈ l, ∀ e' ∈ l, e.1 = e'.1 → e.2 = e'.2

/-- In a map built from functional entries a key holds the value of each entry for it. -/
theorem get?_ofEntries_of_functional (h : Functional l) (k : κ) (v : α) :
    (ofEntries l).get? k = some v ↔ (k, v) ∈ l := by
  constructor
  · intro hget
    obtain ⟨pre, post, rfl, -⟩ := (get?_ofEntries_eq_some_iff l k v).mp hget
    simp
  · intro hmem
    cases hget : (ofEntries l).get? k with
    | none =>
      rw [get?_ofEntries_eq_none_iff] at hget
      exact absurd (List.mem_map.mpr ⟨(k, v), hmem, rfl⟩) hget
    | some w =>
      obtain ⟨pre, post, heq, -⟩ := (get?_ofEntries_eq_some_iff l k w).mp hget
      have hw : (k, w) ∈ l := by simp [heq]
      exact congrArg some (h _ hw _ hmem rfl)

/-- **Setting entries in turn, refusing second values**, succeeds when the entries are functional,
and then makes the map built from all of them.
**Proof sketch.** Induction on the entries still to be set; the map so far is built from the
functional entries before them. -/
theorem foldlM_setUnlessOther [DecidableEq α] {pre : List (κ × α)} (h : Functional pre) :
    l.foldlM (fun m e => m.setUnlessOther e.1 e.2) (ofEntries pre) = some m ↔
      Functional (pre ++ l) ∧ m = ofEntries (pre ++ l) := by
  induction l generalizing pre with
  | nil => simp [h, eq_comm]
  | cons e l ih =>
    have happend : pre ++ e :: l = (pre ++ [e]) ++ l := by simp
    rw [List.foldlM_cons, happend]
    by_cases hother : ∃ previous ∈ (ofEntries pre).get? e.1, previous ≠ e.2
    · obtain ⟨previous, hprevious, hne⟩ := hother
      have hmem : (e.1, previous) ∈ pre := (get?_ofEntries_of_functional h _ _).mp hprevious
      rw [setUnlessOther, if_pos ⟨previous, hprevious, hne⟩]
      simp only [Option.bind_eq_bind, Option.bind_none, reduceCtorEq, false_iff, not_and]
      intro hall
      exact absurd (hall (e.1, previous) (by simp [hmem]) e (by simp) rfl) hne
    · have hpre : Functional (pre ++ [e]) := by
        have hagree : ∀ a ∈ pre, a.1 = e.1 → a.2 = e.2 := by
          intro a ha heq
          by_contra hne
          exact hother ⟨a.2, (get?_ofEntries_of_functional h _ _).mpr (heq ▸ ha), hne⟩
        intro a ha b hb hab
        simp only [List.mem_append, List.mem_singleton] at ha hb
        rcases ha with ha | rfl <;> rcases hb with hb | rfl
        · exact h a ha b hb hab
        · exact hagree a ha hab
        · exact (hagree b hb hab.symm).symm
        · rfl
      rw [setUnlessOther, if_neg hother]
      simp only [Option.bind_eq_bind, Option.bind_some]
      rw [← ofEntries_append_singleton]
      exact ih hpre

/-- What a map holds after a value is set that no other value may precede. -/
theorem get?_setUnlessOther [DecidableEq α] {m' : JsMap κ α} (h : m.setUnlessOther k v = some m')
    (k' : κ) (v' : α) :
    m'.get? k' = some v' ↔ m.get? k' = some v' ∨ (k' = k ∧ v' = v) := by
  rw [setUnlessOther, Option.ite_none_left_eq_some] at h
  obtain ⟨hother, heq⟩ := h
  cases heq
  rw [get?_set]
  by_cases hk : k' = k
  · rw [if_pos hk.symm]
    constructor
    · intro hv
      exact Or.inr ⟨hk, (Option.some.inj hv).symm⟩
    · rintro (hget | ⟨-, rfl⟩)
      · rw [hk] at hget
        by_contra hne
        exact hother ⟨v', hget, fun heq => hne (by rw [heq])⟩
      · rfl
  · rw [if_neg (Ne.symm hk)]
    simp [hk]

theorem nodup_keys_setUnlessOther [DecidableEq α] {m' : JsMap κ α}
    (h : m.setUnlessOther k v = some m') (hm : m.keys.Nodup) : m'.keys.Nodup := by
  rw [setUnlessOther, Option.ite_none_left_eq_some] at h
  cases h.2
  exact nodup_keys_set hm k v

section Folds

variable {ε : Type*} {β : Type*} {step : JsMap κ α → β → Except ε (JsMap κ α)}

/-- A map filled step by step holds what it held before and what the steps add. -/
theorem get?_foldlM {R : β → κ → α → Prop}
    (hstep : ∀ m b m', step m b = .ok m' →
      ∀ k v, m'.get? k = some v ↔ m.get? k = some v ∨ R b k v)
    {l : List β} {m m' : JsMap κ α} (h : l.foldlM step m = .ok m') (k : κ) (v : α) :
    m'.get? k = some v ↔ m.get? k = some v ∨ ∃ b ∈ l, R b k v := by
  induction l generalizing m with
  | nil =>
    cases h
    simp
  | cons b l ih =>
    rw [List.foldlM_cons] at h
    cases hb : step m b with
    | error e =>
      rw [hb] at h
      cases h
    | ok next =>
      rw [hb] at h
      rw [ih h, hstep m b next hb, List.exists_mem_cons_iff, or_assoc]

omit [DecidableEq κ] in
/-- A map filled step by step has distinct keys when each step keeps them distinct. -/
theorem nodup_keys_foldlM
    (hstep : ∀ m b m', step m b = .ok m' → m.keys.Nodup → m'.keys.Nodup)
    {l : List β} {m m' : JsMap κ α} (h : l.foldlM step m = .ok m') (hm : m.keys.Nodup) :
    m'.keys.Nodup := by
  induction l generalizing m with
  | nil =>
    cases h
    exact hm
  | cons b l ih =>
    rw [List.foldlM_cons] at h
    cases hb : step m b with
    | error e =>
      rw [hb] at h
      cases h
    | ok next =>
      rw [hb] at h
      exact ih h (hstep m b next hb hm)

end Folds

theorem mem_values_iff_get? {m : JsMap κ α} (h : m.keys.Nodup) (v : α) :
    v ∈ m.values ↔ ∃ k, m.get? k = some v := by
  simp only [values, List.mem_map, ← mem_iff_get? h]
  constructor
  · rintro ⟨⟨k, w⟩, he, rfl⟩
    exact ⟨k, he⟩
  · rintro ⟨k, he⟩
    exact ⟨(k, v), he, rfl⟩

omit [DecidableEq κ] in
/-- The entries with their values mapped. -/
def mapValues {β : Type*} (f : α → β) (m : JsMap κ α) : JsMap κ β := m.map fun e => (e.1, f e.2)

theorem set_mapValues {β : Type*} (f : α → β) (m : JsMap κ α) (k : κ) (v : α) :
    set (mapValues f m) k (f v) = mapValues f (set m k v) := by
  induction m with
  | nil => rfl
  | cons e m ih =>
    obtain ⟨k', v'⟩ := e
    unfold mapValues at ih ⊢
    by_cases hk : k' = k
    · simp [set, hk]
    · simpa [set, hk] using ih

/-- A map built from mapped values holds the mapped values. -/
theorem ofEntries_mapValues {β : Type*} (f : α → β) (l : List (κ × α)) :
    ofEntries (mapValues f l) = mapValues f (ofEntries l) := by
  induction l using List.reverseRecOn with
  | nil => rfl
  | append_singleton l e ih =>
    have happend : mapValues f (l ++ [e]) = mapValues f l ++ [(e.1, f e.2)] := by
      simp [mapValues]
    rw [happend, ofEntries_append_singleton, ih, set_mapValues, ofEntries_append_singleton]

/-- The keys of a map built from entries are the distinct keys of the entries. -/
theorem length_ofEntries (l : List (κ × α)) :
    (ofEntries l).length = (l.map Prod.fst).dedup.length := by
  have hperm : (ofEntries l).keys.Perm (l.map Prod.fst).dedup :=
    (List.perm_ext_iff_of_nodup (nodup_keys_ofEntries l) (List.nodup_dedup _)).mpr fun k => by
      rw [mem_keys_ofEntries, List.mem_dedup]
  simpa [keys] using hperm.length_eq

/-- An entry of the map is an entry of the list. -/
theorem mem_of_mem_ofEntries {l : List (κ × α)} {e : κ × α} (h : e ∈ ofEntries l) : e ∈ l := by
  obtain ⟨k, v⟩ := e
  have hget := (mem_iff_get? (nodup_keys_ofEntries l) k v).mp h
  obtain ⟨pre, post, rfl, -⟩ := (get?_ofEntries_eq_some_iff l k v).mp hget
  simp

/-! ### Maps that keep the highest values of a key -/

/-- Add a value to those of a key, unless they are of a higher rank; those of a lower rank go. -/
def addHighest (m : JsMap κ (List α × ℕ)) (k : κ) (rank : ℕ) (a : α) : JsMap κ (List α × ℕ) :=
  match m.get? k with
  | none => m.set k ([a], rank)
  | some (as, current) =>
    if current < rank then m.set k ([a], rank)
    else if rank = current then m.set k (as ++ [a], current)
    else m

/-- The map of the values of a list, each under its key and by its rank. -/
def ofHighest (rankOf : α → Option (κ × ℕ)) (l : List α) : JsMap κ (List α × ℕ) :=
  l.foldl (fun m a =>
    match rankOf a with
    | none => m
    | some (k, rank) => m.addHighest k rank a) []

section Highest

variable {rankOf : α → Option (κ × ℕ)} {l : List α} {k : κ}

theorem get?_addHighest (m : JsMap κ (List α × ℕ)) (k k' : κ) (rank : ℕ) (a : α) :
    (m.addHighest k rank a).get? k' =
      if k = k' then
        match m.get? k with
        | none => some ([a], rank)
        | some (as, current) =>
          if current < rank then some ([a], rank)
          else if rank = current then some (as ++ [a], current)
          else some (as, current)
      else m.get? k' := by
  unfold addHighest
  split
  next hnone => rw [get?_set]
  next as current hsome =>
    split_ifs with hlt heq hkey <;> simp_all [get?_set]

theorem ofHighest_concat (rankOf : α → Option (κ × ℕ)) (l : List α) (a : α) :
    ofHighest rankOf (l ++ [a]) =
      match rankOf a with
      | none => ofHighest rankOf l
      | some (k, rank) => (ofHighest rankOf l).addHighest k rank a := by
  rw [ofHighest, List.foldl_append]
  rfl

theorem nodup_keys_addHighest {m : JsMap κ (List α × ℕ)} (h : m.keys.Nodup) (k : κ) (rank : ℕ)
    (a : α) : (m.addHighest k rank a).keys.Nodup := by
  unfold addHighest
  split
  next => exact nodup_keys_set h _ _
  next =>
    split_ifs
    · exact nodup_keys_set h _ _
    · exact nodup_keys_set h _ _
    · exact h

theorem nodup_keys_ofHighest (rankOf : α → Option (κ × ℕ)) (l : List α) :
    (ofHighest rankOf l).keys.Nodup := by
  induction l using List.reverseRecOn with
  | nil => exact List.nodup_nil
  | append_singleton l a ih =>
    rw [ofHighest_concat]
    split
    next => exact ih
    next => exact nodup_keys_addHighest ih _ _ _

/-- What a key holds: all values of it that have the rank, and nothing of the key is ranked
higher. -/
def HoldsHighest (rankOf : α → Option (κ × ℕ)) (l : List α) (k : κ) : Option (List α × ℕ) → Prop
  | none => ∀ a ∈ l, ∀ rank, rankOf a ≠ some (k, rank)
  | some (as, highest) => (∃ a ∈ l, rankOf a = some (k, highest)) ∧
      (∀ a ∈ l, ∀ rank, rankOf a = some (k, rank) → rank ≤ highest) ∧
      ∀ a, a ∈ as ↔ a ∈ l ∧ rankOf a = some (k, highest)

omit [DecidableEq κ] in
/-- A value of another key, or of none, changes nothing for a key. -/
theorem HoldsHighest.concat_of_ne {held : Option (List α × ℕ)} (h : HoldsHighest rankOf l k held)
    {a : α} (hne : ∀ rank, rankOf a ≠ some (k, rank)) : HoldsHighest rankOf (l ++ [a]) k held := by
  have hmem : ∀ b rank, (b ∈ l ++ [a] ∧ rankOf b = some (k, rank)) ↔
      b ∈ l ∧ rankOf b = some (k, rank) := by
    intro b rank
    refine ⟨fun ⟨hb, hrank⟩ => ⟨?_, hrank⟩, fun ⟨hb, hrank⟩ => ⟨List.mem_append_left _ hb, hrank⟩⟩
    obtain hb | hb := List.mem_append.mp hb
    · exact hb
    · exact absurd (List.mem_singleton.mp hb ▸ hrank) (hne rank)
  cases held with
  | none => exact fun b hb rank hrank => h b ((hmem b rank).mp ⟨hb, hrank⟩).1 rank hrank
  | some held =>
    obtain ⟨⟨b, hb, hrank⟩, hle, hin⟩ := h
    exact ⟨⟨b, List.mem_append_left _ hb, hrank⟩,
      fun c hc rank hrank => hle c ((hmem c rank).mp ⟨hc, hrank⟩).1 rank hrank,
      fun c => (hin c).trans (hmem c _).symm⟩

omit [DecidableEq κ] in
/-- **A value of a key joins those of its rank**, replaces those of a lower one, or stays out. -/
theorem HoldsHighest.concat {held : Option (List α × ℕ)} {a : α} {rank : ℕ}
    (hrank : rankOf a = some (k, rank)) :
    HoldsHighest rankOf l k held → HoldsHighest rankOf (l ++ [a]) k
      (match held with
      | none => some ([a], rank)
      | some (as, current) =>
        if current < rank then some ([a], rank)
        else if rank = current then some (as ++ [a], current)
        else some (as, current)) := by
  intro h
  have hmem : ∀ b r, (b ∈ l ++ [a] ∧ rankOf b = some (k, r)) ↔
      b ∈ l ∧ rankOf b = some (k, r) ∨ b = a ∧ r = rank := by
    intro b r
    rw [List.mem_append, List.mem_singleton, or_and_right]
    refine or_congr_right (and_congr_right ?_)
    rintro rfl
    simp [hrank, eq_comm]
  have hin : a ∈ l ++ [a] := List.mem_append_right _ (List.mem_singleton_self a)
  cases held with
  | none =>
    refine ⟨⟨a, hin, hrank⟩, fun b hb r hr => ?_, fun b => ?_⟩
    · obtain ⟨hb, hr⟩ | ⟨-, rfl⟩ := (hmem b r).mp ⟨hb, hr⟩
      · exact absurd hr (h b hb r)
      · exact Nat.le_refl _
    · rw [List.mem_singleton, hmem]
      exact ⟨fun hb => .inr ⟨hb, rfl⟩, fun hb =>
        hb.elim (fun hb => absurd hb.2 (h b hb.1 rank)) And.left⟩
  | some held =>
    obtain ⟨as, current⟩ := held
    obtain ⟨⟨first, hfirst, hfirstRank⟩, hle, hheld⟩ := h
    dsimp only
    split_ifs with hlt heq
    · refine ⟨⟨a, hin, hrank⟩, fun b hb r hr => ?_, fun b => ?_⟩
      · obtain ⟨hb, hr⟩ | ⟨-, rfl⟩ := (hmem b r).mp ⟨hb, hr⟩
        · exact Nat.le_trans (hle b hb r hr) (Nat.le_of_lt hlt)
        · exact Nat.le_refl _
      · rw [List.mem_singleton, hmem]
        exact ⟨fun hb => .inr ⟨hb, rfl⟩, fun hb =>
          hb.elim (fun hb => absurd (hle b hb.1 rank hb.2) (Nat.not_le.mpr hlt)) And.left⟩
    · subst heq
      refine ⟨⟨a, hin, hrank⟩, fun b hb r hr => ?_, fun b => ?_⟩
      · obtain ⟨hb, hr⟩ | ⟨-, rfl⟩ := (hmem b r).mp ⟨hb, hr⟩
        · exact hle b hb r hr
        · exact Nat.le_refl _
      · rw [List.mem_append, List.mem_singleton, hmem, hheld, and_iff_left rfl]
    · have hgt : rank < current := Nat.lt_of_le_of_ne (Nat.not_lt.mp hlt) heq
      refine ⟨⟨first, List.mem_append_left _ hfirst, hfirstRank⟩, fun b hb r hr => ?_, fun b => ?_⟩
      · obtain ⟨hb, hr⟩ | ⟨-, rfl⟩ := (hmem b r).mp ⟨hb, hr⟩
        · exact hle b hb r hr
        · exact Nat.le_of_lt hgt
      · rw [hheld, hmem, or_iff_left fun hb => Nat.ne_of_gt hgt hb.2]

/-- **A key holds its highest values.** -/
theorem holdsHighest_get? (rankOf : α → Option (κ × ℕ)) (l : List α) (k : κ) :
    HoldsHighest rankOf l k ((ofHighest rankOf l).get? k) := by
  induction l using List.reverseRecOn with
  | nil => simp [ofHighest, HoldsHighest]
  | append_singleton l a ih =>
    rw [ofHighest_concat]
    cases hrank : rankOf a with
    | none => exact ih.concat_of_ne fun rank h => by simp [hrank] at h
    | some ranked =>
      obtain ⟨k', rank⟩ := ranked
      dsimp only
      rw [get?_addHighest]
      split_ifs with hkey
      · subst hkey
        exact HoldsHighest.concat hrank ih
      · exact ih.concat_of_ne fun r hr => by
          rw [hrank] at hr
          exact hkey (Prod.mk.inj (Option.some.inj hr)).1

/-- A key holds its highest values in the order of the list. -/
theorem filter_of_get?_ofHighest {as : List α} {highest : ℕ}
    (h : (ofHighest rankOf l).get? k = some (as, highest)) :
    as = l.filter fun a => rankOf a = some (k, highest) := by
  induction l using List.reverseRecOn generalizing as highest with
  | nil => cases h
  | append_singleton l a ih =>
    have hheld := holdsHighest_get? rankOf l k
    rw [ofHighest_concat] at h
    rw [List.filter_append, List.filter_singleton]
    cases hrank : rankOf a with
    | none =>
      rw [hrank] at h
      rw [ih h]
      exact (List.append_nil _).symm
    | some ranked =>
      obtain ⟨k', rank⟩ := ranked
      rw [hrank] at h
      dsimp only at h
      rw [get?_addHighest] at h
      by_cases hkey : k' = k
      · subst hkey
        rw [if_pos rfl] at h
        cases hget : (ofHighest rankOf l).get? k' with
        | none =>
          rw [hget] at h hheld
          obtain ⟨rfl, rfl⟩ := Prod.mk.inj (Option.some.inj h)
          rw [List.filter_eq_nil_iff.mpr fun b hb => by simpa using hheld b hb rank]
          simp
        | some held =>
          obtain ⟨as', current⟩ := held
          rw [hget] at h hheld
          dsimp only at h
          split_ifs at h with hlt heq
          · -- The values before are of a lower rank.
            obtain ⟨rfl, rfl⟩ := Prod.mk.inj (Option.some.inj h)
            have hnone : l.filter (fun b => rankOf b = some (k', rank)) = [] :=
              List.filter_eq_nil_iff.mpr fun b hb hr =>
                Nat.not_le.mpr hlt (hheld.2.1 b hb rank (of_decide_eq_true hr))
            rw [hnone]
            simp
          · cases h
            subst heq
            rw [← ih hget]
            simp
          · cases h
            rw [← ih hget]
            simp [heq]
      · rw [if_neg hkey] at h
        rw [← ih h]
        simp [hkey]

/-- What the keys hold is what was added to them: not empty, and of the rank of the key. -/
theorem ofHighest_spec {group : κ × List α × ℕ} (h : group ∈ ofHighest rankOf l) :
    group.2.1 ≠ [] ∧ ∀ a ∈ group.2.1, rankOf a = some (group.1, group.2.2) := by
  obtain ⟨k, as, highest⟩ := group
  have hheld := holdsHighest_get? rankOf l k
  rw [(mem_iff_get? (nodup_keys_ofHighest _ _) k _).mp h] at hheld
  obtain ⟨⟨first, hfirst, hrank⟩, -, hin⟩ := hheld
  exact ⟨List.ne_nil_of_mem ((hin first).mpr ⟨hfirst, hrank⟩), fun a ha => ((hin a).mp ha).2⟩

/-- Values of one new key and rank are added together. -/
theorem ofHighest_append {as : List α} {rank : ℕ} (hnew : k ∉ (ofHighest rankOf l).keys)
    (hne : as ≠ []) (has : ∀ a ∈ as, rankOf a = some (k, rank)) :
    ofHighest rankOf (l ++ as) = ofHighest rankOf l ++ [(k, as, rank)] := by
  induction as using List.reverseRecOn with
  | nil => exact absurd rfl hne
  | append_singleton as a ih =>
    have hget : (ofHighest rankOf l).get? k = none := by
      rw [← Option.not_isSome_iff_eq_none]
      exact fun hsome => hnew ((has_iff_mem_keys _ _).mp hsome)
    rw [← List.append_assoc, ofHighest_concat,
      has a (List.mem_append_right _ (List.mem_singleton_self a))]
    dsimp only
    by_cases hnil : as = []
    · subst hnil
      rw [List.append_nil, addHighest, hget]
      exact set_of_notMem hnew _
    · rw [ih hnil fun b hb => has b (List.mem_append_left _ hb), addHighest,
        get?_append_singleton hnew]
      dsimp only
      rw [if_neg (Nat.lt_irrefl _), if_pos rfl, set_append_singleton hnew]

/-- **Groups that are put together are taken apart again.** -/
theorem ofHighest_flatMap {groups : JsMap κ (List α × ℕ)} (hkeys : groups.keys.Nodup)
    (hgroups : ∀ group ∈ groups,
      group.2.1 ≠ [] ∧ ∀ a ∈ group.2.1, rankOf a = some (group.1, group.2.2)) :
    ofHighest rankOf (groups.flatMap fun group => group.2.1) = groups := by
  induction groups using List.reverseRecOn with
  | nil => rfl
  | append_singleton groups group ih =>
    rw [keys, List.map_append, List.nodup_append] at hkeys
    have hrest := ih hkeys.1 fun other hother => hgroups other (List.mem_append_left _ hother)
    have hnew : group.1 ∉ keys groups := fun hin => hkeys.2.2 _ hin _ (by simp) rfl
    obtain ⟨hne, hrank⟩ := hgroups group (by simp)
    rw [List.flatMap_append, List.flatMap_singleton, ofHighest_append (by rwa [hrest]) hne hrank,
      hrest]

/-- A value that no value of its key outranks. -/
def IsHighest (rankOf : α → Option (κ × ℕ)) (l : List α) (a : α) : Prop :=
  ∃ rank ∈ rankOf a, ∀ b ∈ l, ∀ other ∈ rankOf b, other.1 = rank.1 → other.2 ≤ rank.2

instance : DecidablePred (IsHighest rankOf l) := fun a =>
  match h : rankOf a with
  | none => .isFalse fun hhighest => (by
      obtain ⟨rank, hrank, -⟩ := hhighest
      rw [h] at hrank
      cases hrank)
  | some rank => decidable_of_iff
      (∀ b ∈ l, ∀ other ∈ rankOf b, other.1 = rank.1 → other.2 ≤ rank.2) (by
        unfold IsHighest
        rw [h]
        simp)

omit [DecidableEq κ] in
theorem isHighest_congr {l' : List α} (h : ∀ b, b ∈ l ↔ b ∈ l') (a : α) :
    IsHighest rankOf l a ↔ IsHighest rankOf l' a := by
  unfold IsHighest
  simp only [h]

/-- The groups of some keys, together, are the values of these keys. -/
theorem flatMap_filter_perm {keyOf : α → Option κ} {ks : List κ} (hks : ks.Nodup) :
    (ks.flatMap fun k => l.filter fun a => keyOf a = some k).Perm
      (l.filter fun a => ∃ k ∈ ks, keyOf a = some k) := by
  induction ks with
  | nil => simp
  | cons k ks ih =>
    obtain ⟨hnot, hnodup⟩ := List.nodup_cons.mp hks
    rw [List.flatMap_cons]
    refine ((List.Perm.refl _).append (ih hnodup)).trans ?_
    have hsplit := List.filter_append_perm (fun a => decide (keyOf a = some k))
      (l.filter fun a => ∃ k' ∈ k :: ks, keyOf a = some k')
    rw [List.filter_filter, List.filter_filter] at hsplit
    refine .trans (.of_eq (congrArg₂ _ (List.filter_congr fun a _ => ?_)
      (List.filter_congr fun a _ => ?_))) hsplit
    · simp only [List.mem_cons, exists_eq_or_imp, Bool.decide_or, Bool.and_or_distrib_left]
      by_cases h : keyOf a = some k
      · simp [h]
      · simp [h]
    · by_cases h : keyOf a = some k
      · simp [h, hnot]
      · simp [h]

/-- **What all keys hold** are the values that no value of their key outranks. -/
theorem flatMap_ofHighest_perm (rankOf : α → Option (κ × ℕ)) (l : List α) :
    ((ofHighest rankOf l).flatMap fun group => group.2.1).Perm (l.filter (IsHighest rankOf l)) := by
  have hkeys := nodup_keys_ofHighest rankOf l
  have hget : ∀ group ∈ ofHighest rankOf l,
      (ofHighest rankOf l).get? group.1 = some group.2 :=
    fun group hgroup => (mem_iff_get? hkeys _ _).mp hgroup
  have hranks : ((ofHighest rankOf l).map fun group => (group.1, group.2.2)).Nodup :=
    .of_map Prod.fst (by rwa [List.map_map])
  have hflat : ((ofHighest rankOf l).flatMap fun group => group.2.1) =
      ((ofHighest rankOf l).map fun group => (group.1, group.2.2)).flatMap
        fun rank => l.filter fun a => rankOf a = some rank := by
    rw [List.flatMap_map]
    exact List.flatMap_congr fun group hgroup => filter_of_get?_ofHighest (hget group hgroup)
  rw [hflat]
  refine (flatMap_filter_perm hranks).trans (.of_eq (List.filter_congr fun a ha => ?_))
  rw [decide_eq_decide]
  constructor
  · rintro ⟨rank, hrank, heq⟩
    obtain ⟨group, hgroup, rfl⟩ := List.mem_map.mp hrank
    have hheld := holdsHighest_get? rankOf l group.1
    rw [hget group hgroup] at hheld
    refine ⟨_, heq, fun b hb other hother hkey => hheld.2.1 b hb other.2 ?_⟩
    rw [hother, ← hkey]
  · rintro ⟨⟨k, rank⟩, hrank, hle⟩
    have hheld := holdsHighest_get? rankOf l k
    cases hk : (ofHighest rankOf l).get? k with
    | none =>
      rw [hk] at hheld
      exact absurd hrank (hheld a ha rank)
    | some held =>
      obtain ⟨as, highest⟩ := held
      rw [hk] at hheld
      obtain ⟨⟨first, hfirst, hfirstRank⟩, hhighest, -⟩ := hheld
      have heq : highest = rank :=
        Nat.le_antisymm (hle first hfirst _ hfirstRank rfl) (hhighest a ha _ hrank)
      exact ⟨(k, highest), List.mem_map.mpr ⟨(k, as, highest), mem_of_get? hk, rfl⟩,
        heq ▸ hrank⟩

omit [DecidableEq κ] in
/-- **Under coarser keys** a value is outranked also by values of another key. -/
theorem isHighest_map_iff {κ' : Type*} (f : κ → κ') {a : α} :
    IsHighest (fun b => (rankOf b).map (Prod.map f id)) l a ↔
      ∃ rank ∈ rankOf a, ∀ b ∈ l, ∀ other ∈ rankOf b, f other.1 = f rank.1 → other.2 ≤ rank.2 := by
  constructor
  · rintro ⟨rank, hrank, hle⟩
    obtain ⟨rank', hrank', rfl⟩ := Option.map_eq_some_iff.mp hrank
    exact ⟨rank', hrank', fun b hb other hother hkey =>
      hle b hb _ (Option.mem_map_of_mem _ hother) hkey⟩
  · rintro ⟨rank, hrank, hle⟩
    refine ⟨_, Option.mem_map_of_mem _ hrank, fun b hb other hother hkey => ?_⟩
    obtain ⟨other', hother', rfl⟩ := Option.map_eq_some_iff.mp hother
    exact hle b hb other' hother' hkey

end Highest

/-! ### Groups -/

section Groups

variable {κ α : Type*} [DecidableEq κ] (key : α → κ)

/-- The elements of a list by a key, each group in the order of the list. -/
def groupBy (l : List α) : JsMap κ (List α) :=
  l.foldl (fun m a => m.set (key a) ((m.get? (key a)).getD [] ++ [a])) []

theorem groupBy_concat (l : List α) (a : α) : groupBy key (l ++ [a]) =
    (groupBy key l).set (key a) (((groupBy key l).get? (key a)).getD [] ++ [a]) :=
  List.foldl_concat ..

theorem nodup_keys_groupBy (l : List α) : (groupBy key l).keys.Nodup := by
  induction l using List.reverseRecOn with
  | nil => exact List.nodup_nil
  | append_singleton l a ih =>
    rw [groupBy_concat]
    exact nodup_keys_set ih _ _

/-- The group of a key, which no element may have. -/
theorem getD_get?_groupBy (l : List α) (k : κ) :
    ((groupBy key l).get? k).getD [] = l.filter fun a => key a = k := by
  induction l using List.reverseRecOn with
  | nil => rfl
  | append_singleton l a ih =>
    rw [groupBy_concat, get?_set, List.filter_append]
    by_cases hk : key a = k
    · subst hk
      rw [if_pos rfl, Option.getD_some, ih]
      simp
    · rw [if_neg hk, ih]
      simp [hk]

theorem mem_keys_groupBy (l : List α) (k : κ) : k ∈ (groupBy key l).keys ↔ ∃ a ∈ l, key a = k := by
  induction l using List.reverseRecOn with
  | nil => simp [groupBy, keys]
  | append_singleton l a ih =>
    rw [groupBy_concat, mem_keys_set, ih]
    constructor
    · rintro (rfl | ⟨b, hb, rfl⟩)
      · exact ⟨a, List.mem_append_right _ (List.mem_singleton_self a), rfl⟩
      · exact ⟨b, List.mem_append_left _ hb, rfl⟩
    · rintro ⟨b, hb, rfl⟩
      obtain hb | hb := List.mem_append.mp hb
      · exact .inr ⟨b, hb, rfl⟩
      · exact .inl (congrArg key (List.mem_singleton.mp hb))

/-- **The groups** are those of the keys that are there. -/
theorem mem_groupBy {l : List α} {k : κ} {group : List α} :
    (k, group) ∈ groupBy key l ↔ (∃ a ∈ l, key a = k) ∧ group = l.filter fun a => key a = k := by
  rw [mem_iff_get? (nodup_keys_groupBy key l), ← mem_keys_groupBy, ← has_iff_mem_keys,
    ← getD_get?_groupBy]
  unfold has
  cases (groupBy key l).get? k with
  | none => simp
  | some held => simp [eq_comm]

/-- A map that is set again keeps the keys it has in front. -/
theorem keys_prefix_keys_set (m : JsMap κ α) (k : κ) (v : α) : m.keys <+: (m.set k v).keys := by
  induction m with
  | nil => exact List.nil_prefix
  | cons e m ih =>
    obtain ⟨k', v'⟩ := e
    rw [set]
    split_ifs with hk
    · rw [hk]
      exact List.prefix_rfl
    · exact List.prefix_cons_inj k' |>.mpr ih

/-- The keys of a list come before those of what follows it. -/
theorem keys_groupBy_prefix (l l' : List α) :
    (groupBy key l).keys <+: (groupBy key (l ++ l')).keys := by
  induction l' using List.reverseRecOn with
  | nil => exact (List.append_nil l).symm ▸ List.prefix_rfl
  | append_singleton l' a ih =>
    rw [← List.append_assoc, groupBy_concat]
    exact ih.trans (keys_prefix_keys_set _ _ _)

end Groups

end JsMap
