import Mathlib.Data.List.Basic
import Mathlib.Order.Lattice

/-!
# Keyset paging

A list in the strict order of a key is read page by page. A page is asked for by a position: it
holds the first entries whose key lies beyond the key the position stands for, and when entries
remain it names the position to continue from. That position is made from the last entry of the
page by an encoder which need not keep the whole key.

## Main definitions

* `Keyset.page` — the page read at a position.
* `Keyset.Walk` — a finite walk: pages read one after the other until one names no next position.
* `Keyset.ExactCuts` — the encoder keeps the whole key of every entry at which a page is cut.

## Main results

* `Keyset.after_key` — a position that keeps the whole key continues right behind its entry.
* `Keyset.walk_flatten_iff` — a walk that lists every entry exactly once, in order, exists if and
  only if the cuts are exact.
* `Keyset.not_walk_of_loop` — a page that names its own position is on no finite walk.

## Implementation notes

The encoder is only assumed to round down (`decode (encode a) ≤ key a`). Rounding down never skips
an entry; what it may do is read an entry again, so that the walk repeats entries or never ends.
-/

namespace Keyset

/-- A page: its entries and the position to continue from. -/
structure Page (α π : Type*) where
  items : List α
  next : Option π
  deriving DecidableEq

variable {α κ π : Type*}

/-- A finite walk from a position: the pages in the order in which they are read. -/
inductive Walk (read : Option π → Option (Page α π)) : Option π → List (List α) → Prop
  | last {c : Option π} {p : Page α π} : read c = some p → p.next = none → Walk read c [p.items]
  | more {c : Option π} {p : Page α π} {d : π} {ps : List (List α)} :
    read c = some p → p.next = some d → Walk read (some d) ps → Walk read c (p.items :: ps)

variable {read read' : Option π → Option (Page α π)}

/-- A page that names its own position is on no finite walk. -/
theorem not_walk_of_loop {c : π} {p : Page α π} (hread : read (some c) = some p)
    (hnext : p.next = some c) (ps : List (List α)) : ¬ Walk read (some c) ps := by
  intro h
  generalize hc : some c = o at h
  induction h with
  | last hq hnone =>
    subst hc
    simp_all
  | more hq hsome _ ih =>
    subst hc
    rw [hread] at hq
    cases hq
    exact ih (by rw [← hnext, ← hsome])

variable {c : Option π} {ps : List (List α)} {r₁ r₂ : List α}

/-- Readers that agree on every position a walk can meet have the same walks. -/
theorem Walk.congr {I : Option π → Prop} (hread : ∀ c, I c → read c = read' c)
    (hstep : ∀ c p d, I c → read c = some p → p.next = some d → I (some d)) (hI : I c)
    (h : Walk read c ps) : Walk read' c ps := by
  induction h with
  | last hq hnone => exact .last (hread _ hI ▸ hq) hnone
  | more hq hsome _ ih => exact .more (hread _ hI ▸ hq) hsome (ih (hstep _ _ _ hI hq hsome))

/-! ### Pages of an ordered list -/

variable [LinearOrder κ]

/-- The entries beyond a position. -/
def after (key : α → κ) (decode : π → κ) (l : List α) : Option π → List α
  | none => l
  | some c => l.filter fun a => decide (decode c < key a)

/-- The page at a position. One entry more than fits is read, to see whether entries remain. -/
def page (key : α → κ) (decode : π → κ) (encode : α → π) (n : ℕ) (l : List α) (c : Option π) :
    Page α π :=
  let rows := (after key decode l c).take (n + 1)
  { items := rows.take n
    next := if n < rows.length then (rows.take n).getLast?.map encode else none }

/-- The encoder keeps the whole key of every entry that ends a page but not the list. -/
def ExactCuts (key : α → κ) (decode : π → κ) (encode : α → π) (n : ℕ) (l : List α) : Prop :=
  ∀ k, 0 < k → k * n < l.length → ∀ a ∈ l[k * n - 1]?, decode (encode a) = key a

variable {key : α → κ} {decode : π → κ} {encode : α → π} {n : ℕ} {l pre post : List α} {a : α}

theorem after_sublist (l : List α) (c : Option π) : (after key decode l c).Sublist l := by
  cases c with
  | none => exact List.Sublist.refl l
  | some c => exact List.filter_sublist

theorem page_items (c : Option π) :
    (page key decode encode n l c).items = (after key decode l c).take n := by
  simp [page, List.take_take]

/-- Entries that fit on one page leave no next position. -/
theorem page_of_length_le (h : (after key decode l c).length ≤ n) :
    page key decode encode n l c = ⟨after key decode l c, none⟩ := by
  unfold page
  rw [List.take_of_length_le (Nat.le_succ_of_le h)]
  dsimp only
  rw [List.take_of_length_le h, if_neg (by omega)]

/-- The next position is made from an entry of the list. -/
theorem mem_of_page_next {d : π} (h : (page key decode encode n l c).next = some d) :
    ∃ a ∈ l, d = encode a := by
  simp only [page] at h
  split at h
  · obtain ⟨a, ha, rfl⟩ := Option.map_eq_some_iff.mp h
    have htake := List.mem_of_mem_take (List.mem_of_mem_take (List.mem_of_getLast? ha))
    exact ⟨a, (after_sublist l c).subset htake, rfl⟩
  · cases h

/-- When entries remain, the next position is made from the last entry of the page. -/
theorem page_of_append (hc : after key decode l c = r₁ ++ a :: r₂) (hn : r₁.length + 1 = n)
    (hr₂ : r₂ ≠ []) :
    page key decode encode n l c = ⟨r₁ ++ [a], some (encode a)⟩ := by
  have hpos : 0 < r₂.length := List.length_pos_iff.mpr hr₂
  have hvisible : (r₁ ++ a :: r₂).take n = r₁ ++ [a] := by
    rw [List.append_cons, List.take_left' (by simpa using hn)]
  have hmore : n < ((r₁ ++ a :: r₂).take (n + 1)).length := by
    simp only [List.length_take, List.length_append, List.length_cons]
    omega
  unfold page
  rw [hc]
  dsimp only
  rw [if_pos hmore, List.take_take, Nat.min_eq_left (Nat.le_succ n), hvisible]
  simp

/-- A position that keeps the whole key continues right behind its entry. -/
theorem after_key {c : π} (hc : decode c = key a)
    (hs : (pre ++ a :: post).Pairwise fun a b => key a < key b) :
    after key decode (pre ++ a :: post) (some c) = post := by
  obtain ⟨-, hpost, hpre⟩ := List.pairwise_append.mp hs
  have hkeep : ∀ b ∈ post, key a < key b := (List.pairwise_cons.mp hpost).1
  have hdrop : ∀ b ∈ pre, ¬ key a < key b := fun b hb => (hpre b hb a (by simp)).not_gt
  simp only [after, hc, List.filter_append, List.filter_cons]
  rw [List.filter_eq_nil_iff.mpr (by simpa using hdrop),
    List.filter_eq_self.mpr (by simpa using hkeep)]
  simp

/-- A position that lost part of the key reads its own entry again. -/
theorem mem_after_of_lt {c : π} (ha : a ∈ l) (h : decode c < key a) :
    a ∈ after key decode l (some c) := by
  simp [after, List.mem_filter, ha, h]

/-- A walk lists at least what lies beyond the position it starts from: its first page begins with
the first of these entries. -/
theorem Walk.head?_flatten (hn : 0 < n)
    (h : Walk (fun c => some (page key decode encode n l c)) c ps) (hne : after key decode l c ≠ []) :
    ps.flatten.head? = (after key decode l c).head? := by
  obtain ⟨b, t, hbt⟩ := List.exists_cons_of_ne_nil hne
  obtain ⟨m, rfl⟩ := Nat.exists_eq_succ_of_ne_zero (Nat.ne_of_gt hn)
  cases h with
  | last hq _ =>
    cases hq
    simp [page_items, hbt]
  | more hq _ _ =>
    cases hq
    simp [page_items, hbt]

omit [LinearOrder κ] in
/-- Cuts behind the first page of a longer list are cuts of the rest of the list. -/
theorem exactCuts_append_iff (hn : 0 < n) (hlen : r₁.length = n) (hr₂ : r₂ ≠ []) :
    ExactCuts key decode encode n (r₁ ++ r₂) ↔
      (∀ a ∈ r₁.getLast?, decode (encode a) = key a) ∧ ExactCuts key decode encode n r₂ := by
  have hpos : 0 < r₂.length := List.length_pos_iff.mpr hr₂
  have hfirst : (r₁ ++ r₂)[n - 1]? = r₁.getLast? := by
    rw [List.getElem?_append_left (by omega), List.getLast?_eq_getElem?, hlen]
  have hrest : ∀ k, 0 < k → (r₁ ++ r₂)[(k + 1) * n - 1]? = r₂[k * n - 1]? := by
    intro k hk
    have hkn : 0 < k * n := Nat.mul_pos hk hn
    rw [Nat.succ_mul, List.getElem?_append_right (by omega), hlen]
    congr 1
    omega
  constructor
  · intro h
    refine ⟨fun a ha => ?_, fun k hk hlt a ha => ?_⟩
    · refine h 1 Nat.one_pos (by simp only [List.length_append]; omega) a ?_
      rwa [Nat.one_mul, hfirst]
    · refine h (k + 1) (by omega) (by rw [Nat.succ_mul, List.length_append]; omega) a ?_
      rwa [hrest k hk]
  · rintro ⟨h₁, h₂⟩ k hk hlt a ha
    obtain ⟨j, rfl⟩ := Nat.exists_eq_add_of_le' hk
    rcases Nat.eq_zero_or_pos j with rfl | hj
    · rw [Nat.zero_add, Nat.one_mul, hfirst] at ha
      exact h₁ a ha
    · rw [hrest j hj] at ha
      rw [List.length_append, Nat.succ_mul] at hlt
      exact h₂ j hj (by omega) a ha

/-- A walk over a list that needs more than one page is its first page and a walk over the rest. -/
theorem exists_walk_append_iff (hc : after key decode l c = r₁ ++ a :: r₂) (hn : r₁.length + 1 = n)
    (hr₂ : r₂ ≠ []) :
    (∃ ps, Walk (fun c => some (page key decode encode n l c)) c ps ∧ ps.flatten = r₁ ++ a :: r₂) ↔
      ∃ ps, Walk (fun c => some (page key decode encode n l c)) (some (encode a)) ps ∧
        ps.flatten = r₂ := by
  have hpage : page key decode encode n l c = ⟨r₁ ++ [a], some (encode a)⟩ :=
    page_of_append hc hn hr₂
  constructor
  · rintro ⟨ps, hps, hflat⟩
    cases hps with
    | last hq hnone =>
      cases hq
      simp [hpage] at hnone
    | more hq hsome hps =>
      cases hq
      rw [hpage] at hsome
      cases hsome
      rw [List.flatten_cons, hpage] at hflat
      exact ⟨_, hps, List.append_cancel_left (hflat.trans (List.append_cons ..))⟩
  · rintro ⟨ps, hps, hflat⟩
    refine ⟨_, .more rfl (by rw [hpage]) hps, ?_⟩
    rw [List.flatten_cons, hpage, hflat, List.append_assoc, List.singleton_append]

/-- No walk from a position that lost part of the key of `a` lists just what lies behind `a`: its
first page begins no later than at `a`. -/
theorem not_walk_of_lt (hs : (pre ++ a :: post).Pairwise fun a b => key a < key b) {c : π}
    (hc : decode c < key a) (hn : 0 < n) (hpost : post ≠ [])
    (h : Walk (fun c => some (page key decode encode n (pre ++ a :: post) c)) (some c) ps) :
    ps.flatten ≠ post := by
  intro hflat
  have hagain : a ∈ after key decode (pre ++ a :: post) (some c) := mem_after_of_lt (by simp) hc
  have hhead := h.head?_flatten hn (List.ne_nil_of_mem hagain)
  have hsorted : (after key decode (pre ++ a :: post) (some c)).Pairwise fun a b => key a < key b :=
    hs.filter _
  obtain ⟨b, t, rfl⟩ := List.exists_cons_of_ne_nil hpost
  have hab : key a < key b :=
    (List.pairwise_cons.mp (List.pairwise_append.mp hs).2.1).1 b (by simp)
  rw [hflat, List.head?_cons, eq_comm, List.head?_eq_some_iff] at hhead
  obtain ⟨u, hu⟩ := hhead
  rw [hu] at hagain hsorted
  rcases List.mem_cons.mp hagain with rfl | hau
  · exact lt_irrefl _ hab
  · exact lt_asymm hab ((List.pairwise_cons.mp hsorted).1 a hau)

/-- The entries behind a encode are listed once and in order by a walk from it if and only if the
cuts are exact.

**Proof sketch.** Induction on the number of entries left. When they fit on one page there is no
cut. Otherwise the page ends with an entry `a`. If the position keeps the key of `a`, the walk goes
on with the remaining entries. If not, the next page starts at or before `a`, while the remaining
entries all lie behind `a`. -/
theorem walk_flatten_iff_of_append (hs : l.Pairwise fun a b => key a < key b)
    (hpos : ∀ a ∈ l, decode (encode a) ≤ key a) (hn : 0 < n) (r : List α) :
    ∀ pre c, l = pre ++ r → after key decode l c = r →
      ((∃ ps, Walk (fun c => some (page key decode encode n l c)) c ps ∧ ps.flatten = r) ↔
        ExactCuts key decode encode n r) := by
  induction hlen : r.length using Nat.strongRecOn generalizing r with
  | ind len ih =>
    intro pre c hl hc
    subst hlen
    by_cases hfit : r.length ≤ n
    · have hpage : page key decode encode n l c = ⟨after key decode l c, none⟩ :=
        page_of_length_le (hc ▸ hfit)
      refine ⟨fun _ k hk hlt => ?_, fun _ => ⟨[r], ?_, by simp⟩⟩
      · have := Nat.le_mul_of_pos_left n hk
        omega
      · have hlast : Walk (fun c => some (page key decode encode n l c)) c
            [(page key decode encode n l c).items] := .last rfl (by rw [hpage])
        rwa [hpage, hc] at hlast
    · obtain ⟨r₁, a, r₂, rfl, hr₁, hr₂⟩ : ∃ r₁ a r₂, r = r₁ ++ a :: r₂ ∧ r₁.length + 1 = n ∧
          r₂ ≠ [] := by
        refine ⟨r.take (n - 1), r[n - 1], r.drop (n - 1 + 1), ?_, ?_, ?_⟩
        · rw [← List.drop_eq_getElem_cons, List.take_append_drop]
        · rw [List.length_take]
          omega
        · rw [Ne, List.drop_eq_nil_iff]
          omega
      have hl' : l = (pre ++ r₁) ++ a :: r₂ := by simp [hl]
      have hcuts : ExactCuts key decode encode n (r₁ ++ a :: r₂) ↔
          decode (encode a) = key a ∧ ExactCuts key decode encode n r₂ := by
        rw [List.append_cons, exactCuts_append_iff hn (by simpa using hr₁) hr₂]
        simp
      rw [exists_walk_append_iff hc hr₁ hr₂, hcuts]
      rcases (hpos a (by simp [hl'])).lt_or_eq with hless | hexact
      · refine ⟨?_, fun h => absurd h.1 hless.ne⟩
        rintro ⟨ps, hps, hflat⟩
        subst hl'
        exact absurd hflat (not_walk_of_lt hs hless hn hr₂ hps)
      · have hafter : after key decode l (some (encode a)) = r₂ := by
          rw [hl']
          exact after_key hexact (hl' ▸ hs)
        have hshort : r₂.length < (r₁ ++ a :: r₂).length := by
          simp only [List.length_append, List.length_cons]
          omega
        rw [ih r₂.length hshort r₂ rfl (pre ++ (r₁ ++ [a])) _ (by simp [hl']) hafter]
        simp [hexact]

/-- **Keyset paging**: the pages of a finite walk from the start list every entry exactly once and
in order if and only if the encoder keeps the whole key wherever a page is cut. -/
theorem walk_flatten_iff (hs : l.Pairwise fun a b => key a < key b)
    (hpos : ∀ a ∈ l, decode (encode a) ≤ key a) (hn : 0 < n) :
    (∃ ps, Walk (fun c => some (page key decode encode n l c)) none ps ∧ ps.flatten = l) ↔
      ExactCuts key decode encode n l :=
  walk_flatten_iff_of_append hs hpos hn l [] none rfl rfl

end Keyset
