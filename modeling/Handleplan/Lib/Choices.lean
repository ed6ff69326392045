import Mathlib.Data.List.Forall2
import Mathlib.Data.List.Dedup
import Mathlib.Data.List.Nodup
import Mathlib.Algebra.GroupWithZero.Nat
import Mathlib.Algebra.Order.BigOperators.Group.List

/-!
# One choice for each entry

Lists that hold one choice for each entry of another list, and the two costs of such a choice: a sum
and a number of distinct labels. Options that are related have their entries related.

## Main results

* `Choices.mapM_eq_some_iff` — a partial function that succeeds on every entry makes one choice for
  each.
* `Choices.mapM_eq_some_map_iff` — when a partial function with known values succeeds on a list.
* `Choices.exists_forall₂` — choices that exist entry by entry exist all at once.
* `Choices.exists_mapM_iff` — a partial function succeeds on a list with good values when it does so
  on every entry.
* `Choices.sum_map_le_of_forall₂` — choices that are no dearer entry by entry are no dearer in sum.
* `Choices.length_dedup_map_le` — labels drawn from a list are no more than its entries.
-/

namespace Choices

variable {α β γ : Type*}

/-- A partial function that succeeds on every entry makes one choice for each. -/
theorem mapM_eq_some_iff {f : α → Option β} {l : List α} {bs : List β} :
    l.mapM f = some bs ↔ List.Forall₂ (fun a b => f a = some b) l bs := by
  induction l generalizing bs with
  | nil => simp [List.mapM_nil, eq_comm]
  | cons a l ih =>
    rw [List.mapM_cons, List.forall₂_cons_left_iff]
    constructor
    · intro h
      obtain ⟨b, hb, h⟩ := Option.bind_eq_some_iff.mp h
      obtain ⟨bs', hbs', h⟩ := Option.bind_eq_some_iff.mp h
      exact ⟨b, bs', hb, ih.mp hbs', (Option.some.inj h).symm⟩
    · rintro ⟨b, bs', hb, hbs', rfl⟩
      simp [hb, ih.mpr hbs']

/-- A function that may fail and succeeds on every entry makes one choice for each. -/
theorem mapM_eq_ok_iff {ε α β : Type} {f : α → Except ε β} {l : List α} {bs : List β} :
    l.mapM f = .ok bs ↔ List.Forall₂ (fun a b => f a = .ok b) l bs := by
  induction l generalizing bs with
  | nil => simp [List.mapM_nil, pure, Except.pure, eq_comm]
  | cons a l ih =>
    rw [List.mapM_cons, List.forall₂_cons_left_iff]
    cases hfa : f a with
    | error e => simp [bind, Except.bind]
    | ok b =>
      simp only [bind, Except.bind, pure, Except.pure, Except.ok.injEq]
      constructor
      · intro h
        cases hl : l.mapM f with
        | error e => simp [hl] at h
        | ok bs' =>
          rw [hl] at h
          exact ⟨b, bs', rfl, ih.mp hl, (Except.ok.inj h).symm⟩
      · rintro ⟨b', bs', rfl, hbs', rfl⟩
        rw [ih.mpr hbs']

variable {R : α → β → Prop}

/-- In another order of the entries the same choices are made in another order. -/
theorem exists_forall₂_of_perm {l l' : List α} (hp : l.Perm l') {bs : List β}
    (h : List.Forall₂ R l bs) : ∃ bs', List.Forall₂ R l' bs' ∧ bs.Perm bs' := by
  induction hp generalizing bs with
  | nil => exact ⟨bs, h, .refl _⟩
  | cons a _ ih =>
    obtain ⟨b, bs, hab, hbs, rfl⟩ := List.forall₂_cons_left_iff.mp h
    obtain ⟨bs', hbs', hperm⟩ := ih hbs
    exact ⟨b :: bs', .cons hab hbs', hperm.cons b⟩
  | swap a a' l =>
    obtain ⟨b', rest, hab', hrest, rfl⟩ := List.forall₂_cons_left_iff.mp h
    obtain ⟨b, tail, hab, htail, rfl⟩ := List.forall₂_cons_left_iff.mp hrest
    exact ⟨b :: b' :: tail, .cons hab (.cons hab' htail), .swap _ _ _⟩
  | trans _ _ ih ih' =>
    obtain ⟨bs', hbs', hperm⟩ := ih h
    obtain ⟨bs'', hbs'', hperm'⟩ := ih' hbs'
    exact ⟨bs'', hbs'', hperm.trans hperm'⟩

/-- Choices may be judged by another relation that agrees on the entries. -/
theorem forall₂_imp_of_mem {R S : α → β → Prop} {l : List α} {bs : List β}
    (h : List.Forall₂ R l bs) (himp : ∀ a b, a ∈ l → R a b → S a b) : List.Forall₂ S l bs := by
  induction h with
  | nil => exact .nil
  | cons hab _ ih =>
    exact .cons (himp _ _ List.mem_cons_self hab)
      (ih fun a b ha => himp a b (List.mem_cons_of_mem _ ha))

/-- Partial functions that agree on the entries make the same choices. -/
theorem mapM_congr {f g : α → Option β} {l : List α} (h : ∀ a ∈ l, f a = g a) :
    l.mapM f = l.mapM g := by
  induction l with
  | nil => rfl
  | cons a l ih =>
    rw [List.mapM_cons, List.mapM_cons, h a List.mem_cons_self,
      ih fun x hx => h x (List.mem_cons_of_mem _ hx)]

variable {f : α → Option β}

/-- A partial function that gives a known value under a known condition succeeds on a list exactly
when every entry meets its condition. -/
theorem mapM_eq_some_map_iff {g : α → β} {P : α → Prop} {l : List α} {bs : List β}
    (h : ∀ a ∈ l, ∀ b, f a = some b ↔ b = g a ∧ P a) :
    l.mapM f = some bs ↔ bs = l.map g ∧ ∀ a ∈ l, P a := by
  rw [mapM_eq_some_iff]
  induction l generalizing bs with
  | nil => simp
  | cons a l ih =>
    have htail : ∀ bs : List β, List.Forall₂ (fun a b => f a = some b) l bs ↔
        bs = l.map g ∧ ∀ a ∈ l, P a := fun bs => ih fun x hx => h x (List.mem_cons_of_mem _ hx)
    rw [List.forall₂_cons_left_iff, List.map_cons, List.forall_mem_cons]
    constructor
    · rintro ⟨b, bs', hb, hbs', rfl⟩
      obtain ⟨rfl, hP⟩ := (h a List.mem_cons_self b).mp hb
      obtain ⟨rfl, hPs⟩ := (htail bs').mp hbs'
      exact ⟨rfl, hP, hPs⟩
    · rintro ⟨rfl, hP, hPs⟩
      exact ⟨g a, l.map g, (h a List.mem_cons_self _).mpr ⟨rfl, hP⟩, (htail _).mpr ⟨rfl, hPs⟩, rfl⟩

/-- Choices that exist entry by entry exist all at once. -/
theorem exists_forall₂ {l : List α} (h : ∀ a ∈ l, ∃ b, R a b) :
    ∃ bs, List.Forall₂ R l bs := by
  induction l with
  | nil => exact ⟨[], .nil⟩
  | cons a l ih =>
    obtain ⟨b, hb⟩ := h a List.mem_cons_self
    obtain ⟨bs, hbs⟩ := ih fun x hx => h x (List.mem_cons_of_mem _ hx)
    exact ⟨b :: bs, .cons hb hbs⟩

/-- The choices of a partial function are what it keeps. -/
theorem filterMap_eq_of_forall₂ {l : List α} {bs : List β}
    (h : List.Forall₂ (fun a b => f a = some b) l bs) : l.filterMap f = bs := by
  induction h with
  | nil => rfl
  | cons hab _ ih => rw [List.filterMap_cons_some hab, ih]

/-- Choices that can be matched by others entry by entry are matched all at once. -/
theorem exists_forall₂_forall₂ {S : α → γ → Prop} {T : β → γ → Prop} {l : List α} {bs : List β}
    (hl : List.Forall₂ R l bs) (h : ∀ a ∈ l, ∀ b, R a b → ∃ c, S a c ∧ T b c) :
    ∃ cs, List.Forall₂ S l cs ∧ List.Forall₂ T bs cs := by
  induction hl with
  | nil => exact ⟨[], .nil, .nil⟩
  | cons hab _ ih =>
    obtain ⟨c, hS, hT⟩ := h _ List.mem_cons_self _ hab
    obtain ⟨cs, hSs, hTs⟩ := ih fun x hx => h x (List.mem_cons_of_mem _ hx)
    exact ⟨c :: cs, .cons hS hSs, .cons hT hTs⟩

/-- Each choice belongs to an entry. -/
theorem exists_mem_of_forall₂ {l : List α} {bs : List β} (h : List.Forall₂ R l bs) {b : β}
    (hb : b ∈ bs) : ∃ a ∈ l, R a b := by
  induction h with
  | nil => cases hb
  | cons hab _ ih =>
    rcases List.mem_cons.mp hb with rfl | hb
    · exact ⟨_, List.mem_cons_self, hab⟩
    · obtain ⟨a, ha, hR⟩ := ih hb
      exact ⟨a, List.mem_cons_of_mem _ ha, hR⟩

/-- A partial function succeeds on a list with good values when it does so on every entry. -/
theorem exists_mapM_iff {P : β → Prop} {l : List α} :
    (∃ bs, l.mapM f = some bs ∧ ∀ b ∈ bs, P b) ↔ ∀ a ∈ l, ∃ b, f a = some b ∧ P b := by
  induction l with
  | nil => simp [List.mapM_nil]
  | cons a l ih =>
    rw [List.forall_mem_cons, ← ih, List.mapM_cons]
    constructor
    · rintro ⟨bs, h, hall⟩
      obtain ⟨b, hb, h⟩ := Option.bind_eq_some_iff.mp h
      obtain ⟨rest, hrest, h⟩ := Option.bind_eq_some_iff.mp h
      cases h
      exact ⟨⟨b, hb, hall b List.mem_cons_self⟩, rest, hrest,
        fun c hc => hall c (List.mem_cons_of_mem _ hc)⟩
    · rintro ⟨⟨b, hb, hPb⟩, bs, hbs, hall⟩
      exact ⟨b :: bs, by simp [hb, hbs], List.forall_mem_cons.mpr ⟨hPb, hall⟩⟩

/-- Each entry has a choice. -/
theorem exists_choice_of_forall₂ {l : List α} {bs : List β} (h : List.Forall₂ R l bs) {a : α}
    (ha : a ∈ l) : ∃ b ∈ bs, R a b :=
  have hflip : List.Forall₂ (flip R) bs l := h.flip
  exists_mem_of_forall₂ hflip ha

/-- Two entries are related whenever their choices are, so the entries are pairwise related exactly
when the choices are. -/
theorem pairwise_iff_of_forall₂ {S P : α → α → Prop} {Q : β → β → Prop} {l : List α} {bs : List β}
    (hR : List.Forall₂ R l bs) (hS : l.Pairwise S)
    (h : ∀ a a' b b', R a b → R a' b' → S a a' → (P a a' ↔ Q b b')) :
    l.Pairwise P ↔ bs.Pairwise Q := by
  induction hR with
  | nil => exact iff_of_true .nil .nil
  | @cons a b l bs hab hrest ih =>
    obtain ⟨hhead, htail⟩ := List.pairwise_cons.mp hS
    rw [List.pairwise_cons, List.pairwise_cons, ih htail]
    refine and_congr_left fun _ => ⟨fun hP b' hb' => ?_, fun hQ a' ha' => ?_⟩
    · obtain ⟨a', ha', hR'⟩ := exists_mem_of_forall₂ hrest hb'
      exact (h a a' b b' hab hR' (hhead a' ha')).mp (hP a' ha')
    · obtain ⟨b', hb', hR'⟩ := exists_choice_of_forall₂ hrest ha'
      exact (h a a' b b' hab hR' (hhead a' ha')).mpr (hQ b' hb')

/-- Two measures that agree on each choice and its entry agree on the lists. -/
theorem map_eq_map_of_forall₂ {f : α → γ} {g : β → γ} {l : List α} {bs : List β}
    (h : List.Forall₂ R l bs) (hfg : ∀ a b, R a b → f a = g b) :
    l.map f = bs.map g := by
  induction h with
  | nil => rfl
  | cons hab _ ih => rw [List.map_cons, List.map_cons, hfg _ _ hab, ih]

/-- Choices that are no dearer entry by entry are no dearer in sum. -/
theorem sum_map_le_of_forall₂ {f : α → ℕ} {g : β → ℕ} {l : List α} {bs : List β}
    (h : List.Forall₂ (fun a b => g b ≤ f a) l bs) : (bs.map g).sum ≤ (l.map f).sum := by
  induction h with
  | nil => exact Nat.le_refl 0
  | cons hab _ ih =>
    simp only [List.map_cons, List.sum_cons]
    exact Nat.add_le_add hab ih

/-- Labels drawn from a list are no more than its entries. -/
theorem length_dedup_map_le [DecidableEq γ] {f : α → γ} {l : List α} {labels : List γ}
    (h : ∀ a ∈ l, f a ∈ labels) : (l.map f).dedup.length ≤ labels.length := by
  refine (List.subperm_of_subset (List.nodup_dedup _) fun c hc => ?_).length_le
  obtain ⟨a, ha, rfl⟩ := List.mem_map.mp (List.mem_dedup.mp hc)
  exact h a ha

end Choices

/-! ### Two options -/

namespace Option.Rel

variable {α β : Type*} {r : α → β → Prop} {a : Option α} {b : Option β}

/-- What the second option has, the first has something related to. -/
theorem exists_left (h : Option.Rel r a b) {y : β} (hy : y ∈ b) : ∃ x ∈ a, r x y := by
  cases h with
  | some h =>
    cases hy
    exact ⟨_, rfl, h⟩
  | none => cases hy

/-- What the first option has, the second has something related to. -/
theorem exists_right (h : Option.Rel r a b) {x : α} (hx : x ∈ a) : ∃ y ∈ b, r x y := by
  cases h with
  | some h =>
    cases hx
    exact ⟨_, rfl, h⟩
  | none => cases hx

end Option.Rel
