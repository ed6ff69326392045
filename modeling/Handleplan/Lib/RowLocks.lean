import Handleplan.Lib.Sessions

/-!
# Row locks and row versions

Statements lock rows in one of four modes and write versions of rows. A transaction holds its locks
to its end, and sees the versions that are committed and those that it has written itself. What it
has locked, no other transaction changes.

## Main definitions

* `RowLocks.Mode` — the modes of a row lock, and which of them conflict.
* `RowLocks.Access` — the locks that a statement takes and the versions that it writes.
* `RowLocks.Access.view` — the versions that a transaction sees.
* `RowLocks.Access.versions` — the versions of one row, in order.

## Main results

* `RowLocks.Access.exclusive_of_reachable` — two transactions hold no conflicting locks.
* `RowLocks.Access.Exclusive.versions_eq_nil` — a row that is locked by one transaction is not
  written by another one.
* `RowLocks.Access.Exclusive.versions_commit` — a row keeps its versions for the transaction that
  has locked it when another one commits.
-/

namespace RowLocks

open Interaction Sessions

/-! ### Modes -/

/-- The mode of a row lock, from the weakest to the strongest. -/
inductive Mode where
  | keyShare | share | noKeyUpdate | update
  deriving DecidableEq

/-- Whether two transactions may not hold a row in these modes at a time. -/
def Mode.Conflicts : Mode → Mode → Prop
  | .keyShare, mode => mode = .update
  | .share, mode => mode = .noKeyUpdate ∨ mode = .update
  | .noKeyUpdate, mode => mode ≠ .keyShare
  | .update, _ => True

instance : DecidableRel Mode.Conflicts
  | .keyShare, mode => inferInstanceAs (Decidable (mode = .update))
  | .share, mode => inferInstanceAs (Decidable (mode = .noKeyUpdate ∨ mode = .update))
  | .noKeyUpdate, mode => inferInstanceAs (Decidable (mode ≠ .keyShare))
  | .update, _ => .isTrue trivial

theorem Mode.Conflicts.symm {m m' : Mode} (h : m.Conflicts m') : m'.Conflicts m := by
  cases m <;> cases m' <;> simp_all [Mode.Conflicts]

/-- Whether a row may be written in a mode. -/
def Mode.Writes (mode : Mode) : Prop := mode = .noKeyUpdate ∨ mode = .update

/-- Whether a mode keeps others from writing the row. -/
def Mode.Protects (mode : Mode) : Prop := mode ≠ .keyShare

theorem Mode.Protects.conflicts {m m' : Mode} (h : m.Protects) (h' : m'.Writes) :
    m.Conflicts m' := by
  obtain rfl | rfl := h' <;> cases m <;> simp_all [Mode.Conflicts, Mode.Protects]

/-! ### Access -/

/-- The locks that a statement takes, and the versions of rows that it writes, each in a mode that
allows it. -/
structure Access (Q : Type) (A : Q → Type) (K V : Type) where
  locks : Event Q A → List (K × Mode)
  writes : Event Q A → List (K × V)
  locked : ∀ event, ∀ w ∈ writes event, ∃ mode : Mode, mode.Writes ∧ (w.1, mode) ∈ locks event

namespace Access

variable {S C Q : Type} {A : Q → Type} {ε ρ K V : Type} (access : Access Q A K V)

/-- A transaction holds a row in a mode. -/
def Holds (h : History Q A) (k : K) (mode : Mode) : Prop :=
  ∃ event ∈ h, (k, mode) ∈ access.locks event

/-- Whether no other session holds a row in a conflicting mode. -/
def IsFree (st : State S C Q A ε ρ) (s : S) (k : K) (mode : Mode) : Prop :=
  ∀ p ∈ st.running, p.1 ≠ s → ∀ event ∈ p.2.history, ∀ lock ∈ access.locks event,
    lock.1 = k → ¬ mode.Conflicts lock.2

instance [DecidableEq S] [DecidableEq K] (st : State S C Q A ε ρ) (s : S) (k : K) (mode : Mode) :
    Decidable (access.IsFree st s k mode) :=
  inferInstanceAs (Decidable (∀ p ∈ st.running, _ → ∀ event ∈ p.2.history,
    ∀ lock ∈ access.locks event, _ → _))

/-- The versions that a transaction has written. -/
def writesOf (h : History Q A) : List (K × V) := h.flatMap access.writes

/-- The versions that are committed. -/
def committedWrites (committed : List (Committed C Q A ρ)) : List (K × V) :=
  committed.flatMap fun t => access.writesOf t.history

/-- The versions that a transaction sees. -/
def view (committed : List (Committed C Q A ρ)) (h : History Q A) : List (K × V) :=
  access.committedWrites committed ++ access.writesOf h

/-- **No two transactions hold a row in conflicting modes.** -/
def Exclusive (st : State S C Q A ε ρ) : Prop :=
  ∀ p ∈ st.running, ∀ p' ∈ st.running, p.1 ≠ p'.1 → ∀ k m m',
    access.Holds p.2.history k m → access.Holds p'.2.history k m' → ¬ m.Conflicts m'

variable {access}

theorem writesOf_append (h h' : History Q A) :
    access.writesOf (h ++ h') = access.writesOf h ++ access.writesOf h' := by
  simp [writesOf]

theorem writesOf_singleton (event : Event Q A) : access.writesOf [event] = access.writes event := by
  simp [writesOf]

theorem Holds.append {h : History Q A} {k : K} {mode : Mode} (hholds : access.Holds h k mode)
    (events : History Q A) : access.Holds (h ++ events) k mode := by
  obtain ⟨event, hevent, hlock⟩ := hholds
  exact ⟨event, List.mem_append_left _ hevent, hlock⟩

theorem committedWrites_append (committed : List (Committed C Q A ρ)) (t : Committed C Q A ρ) :
    access.committedWrites (committed ++ [t]) =
      access.committedWrites committed ++ access.writesOf t.history := by
  simp [committedWrites]

/-- What is committed stays. -/
theorem mem_committedWrites_of_later {committed committed' : List (Committed C Q A ρ)}
    (h : committed <+: committed') {w : K × V} (hw : w ∈ access.committedWrites committed) :
    w ∈ access.committedWrites committed' := by
  obtain ⟨t, ht, hw⟩ := List.mem_flatMap.mp hw
  exact List.mem_flatMap.mpr ⟨t, h.subset ht, hw⟩

/-- A row that a transaction has written it holds in a mode that allows it. -/
theorem holds_of_mem_writesOf {h : History Q A} {w : K × V} (hw : w ∈ access.writesOf h) :
    ∃ mode : Mode, mode.Writes ∧ access.Holds h w.1 mode := by
  obtain ⟨event, hevent, hw⟩ := List.mem_flatMap.mp hw
  obtain ⟨mode, hwrites, hlock⟩ := access.locked event w hw
  exact ⟨mode, hwrites, event, hevent, hlock⟩

/-! ### Versions -/

section Versions

variable [DecidableEq K]

variable (writes : List (K × V))

/-- The versions of a row, in order. -/
def versions (k : K) : List V :=
  (writes.filter fun w => w.1 = k).map Prod.snd

/-- The version of a row that is there last. -/
def current (k : K) : Option V := (versions writes k).getLast?

theorem versions_append (writes writes' : List (K × V)) (k : K) :
    versions (writes ++ writes') k = versions writes k ++ versions writes' k := by
  simp [versions]

theorem versions_eq_nil_iff {writes : List (K × V)} {k : K} :
    versions writes k = [] ↔ ∀ w ∈ writes, w.1 ≠ k := by
  simp [versions]

theorem mem_versions_iff {writes : List (K × V)} {k : K} {v : V} :
    v ∈ versions writes k ↔ (k, v) ∈ writes := by
  simp only [versions, List.mem_map, List.mem_filter, decide_eq_true_iff]
  constructor
  · rintro ⟨w, ⟨hw, rfl⟩, rfl⟩
    exact hw
  · intro hw
    exact ⟨(k, v), ⟨hw, rfl⟩, rfl⟩

theorem versions_concat_self (k : K) (v : V) :
    versions (writes ++ [(k, v)]) k = versions writes k ++ [v] := by
  simp [versions]

theorem versions_concat_of_ne {k k' : K} (v : V) (hne : k' ≠ k) :
    versions (writes ++ [(k', v)]) k = versions writes k := by
  simp [versions, hne]

theorem mem_versions_of_current {writes : List (K × V)} {k : K} {v : V}
    (h : current writes k = some v) : v ∈ versions writes k :=
  List.mem_of_getLast? h

theorem versions_view (committed : List (Committed C Q A ρ)) (h : History Q A) (k : K) :
    versions (access.view committed h) k =
      versions (access.committedWrites committed) k ++ versions (access.writesOf h) k :=
  versions_append _ _ _

end Versions

/-! ### Exclusion -/

variable {st : State S C Q A ε ρ}

/-- **A row that one transaction has locked** is not written by another one. -/
theorem Exclusive.versions_eq_nil [DecidableEq K] (hall : access.Exclusive st)
    {p p' : S × Transaction C Q A ε ρ} (hp : p ∈ st.running) (hp' : p' ∈ st.running)
    (hne : p.1 ≠ p'.1) {k : K} {mode : Mode} (hprotects : mode.Protects)
    (hholds : access.Holds p.2.history k mode) :
    versions (access.writesOf p'.2.history) k = [] := by
  refine versions_eq_nil_iff.mpr fun w hw heq => ?_
  obtain ⟨mode', hwrites, hholds'⟩ := holds_of_mem_writesOf hw
  exact hall p hp p' hp' hne k mode mode' hholds (heq ▸ hholds') (hprotects.conflicts hwrites)

/-- Two transactions do not both write a row. -/
theorem Exclusive.versions_eq_nil_or [DecidableEq K] (hall : access.Exclusive st)
    {p p' : S × Transaction C Q A ε ρ} (hp : p ∈ st.running) (hp' : p' ∈ st.running)
    (hne : p.1 ≠ p'.1) (k : K) :
    versions (access.writesOf p.2.history) k = [] ∨
      versions (access.writesOf p'.2.history) k = [] := by
  by_cases hnil : versions (access.writesOf p.2.history) k = []
  · exact .inl hnil
  · obtain ⟨v, hv⟩ := List.exists_mem_of_ne_nil _ hnil
    obtain ⟨mode, hwrites, hholds⟩ := holds_of_mem_writesOf (mem_versions_iff.mp hv)
    have hprotects : mode.Protects := by
      obtain rfl | rfl := hwrites <;> simp [Mode.Protects]
    exact .inr (hall.versions_eq_nil hp hp' hne hprotects hholds)

/-- **A row keeps its versions** for the transaction that has locked it, when another one
commits. -/
theorem Exclusive.versions_commit [DecidableEq K] (hall : access.Exclusive st)
    {p t : S × Transaction C Q A ε ρ} (hp : p ∈ st.running) (ht : t ∈ st.running)
    (hne : p.1 ≠ t.1) {k : K} {mode : Mode} (hprotects : mode.Protects)
    (hholds : access.Holds p.2.history k mode) (r : ρ) :
    versions (access.view (st.committed ++ [⟨t.2.call, t.2.history, r⟩]) p.2.history) k =
      versions (access.view st.committed p.2.history) k := by
  rw [versions_view, versions_view, committedWrites_append, versions_append,
    hall.versions_eq_nil hp ht hne hprotects hholds, List.append_nil]

variable [DecidableEq S] {db : Database S C Q A ε ρ}
  {allowed : State S C Q A ε ρ → Step S C Q A → Prop}

/-- **Two transactions hold no conflicting locks**, when a statement that takes a lock waits until
it is free. -/
theorem exclusive_of_reachable
    (hfree : ∀ st s q a, db.Admits st s q a → ∀ lock ∈ access.locks ⟨q, a⟩,
      access.IsFree st s lock.1 lock.2)
    (h : db.system.Reachable allowed st) : access.Exclusive st := by
  refine h.invariant (I := fun st => access.Exclusive st)
    (fun st hst p hp => ?_) fun st e st' hall _ hstep => ?_
  · rw [hst.1] at hp
    cases hp
  have hothers : ∀ s, ∀ p ∈ st.others s, p ∈ st.running ∧ p.1 ≠ s :=
    fun s p hp => State.mem_others.mp hp
  cases Database.effect_of_step hstep with
  | elapses d => exact hall
  | ends => exact fun p hp p' hp' => hall p (hothers _ p hp).1 p' (hothers _ p' hp').1
  | commits => exact fun p hp p' hp' => hall p (hothers _ p hp).1 p' (hothers _ p' hp').1
  | begins s c =>
    intro p hp p' hp' hne k m m' hholds hholds'
    obtain rfl | hp := List.mem_cons.mp hp <;> obtain rfl | hp' := List.mem_cons.mp hp'
    · exact absurd rfl hne
    · obtain ⟨event, hevent, -⟩ := hholds
      cases hevent
    · obtain ⟨event, hevent, -⟩ := hholds'
      cases hevent
    · exact hall p (hothers s p hp).1 p' (hothers s p' hp').1 hne k m m' hholds hholds'
  | @asks s t q next answers ht hrest hadmits =>
    -- a lock of the session itself is an old one, or the statement has waited for it
    have hown : ∀ p ∈ st.others s, ∀ k m m', access.Holds (t.history ++ [⟨q, answers q⟩]) k m →
        access.Holds p.2.history k m' → ¬ m.Conflicts m' := by
      intro p hp k m m' hholds hholds'
      obtain ⟨hp, hne⟩ := hothers s p hp
      obtain ⟨event, hevent, hlock⟩ := hholds
      obtain hold | hnew := List.mem_append.mp hevent
      · exact hall _ (State.mem_of_transaction ht) p hp (Ne.symm hne) k m m'
          ⟨event, hold, hlock⟩ hholds'
      · rw [List.mem_singleton.mp hnew] at hlock
        obtain ⟨event', hevent', hlock'⟩ := hholds'
        exact hfree _ _ _ _ hadmits _ hlock p hp hne event' hevent' _ hlock' rfl
    intro p hp p' hp' hne k m m' hholds hholds'
    obtain rfl | hp := List.mem_cons.mp hp <;> obtain rfl | hp' := List.mem_cons.mp hp'
    · exact absurd rfl hne
    · exact hown p' hp' k m m' hholds hholds'
    · exact fun hconflict => hown p hp k m' m hholds' hholds hconflict.symm
    · exact hall p (hothers s p hp).1 p' (hothers s p' hp').1 hne k m m' hholds hholds'

end Access

end RowLocks
