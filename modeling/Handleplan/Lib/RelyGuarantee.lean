import Handleplan.Lib.Interaction
import Handleplan.Lib.Transitions
import Mathlib.Data.Nat.Find
import Mathlib.Logic.Function.Basic

/-!
# Processes that share a state

Processes run programs whose queries are atomic calls on a shared state. Between any two calls of a
process the others may go on, and the surroundings may change the state too. What a process relies
on is a relation between states that everybody else keeps to, and what it guarantees is one that its
own calls keep to.

## Main definitions

* `RelyGuarantee.Machine` — the atomic calls, and what the surroundings do.
* `RelyGuarantee.Machine.system` — all interleavings of processes.
* `RelyGuarantee.Contract` — what a process relies on and guarantees, and which calls may be made.
* `RelyGuarantee.Assures` — what a program ends with, and that it keeps to its contract.

## Main results

* `RelyGuarantee.Assures.bind`, `RelyGuarantee.Assures.attempt` — programs in sequence, and programs
  whose failure is looked at.
* `RelyGuarantee.Machine.assures_of_reachable` — when each process may rely on the guarantees of the
  others, all assure in every run what they assure when they begin.
* `RelyGuarantee.Machine.invariant_of_reachable` — what all guarantees keep holds in every run.
* `RelyGuarantee.Machine.finitely_often` — no process goes on for ever.
-/

namespace RelyGuarantee

open Interaction Transitions

variable {P D σ Q : Type} {A : Q → Type} {ε ρ α β : Type}

/-! ### Programs whose failure is looked at -/

/-- A program that returns its failure. -/
def attempt : Prog Q A ε α → Prog Q A ε (Except ε α)
  | .ret a => .ret (.ok a)
  | .fail e => .ret (.error e)
  | .ask q next => .ask q fun answer => attempt (next answer)

/-- How a program that is at its end has ended. -/
def outcome? : Prog Q A ε α → Option (Except ε α)
  | .ret a => some (.ok a)
  | .fail e => some (.error e)
  | .ask _ _ => none

theorem eq_of_outcome?_ok {p : Prog Q A ε α} {a : α} (h : outcome? p = some (.ok a)) :
    p = .ret a := by
  cases p with
  | ret b => exact congrArg Prog.ret (Except.ok.inj (Option.some.inj h))
  | fail e => cases h
  | ask q next => cases h

theorem eq_of_outcome?_error {p : Prog Q A ε α} {e : ε} (h : outcome? p = some (.error e)) :
    p = .fail e := by
  cases p with
  | ret b => cases h
  | fail e' => exact congrArg Prog.fail (Except.error.inj (Option.some.inj h))
  | ask q next => cases h

/-! ### Machines -/

/-- Atomic calls on a shared state, and what the surroundings do to it. A call has the answers with
which it leads to a state. -/
structure Machine (D σ Q : Type) (A : Q → Type) where
  act : σ → (q : Q) → A q → Option σ
  disturb : σ → D → σ

/-- The shared state, and what the processes have still to do. -/
structure State (P σ Q : Type) (A : Q → Type) (ε ρ : Type) where
  shared : σ
  rest : P → Prog Q A ε ρ

/-- What may happen next. -/
inductive Step (P D Q : Type) (A : Q → Type) where
  | proceeds (p : P) (answers : (q : Q) → A q)
  | disturbs (d : D)

namespace Machine

variable [DecidableEq P] (M : Machine D σ Q A)

/-- One step. -/
def step (st : State P σ Q A ε ρ) : Step P D Q A → Option (State P σ Q A ε ρ)
  | .proceeds p answers =>
    match st.rest p with
    | .ask q next => (M.act st.shared q (answers q)).map fun shared =>
        ⟨shared, Function.update st.rest p (next (answers q))⟩
    | _ => none
  | .disturbs d => some { st with shared := M.disturb st.shared d }

/-- The condition on a step that the call meets one. -/
def Where (may : σ → Q → Prop) (st : State P σ Q A ε ρ) : Step P D Q A → Prop
  | .proceeds p _ => ∀ q ∈ (st.rest p).next?, may st.shared q
  | .disturbs _ => True

instance (may : σ → Q → Prop) [∀ s q, Decidable (may s q)] (st : State P σ Q A ε ρ) :
    (e : Step P D Q A) → Decidable (Where may st e)
  | .proceeds p _ => inferInstanceAs (Decidable (∀ q ∈ (st.rest p).next?, may st.shared q))
  | .disturbs _ => inferInstanceAs (Decidable True)

/-- The state after processes have gone on in turn, with the answers that a function gives, where
each step meets a condition. -/
def turns (allowed : State P σ Q A ε ρ → Step P D Q A → Prop) [∀ st e, Decidable (allowed st e)]
    (answers : σ → (q : Q) → A q) : State P σ Q A ε ρ → List P → Option (State P σ Q A ε ρ)
  | st, [] => some st
  | st, p :: ps =>
    if allowed st (.proceeds p (answers st.shared)) then
      (M.step st (.proceeds p (answers st.shared))).bind fun st => turns allowed answers st ps
    else none

/-- All interleavings of processes that run given programs, from given states. -/
def system (init : σ → Prop) (program : P → Prog Q A ε ρ) :
    System (State P σ Q A ε ρ) (Step P D Q A) where
  init st := init st.shared ∧ st.rest = program
  step := M.step

variable {M} {st st' : State P σ Q A ε ρ}

/-- What a step of a process does. -/
theorem exists_of_proceeds {p : P} {answers : (q : Q) → A q}
    (h : M.step st (.proceeds p answers) = some st') :
    ∃ q next shared, st.rest p = .ask q next ∧ M.act st.shared q (answers q) = some shared ∧
      st' = ⟨shared, Function.update st.rest p (next (answers q))⟩ := by
  unfold step at h
  cases hrest : st.rest p with
  | ret r => simp [hrest] at h
  | fail e => simp [hrest] at h
  | ask q next =>
    simp only [hrest] at h
    obtain ⟨shared, hshared, rfl⟩ := Option.map_eq_some_iff.mp h
    exact ⟨q, next, shared, rfl, hshared, rfl⟩

/-- What processes reach in turn is reachable. -/
theorem reachable_turns {allowed : State P σ Q A ε ρ → Step P D Q A → Prop}
    [∀ st e, Decidable (allowed st e)] {answers : σ → (q : Q) → A q} {init : σ → Prop}
    {program : P → Prog Q A ε ρ} {ps : List P}
    (h : (M.system init program).Reachable allowed st)
    (hturns : M.turns allowed answers st ps = some st') :
    (M.system init program).Reachable allowed st' := by
  induction ps generalizing st with
  | nil => exact Option.some.inj hturns ▸ h
  | cons p ps ih =>
    obtain ⟨hallowed, hturns⟩ := Option.ite_none_right_eq_some.mp hturns
    obtain ⟨next, hstep, hrest⟩ := Option.bind_eq_some_iff.mp hturns
    exact ih (.next h hallowed hstep) hrest

/-- What a step leaves of a process that does not go on. -/
theorem rest_eq_of_step {e : Step P D Q A} {p : P} (h : M.step st e = some st')
    (he : ∀ answers, e ≠ .proceeds p answers) : st'.rest p = st.rest p := by
  cases e with
  | disturbs d =>
    cases h
    rfl
  | proceeds p' answers =>
    obtain ⟨q, next, shared, -, -, rfl⟩ := exists_of_proceeds h
    exact Function.update_of_ne (by rintro rfl; exact he answers rfl) ..

/-- From any place of a run on, a process does not go on any more, or it does with what it had to
do there. -/
theorem never_or_proceeds {run : ℕ → State P σ Q A ε ρ} {events : ℕ → Step P D Q A}
    (h : ∀ k, M.step (run k) (events k) = some (run (k + 1))) (p : P) (start : ℕ) :
    (∀ k, start ≤ k → ∀ answers, events k ≠ .proceeds p answers) ∨
      ∃ k q next answer, (run start).rest p = .ask q next ∧ (run (k + 1)).rest p = next answer := by
  classical
  by_cases hever : ∃ count answers, events (start + count) = .proceeds p answers
  · right
    obtain ⟨answers, hevent⟩ := Nat.find_spec hever
    have hsame : ∀ count, count ≤ Nat.find hever →
        (run (start + count)).rest p = (run start).rest p := by
      intro count
      induction count with
      | zero => exact fun _ => rfl
      | succ count ih =>
        intro hle
        rw [← Nat.add_assoc, rest_eq_of_step (h (start + count))
          (fun answers hcontra => Nat.find_min hever hle ⟨answers, hcontra⟩)]
        exact ih (Nat.le_of_succ_le hle)
    have hstep := h (start + Nat.find hever)
    rw [hevent] at hstep
    obtain ⟨q, next, shared, hrest, -, hnext⟩ := exists_of_proceeds hstep
    refine ⟨start + Nat.find hever, q, next, answers q, (hsame _ le_rfl).symm.trans hrest, ?_⟩
    rw [hnext]
    exact Function.update_self ..
  · left
    intro k hk answers hevent
    obtain ⟨count, rfl⟩ := Nat.exists_eq_add_of_le hk
    exact hever ⟨count, answers, hevent⟩

/-- **In an infinite run each process goes on finitely often**: programs end.

**Proof sketch.** Induction on what the process has still to do, up to the next step that it
takes. -/
theorem finitely_often {run : ℕ → State P σ Q A ε ρ} {events : ℕ → Step P D Q A}
    (h : ∀ k, M.step (run k) (events k) = some (run (k + 1))) (p : P) :
    ∃ K, ∀ k, K ≤ k → ∀ answers, events k ≠ .proceeds p answers := by
  suffices hall : ∀ (rest : Prog Q A ε ρ) (start : ℕ), (run start).rest p = rest →
      ∃ K, ∀ k, K ≤ k → ∀ answers, events k ≠ .proceeds p answers from hall _ 0 rfl
  intro rest
  induction rest with
  | ret r =>
    intro start hrest
    obtain hnever | ⟨k, q, next, answer, hask, -⟩ := never_or_proceeds h p start
    · exact ⟨start, hnever⟩
    · rw [hrest] at hask
      cases hask
  | fail e =>
    intro start hrest
    obtain hnever | ⟨k, q, next, answer, hask, -⟩ := never_or_proceeds h p start
    · exact ⟨start, hnever⟩
    · rw [hrest] at hask
      cases hask
  | ask q next ih =>
    intro start hrest
    obtain hnever | ⟨k, q', next', answer, hask, hnext⟩ := never_or_proceeds h p start
    · exact ⟨start, hnever⟩
    · rw [hrest] at hask
      cases hask
      exact ih answer (k + 1) hnext

end Machine

/-! ### Contracts -/

/-- What a process relies on and guarantees, and which calls may be made in a state. -/
structure Contract (σ Q : Type) where
  rely : σ → σ → Prop
  guarantee : σ → σ → Prop
  may : σ → Q → Prop
  refl : ∀ s, rely s s
  trans : ∀ {s s' s''}, rely s s' → rely s' s'' → rely s s''

/-- **What a program assures** from a state: however the others go on, it keeps to its guarantee
with each call, and ends with a result or a failure that meets a condition. -/
def Assures (M : Machine D σ Q A) (C : Contract σ Q) (post : α → σ → Prop) (failed : ε → σ → Prop) :
    Prog Q A ε α → σ → Prop
  | .ret a, s => ∀ s', C.rely s s' → post a s'
  | .fail e, s => ∀ s', C.rely s s' → failed e s'
  | .ask q next, s => ∀ s', C.rely s s' → C.may s' q → ∀ answer s'', M.act s' q answer = some s'' →
      C.guarantee s' s'' ∧ Assures M C post failed (next answer) s''

/-- A condition that the others keep. -/
def Stable (C : Contract σ Q) (J : σ → Prop) : Prop := ∀ s s', C.rely s s' → J s → J s'

section Rules

variable {M : Machine D σ Q A} {C : Contract σ Q} {post : α → σ → Prop} {failed : ε → σ → Prop}
  {s s' : σ} {J : σ → Prop}

theorem Stable.and {J' : σ → Prop} (h : Stable C J) (h' : Stable C J') :
    Stable C fun s => J s ∧ J' s :=
  fun s s' hrely hJ => ⟨h s s' hrely hJ.1, h' s s' hrely hJ.2⟩

/-- What no state decides is kept. -/
theorem stable_const {p : Prop} : Stable C fun _ => p := fun _ _ _ => id

variable {p : Prog Q A ε α}

/-- **What a program assures** it assures when the others have gone on. -/
theorem Assures.rely (h : Assures M C post failed p s) (hrely : C.rely s s') :
    Assures M C post failed p s' := by
  cases p with
  | ret a => exact fun s'' hs'' => h s'' (C.trans hrely hs'')
  | fail e => exact fun s'' hs'' => h s'' (C.trans hrely hs'')
  | ask q next => exact fun s'' hs'' => h s'' (C.trans hrely hs'')

theorem Assures.pure {a : α} (hstable : Stable C (post a)) (hpost : post a s) :
    Assures M C post failed (Pure.pure a : Prog Q A ε α) s :=
  fun s' hrely => hstable s s' hrely hpost

theorem Assures.fail {e : ε} (hstable : Stable C (failed e)) (hfailed : failed e s) :
    Assures M C post failed (.fail e : Prog Q A ε α) s :=
  fun s' hrely => hstable s s' hrely hfailed

/-- A weaker condition on the end. -/
theorem Assures.mono {post' : α → σ → Prop} {failed' : ε → σ → Prop}
    (h : Assures M C post failed p s) (hpost : ∀ a s, post a s → post' a s)
    (hfailed : ∀ e s, failed e s → failed' e s) : Assures M C post' failed' p s := by
  induction p generalizing s with
  | ret a => exact fun s' hrely => hpost a s' (h s' hrely)
  | fail e => exact fun s' hrely => hfailed e s' (h s' hrely)
  | ask q next ih =>
    intro s' hrely hmay answer s'' hact
    obtain ⟨hguarantee, hnext⟩ := h s' hrely hmay answer s'' hact
    exact ⟨hguarantee, ih answer hnext⟩

/-- **Programs in sequence.** -/
theorem Assures.bind {f : α → Prog Q A ε β} {post' : β → σ → Prop}
    (h : Assures M C (fun a s => Assures M C post' failed (f a) s) failed p s) :
    Assures M C post' failed (p >>= f) s := by
  show Assures M C post' failed (p.bind f) s
  induction p generalizing s with
  | ret a => exact h s (C.refl s)
  | fail e => exact h
  | ask q next ih =>
    intro s' hrely hmay answer s'' hact
    obtain ⟨hguarantee, hnext⟩ := h s' hrely hmay answer s'' hact
    exact ⟨hguarantee, ih answer hnext⟩

/-- **A program whose failure is looked at** assures one or the other. -/
theorem Assures.attempt {post' : Except ε α → σ → Prop} {failed' : ε → σ → Prop}
    (h : Assures M C (fun a => post' (.ok a)) (fun e => post' (.error e)) p s) :
    Assures M C post' failed' (attempt p) s := by
  induction p generalizing s with
  | ret a => exact h
  | fail e => exact h
  | ask q next ih =>
    intro s' hrely hmay answer s'' hact
    obtain ⟨hguarantee, hnext⟩ := h s' hrely hmay answer s'' hact
    exact ⟨hguarantee, ih answer hnext⟩

/-- **A program, and what follows it** where it ends as it assures. -/
theorem Assures.seq {f : α → Prog Q A ε β} {post' : β → σ → Prop} (h : Assures M C post failed p s)
    (hnext : ∀ a s, post a s → Assures M C post' failed (f a) s) :
    Assures M C post' failed (p >>= f) s :=
  (h.mono hnext fun _ _ => id).bind

/-- **A call, and what follows it**, in a state of which others keep what is known. -/
theorem Assures.ask {q : Q} {f : A q → Prog Q A ε β} {post : β → σ → Prop} (hstable : Stable C J)
    (hJ : J s)
    (hact : ∀ s answer s', J s → C.may s q → M.act s q answer = some s' →
      C.guarantee s s' ∧ Assures M C post failed (f answer) s') :
    Assures M C post failed (Prog.query q >>= f : Prog Q A ε β) s := by
  intro s' hrely hmay answer s'' hstep
  exact hact s' answer s'' (hstable s s' hrely hJ) hmay hstep

/-- A condition that is met, and what follows it. -/
theorem Assures.require {p : Prop} [Decidable p] {e : ε} {f : Unit → Prog Q A ε β}
    {post : β → σ → Prop} (hp : p) (h : Assures M C post failed (f ()) s) :
    Assures M C post failed (Prog.require p e >>= f : Prog Q A ε β) s := by
  unfold Prog.require
  rw [if_pos hp]
  exact h

/-- A condition that is met, at the end of a program. -/
theorem Assures.require_end {p : Prop} [Decidable p] {e : ε} {post : Unit → σ → Prop} (hp : p)
    (hstable : Stable C (post ())) (hpost : post () s) :
    Assures M C post failed (Prog.require p e : Prog Q A ε Unit) s := by
  unfold Prog.require
  rw [if_pos hp]
  exact fun s' hrely => hstable s s' hrely hpost

/-- A condition that is not met. -/
theorem Assures.require_fail {p : Prop} [Decidable p] {e : ε} {post : Unit → σ → Prop} (hp : ¬ p)
    (hstable : Stable C (failed e)) (hfailed : failed e s) :
    Assures M C post failed (Prog.require p e : Prog Q A ε Unit) s := by
  unfold Prog.require
  rw [if_neg hp]
  exact fun s' hrely => hstable s s' hrely hfailed

end Rules

/-! ### Runs -/

namespace Machine

variable [DecidableEq P] {M : Machine D σ Q A} {C : P → Contract σ Q} {init : σ → Prop}
  {program : P → Prog Q A ε ρ} {st : State P σ Q A ε ρ}
  {allowed : State P σ Q A ε ρ → Step P D Q A → Prop}

variable {post : P → ρ → σ → Prop} {failed : P → ε → σ → Prop}
  (hmay : ∀ st p answers q next, allowed st (.proceeds p answers) → st.rest p = .ask q next →
    (C p).may st.shared q)
  (hothers : ∀ p p', p ≠ p' → ∀ s s', (C p).guarantee s s' → (C p').rely s s')
  (hdisturb : ∀ p s d, (C p).rely s (M.disturb s d))
  (hinit : ∀ s, init s → ∀ p, Assures M (C p) (post p) (failed p) (program p) s)

include hmay hothers hdisturb hinit

/-- **Processes that may rely on each other** assure in every run what they assure when they begin.

**Proof sketch.** Induction on the run. A step of one process keeps to its guarantee, on which the
others rely; what the surroundings do, all rely on. -/
theorem assures_of_reachable
    (h : (M.system init program).Reachable allowed st) (p : P) :
    Assures M (C p) (post p) (failed p) (st.rest p) st.shared := by
  refine h.invariant (I := fun st => ∀ p, Assures M (C p) (post p) (failed p) (st.rest p) st.shared)
    (fun st hst p => ?_) (fun st e st' hI hallowed hstep => ?_) p
  · obtain ⟨hshared, hrest⟩ := hst
    rw [hrest]
    exact hinit st.shared hshared p
  · cases e with
    | disturbs d =>
      cases hstep
      exact fun p => (hI p).rely (hdisturb p st.shared d)
    | proceeds p answers =>
      obtain ⟨q, next, shared, hrest, hact, rfl⟩ := exists_of_proceeds hstep
      have hown := hI p
      rw [hrest] at hown
      obtain ⟨hguarantee, hnext⟩ := hown st.shared ((C p).refl _)
        (hmay st p answers q next hallowed hrest) (answers q) shared hact
      intro p'
      dsimp only
      by_cases hsame : p' = p
      · subst hsame
        rw [Function.update_self]
        exact hnext
      · rw [Function.update_of_ne hsame]
        exact (hI p').rely (hothers p p' (Ne.symm hsame) _ _ hguarantee)

/-- **What all guarantees keep**, and the surroundings too, holds in every run. -/
theorem invariant_of_reachable {I : σ → Prop} (hstart : ∀ s, init s → I s)
    (hkeeps : ∀ p s s', (C p).guarantee s s' → I s → I s')
    (hkeepsDisturb : ∀ s d, I s → I (M.disturb s d))
    (h : (M.system init program).Reachable allowed st) : I st.shared := by
  induction h with
  | init hst => exact hstart _ hst.1
  | @next st st' e hreach hallowed hstep ih =>
    cases e with
    | disturbs d =>
      cases hstep
      exact hkeepsDisturb _ d ih
    | proceeds p answers =>
      obtain ⟨q, next, shared, hrest, hact, rfl⟩ := exists_of_proceeds hstep
      have hown := assures_of_reachable hmay hothers hdisturb hinit hreach p
      rw [hrest] at hown
      exact hkeeps p _ _ (hown st.shared ((C p).refl _)
        (hmay st p answers q next hallowed hrest) (answers q) shared hact).1 ih

end Machine

end RelyGuarantee
