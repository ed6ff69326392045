import Mathlib.Data.List.Basic
import Mathlib.Data.List.Induction
import Mathlib.Data.List.Nodup
import Mathlib.Tactic.SplitIfs

/-!
# Programs that ask an adversarial environment

A program asks queries and goes on with the answers. The environment may answer each query as it
likes, given everything that was asked and answered before; what holds of every query a program asks
is proved once for all environments.

## Main definitions

* `Interaction.Along` — a fact about each event of a history and what precedes it.
* `Interaction.Prog` — programs that ask queries, return a value or fail.
* `Interaction.Prog.run` — the history and the outcome of a program in an environment.
* `Interaction.Prog.Safe` — every query that is asked is allowed by the history before it.
* `Interaction.Prog.Correct` — a safe program of which it is known, too, how it fails.
* `Interaction.Prog.Ensures` — how a program ends where the answers are only those that a state,
  computed from the events, admits.

## Main results

* `Interaction.Prog.Safe.bind` — programs in sequence.
* `Interaction.Prog.Safe.rescue` — a program whose failure is handled.
* `Interaction.Prog.Safe.of_run` — in every environment, each query of a safe program is allowed by
  the history before it.
* `Interaction.Prog.Correct.bind`, `Interaction.Prog.Correct.rescue` — the same for programs of
  which the failures are known.
* `Interaction.Prog.Correct.of_run` — what a correct program ends with, in every environment.
* `Interaction.Prog.Ensures.of_run` — how a program ends in every environment of which the answers
  are admitted.
* `Interaction.Along.countP_le`, `Interaction.Along.nodup_filterMap` — what is never done too often,
  or twice.
* `Interaction.Prog.answer_of_mem_run` — the answers of a run are those of its environment.
-/

namespace Interaction

variable {Q : Type} {A : Q → Type} {ε α β : Type}

/-- A query and its answer. -/
structure Event (Q : Type) (A : Q → Type) where
  query : Q
  answer : A query

/-- What was asked and answered, in order. -/
abbrev History (Q : Type) (A : Q → Type) := List (Event Q A)

/-- A program that asks queries. -/
inductive Prog (Q : Type) (A : Q → Type) (ε α : Type) where
  | ret (a : α)
  | fail (e : ε)
  | ask (q : Q) (next : A q → Prog Q A ε α)

/-! ### Histories -/

/-- Each event of a history meets a condition on it and on what precedes it. -/
def Along (F : History Q A → Event Q A → Prop) (h : History Q A) : Prop :=
  ∀ before event after, h = before ++ event :: after → F before event

variable {F : History Q A → Event Q A → Prop} {h : History Q A}

theorem Along.nil : Along F [] := by
  intro before event after heq
  simp at heq

theorem Along.snoc {event : Event Q A} (hall : Along F h) (hevent : F h event) :
    Along F (h ++ [event]) := by
  intro before other after heq
  obtain rfl | ⟨rest, last, rfl⟩ := List.eq_nil_or_concat after
  · obtain ⟨rfl, hother⟩ := List.append_inj' heq rfl
    exact List.head_eq_of_cons_eq hother ▸ hevent
  · rw [List.concat_eq_append, ← List.cons_append, ← List.append_assoc] at heq
    exact hall before other rest (List.append_inj' heq rfl).1

theorem Along.mono {F' : History Q A → Event Q A → Prop} (hall : Along F h)
    (hle : ∀ before event, F before event → F' before event) : Along F' h :=
  fun before event after heq => hle _ _ (hall before event after heq)

theorem Along.of_mem {F : Event Q A → Prop} {event : Event Q A}
    (hall : Along (fun _ event => F event) h) (hmem : event ∈ h) : F event := by
  obtain ⟨before, after, heq⟩ := List.append_of_mem hmem
  exact hall before event after heq

/-- What each time happens fewer than a number of times before, happens at most that number of
times. -/
theorem Along.countP_le {p : Event Q A → Bool} {n : ℕ}
    (hall : Along (fun before event => p event = true → before.countP p < n) h) :
    h.countP p ≤ n := by
  induction h using List.reverseRecOn with
  | nil => exact Nat.zero_le n
  | append_singleton h event ih =>
    have hbefore : Along (fun before event => p event = true → before.countP p < n) h :=
      fun before other after heq => hall before other (after ++ [event]) (by rw [heq]; simp)
    rw [List.countP_append, List.countP_singleton]
    by_cases hevent : p event = true
    · rw [if_pos hevent]
      exact hall h event [] rfl hevent
    · rw [if_neg hevent]
      exact ih hbefore

/-- What has never happened before does not happen twice. -/
theorem Along.nodup_filterMap {κ : Type} {f : Event Q A → Option κ}
    (hall : Along (fun before event => ∀ a ∈ f event, a ∉ before.filterMap f) h) :
    (h.filterMap f).Nodup := by
  induction h using List.reverseRecOn with
  | nil => exact List.nodup_nil
  | append_singleton h event ih =>
    have hbefore : Along (fun before event => ∀ a ∈ f event, a ∉ before.filterMap f) h :=
      fun before other after heq => hall before other (after ++ [event]) (by rw [heq]; simp)
    rw [List.filterMap_append]
    cases hevent : f event with
    | none =>
      rw [List.filterMap_cons_none hevent, List.filterMap_nil, List.append_nil]
      exact ih hbefore
    | some a =>
      rw [List.filterMap_cons_some hevent, List.filterMap_nil]
      refine (ih hbefore).append (List.nodup_singleton a) ?_
      exact List.disjoint_singleton.mpr (hall h event [] rfl a hevent)

/-! ### Programs -/

namespace Prog

/-- One program after another. -/
def bind : Prog Q A ε α → (α → Prog Q A ε β) → Prog Q A ε β
  | .ret a, f => f a
  | .fail e, _ => .fail e
  | .ask q next, f => .ask q fun answer => (next answer).bind f

instance : Monad (Prog Q A ε) where
  pure := .ret
  bind := bind

/-- One query. -/
def query (q : Q) : Prog Q A ε (A q) := .ask q .ret

/-- The query a program asks next. -/
def next? : Prog Q A ε α → Option Q
  | .ask q _ => some q
  | _ => none

/-- Fail unless a condition holds. -/
def require (p : Prop) [Decidable p] (e : ε) : Prog Q A ε Unit :=
  if p then .ret () else .fail e

/-- A value, or a failure where there is none. -/
def orFail (e : ε) : Option α → Prog Q A ε α
  | some a => .ret a
  | none => .fail e

/-- A program whose failure is handled by another. -/
def rescue : Prog Q A ε α → (ε → Prog Q A ε α) → Prog Q A ε α
  | .ret a, _ => .ret a
  | .fail e, f => f e
  | .ask q next, f => .ask q fun answer => (next answer).rescue f

/-- The history and the outcome of a program, in an environment that knows the history. -/
def run (environment : History Q A → (q : Q) → A q) :
    History Q A → Prog Q A ε α → History Q A × Except ε α
  | h, .ret a => (h, .ok a)
  | h, .fail e => (h, .error e)
  | h, .ask q next =>
    run environment (h ++ [⟨q, environment h q⟩]) (next (environment h q))

/-- **Every query is allowed** by the history before it, and a returned value meets a condition on
the whole history. -/
def Safe (allowed : History Q A → Q → Prop) (post : History Q A → α → Prop) :
    History Q A → Prog Q A ε α → Prop
  | h, .ret a => post h a
  | _, .fail _ => True
  | h, .ask q next => allowed h q ∧ ∀ answer, Safe allowed post (h ++ [⟨q, answer⟩]) (next answer)

variable {allowed : History Q A → Q → Prop} {post : History Q A → α → Prop}
  {post' : History Q A → β → Prop} {h : History Q A}

theorem Safe.query {q : Q} {post : History Q A → A q → Prop} (hallowed : allowed h q)
    (hpost : ∀ answer, post (h ++ [⟨q, answer⟩]) answer) :
    Safe allowed post h (query q : Prog Q A ε (A q)) := ⟨hallowed, hpost⟩

/-- A condition that is required holds afterwards. -/
theorem Safe.require {p : Prop} [Decidable p] {e : ε} {post : History Q A → Unit → Prop}
    (hpost : p → post h ()) : Safe allowed post h (require p e : Prog Q A ε Unit) := by
  unfold Prog.require
  split_ifs with hp
  · exact hpost hp
  · trivial

/-- A value that is there is used. -/
theorem Safe.orFail {e : ε} {a : Option α} (hpost : ∀ b, a = some b → post h b) :
    Safe allowed post h (orFail e a : Prog Q A ε α) := by
  cases a with
  | none => trivial
  | some b => exact hpost b rfl

variable {p : Prog Q A ε α}

/-- A weaker condition on the returned value. -/
theorem Safe.mono {weaker : History Q A → α → Prop} (hp : Safe allowed post h p)
    (hle : ∀ h a, post h a → weaker h a) :
    Safe allowed weaker h p := by
  induction p generalizing h with
  | ret a => exact hle _ _ hp
  | fail e => trivial
  | ask q next ih => exact ⟨hp.1, fun answer => ih answer (hp.2 answer)⟩

/-- **Programs in sequence**: the second is safe after what the first ends with. -/
theorem Safe.bind {f : α → Prog Q A ε β}
    (hp : Safe allowed (fun h a => Safe allowed post' h (f a)) h p) :
    Safe allowed post' h (p >>= f) := by
  show Safe allowed post' h (p.bind f)
  induction p generalizing h with
  | ret a => exact hp
  | fail e => trivial
  | ask q next ih => exact ⟨hp.1, fun answer => ih answer (hp.2 answer)⟩

/-- **A program whose failure is handled** by programs that are safe after any history. -/
theorem Safe.rescue {f : ε → Prog Q A ε α} (hp : Safe allowed post h p)
    (hf : ∀ h e, Safe allowed post h (f e)) : Safe allowed post h (p.rescue f) := by
  induction p generalizing h with
  | ret a => exact hp
  | fail e => exact hf h e
  | ask q next ih => exact ⟨hp.1, fun answer => ih answer (hp.2 answer)⟩

/-- A history whose every query is allowed by the history before it. -/
def AllAllowed (allowed : History Q A → Q → Prop) (history : History Q A) : Prop :=
  ∀ before event after, history = before ++ event :: after → allowed before event.query

theorem allAllowed_nil : AllAllowed allowed ([] : History Q A) := Along.nil

theorem AllAllowed.snoc (hall : AllAllowed allowed h) {event : Event Q A}
    (hallowed : allowed h event.query) : AllAllowed allowed (h ++ [event]) :=
  Along.snoc hall hallowed

/-- **In every environment** each query of a safe program is allowed by the history before it.

**Proof sketch.** Induction on the program, from any history whose queries are all allowed. -/
theorem Safe.of_run (hp : Safe allowed post h p) (hall : AllAllowed allowed h)
    (environment : History Q A → (q : Q) → A q) :
    AllAllowed allowed (p.run environment h).1 := by
  induction p generalizing h with
  | ret a => exact hall
  | fail e => exact hall
  | ask q next ih => exact ih _ (hp.2 _) (hall.snoc hp.1)

/-! ### Programs of which the failures are known -/

/-- **A correct program**: every query is allowed by the history before it, a returned value meets a
condition on the whole history, and a failure meets another. -/
def Correct (allowed : History Q A → Q → Prop) (post : History Q A → α → Prop)
    (raised : History Q A → ε → Prop) : History Q A → Prog Q A ε α → Prop
  | h, .ret a => post h a
  | h, .fail e => raised h e
  | h, .ask q next =>
    allowed h q ∧ ∀ answer, Correct allowed post raised (h ++ [⟨q, answer⟩]) (next answer)

variable {raised : History Q A → ε → Prop}

theorem Correct.query {q : Q} {post : History Q A → A q → Prop} (hallowed : allowed h q)
    (hpost : ∀ answer, post (h ++ [⟨q, answer⟩]) answer) :
    Correct allowed post raised h (Prog.query q : Prog Q A ε (A q)) := ⟨hallowed, hpost⟩

/-- A condition that is required holds afterwards, or the program fails. -/
theorem Correct.require {p : Prop} [Decidable p] {e : ε} {post : History Q A → Unit → Prop}
    (hpost : p → post h ()) (hraised : ¬ p → raised h e) :
    Correct allowed post raised h (Prog.require p e : Prog Q A ε Unit) := by
  unfold Prog.require
  split_ifs with hp
  · exact hpost hp
  · exact hraised hp

/-- Weaker conditions on the returned value and on the failure. -/
theorem Correct.mono {weaker : History Q A → α → Prop} {weakerRaised : History Q A → ε → Prop}
    (hp : Correct allowed post raised h p) (hle : ∀ h a, post h a → weaker h a)
    (hraised : ∀ h e, raised h e → weakerRaised h e) :
    Correct allowed weaker weakerRaised h p := by
  induction p generalizing h with
  | ret a => exact hle _ _ hp
  | fail e => exact hraised _ _ hp
  | ask q next ih => exact ⟨hp.1, fun answer => ih answer (hp.2 answer)⟩

/-- **Programs in sequence**: the second is correct after what the first returns. -/
theorem Correct.bind {f : α → Prog Q A ε β}
    (hp : Correct allowed (fun h a => Correct allowed post' raised h (f a)) raised h p) :
    Correct allowed post' raised h (p >>= f) := by
  show Correct allowed post' raised h (p.bind f)
  induction p generalizing h with
  | ret a => exact hp
  | fail e => exact hp
  | ask q next ih => exact ⟨hp.1, fun answer => ih answer (hp.2 answer)⟩

/-- **A program whose failure is handled** is correct if it is handled so after each of its
failures. -/
theorem Correct.rescue {f : ε → Prog Q A ε α} {inner : History Q A → ε → Prop}
    (hp : Correct allowed post inner h p)
    (hf : ∀ h e, inner h e → Correct allowed post raised h (f e)) :
    Correct allowed post raised h (p.rescue f) := by
  induction p generalizing h with
  | ret a => exact hp
  | fail e => exact hf h e hp
  | ask q next ih => exact ⟨hp.1, fun answer => ih answer (hp.2 answer)⟩

/-- How a run may end. -/
def Ended (post : History Q A → α → Prop) (raised : History Q A → ε → Prop)
    (run : History Q A × Except ε α) : Prop :=
  match run.2 with
  | .ok a => post run.1 a
  | .error e => raised run.1 e

/-- **In every environment** each query of a correct program is allowed by the history before it,
and the run ends as it may. -/
theorem Correct.of_run (hp : Correct allowed post raised h p) (hall : AllAllowed allowed h)
    (environment : History Q A → (q : Q) → A q) :
    AllAllowed allowed (p.run environment h).1 ∧ Ended post raised (p.run environment h) := by
  induction p generalizing h with
  | ret a => exact ⟨hall, hp⟩
  | fail e => exact ⟨hall, hp⟩
  | ask q next ih => exact ih _ (hp.2 _) (hall.snoc hp.1)

/-- Every answer in the history of a run is one of the environment. -/
theorem answer_of_mem_run {environment : History Q A → (q : Q) → A q} {event : Event Q A}
    (hevent : event ∈ (p.run environment h).1) (hnew : event ∉ h) :
    ∃ earlier, event.answer = environment earlier event.query := by
  induction p generalizing h with
  | ret a => exact absurd hevent hnew
  | fail e => exact absurd hevent hnew
  | ask q next ih =>
    by_cases hlast : event = ⟨q, environment h q⟩
    · exact ⟨h, by rw [hlast]⟩
    · refine ih _ hevent fun hin => ?_
      exact (List.mem_append.mp hin).elim hnew fun hsingle => hlast (List.mem_singleton.mp hsingle)

/-! ### Programs in environments that can be relied on -/

section Ensures

variable {S : Type} (observe : S → Event Q A → S) (rely : S → Event Q A → Prop)

/-- **How a program ends in an environment that can be relied on.** The events are folded into a
state; only answers that the state admits are considered. A returned value meets a condition on the
state at the end, and a failure meets another. -/
def Ensures (post : S → α → Prop) (raised : S → ε → Prop) : S → Prog Q A ε α → Prop
  | s, .ret a => post s a
  | s, .fail e => raised s e
  | s, .ask q next =>
    ∀ answer, rely s ⟨q, answer⟩ → Ensures post raised (observe s ⟨q, answer⟩) (next answer)

variable {observe rely} {s : S} {post : S → α → Prop} {post' : S → β → Prop}
  {raised : S → ε → Prop}

theorem Ensures.query {q : Q} {post : S → A q → Prop}
    (hpost : ∀ answer, rely s ⟨q, answer⟩ → post (observe s ⟨q, answer⟩) answer) :
    Ensures observe rely post raised s (Prog.query q : Prog Q A ε (A q)) := hpost

/-- A condition that is required holds afterwards, or the program fails. -/
theorem Ensures.require {p : Prop} [Decidable p] {e : ε} {post : S → Unit → Prop}
    (hpost : p → post s ()) (hraised : ¬ p → raised s e) :
    Ensures observe rely post raised s (Prog.require p e : Prog Q A ε Unit) := by
  unfold Prog.require
  split_ifs with hp
  · exact hpost hp
  · exact hraised hp

/-- A value that is there is used, or the program fails. -/
theorem Ensures.orFail {e : ε} {a : Option α} (hpost : ∀ b, a = some b → post s b)
    (hraised : a = none → raised s e) :
    Ensures observe rely post raised s (Prog.orFail e a : Prog Q A ε α) := by
  cases a with
  | none => exact hraised rfl
  | some b => exact hpost b rfl

variable {p : Prog Q A ε α}

/-- Weaker conditions on the returned value and on the failure. -/
theorem Ensures.mono {weaker : S → α → Prop} {weakerRaised : S → ε → Prop}
    (hp : Ensures observe rely post raised s p) (hle : ∀ s a, post s a → weaker s a)
    (hraised : ∀ s e, raised s e → weakerRaised s e) :
    Ensures observe rely weaker weakerRaised s p := by
  induction p generalizing s with
  | ret a => exact hle _ _ hp
  | fail e => exact hraised _ _ hp
  | ask q next ih => exact fun answer hanswer => ih answer (hp answer hanswer)

/-- **Programs in sequence**: the second runs from each state that the first ends in. -/
theorem Ensures.bind {f : α → Prog Q A ε β}
    (hp : Ensures observe rely (fun s a => Ensures observe rely post' raised s (f a)) raised s p) :
    Ensures observe rely post' raised s (p >>= f) := by
  show Ensures observe rely post' raised s (p.bind f)
  induction p generalizing s with
  | ret a => exact hp
  | fail e => exact hp
  | ask q next ih => exact fun answer hanswer => ih answer (hp answer hanswer)

/-- **A program whose failure is handled**, after each of its failures. -/
theorem Ensures.rescue {f : ε → Prog Q A ε α} {inner : S → ε → Prop}
    (hp : Ensures observe rely post inner s p)
    (hf : ∀ s e, inner s e → Ensures observe rely post raised s (f e)) :
    Ensures observe rely post raised s (p.rescue f) := by
  induction p generalizing s with
  | ret a => exact hp
  | fail e => exact hf s e hp
  | ask q next ih => exact fun answer hanswer => ih answer (hp answer hanswer)

/-- **In every environment of which the answers are admitted** a run ends as it may. -/
theorem Ensures.of_run {start : S} {h : History Q A}
    (hp : Ensures observe rely post raised (h.foldl observe start) p)
    {environment : History Q A → (q : Q) → A q}
    (hrely : ∀ h q, rely (h.foldl observe start) ⟨q, environment h q⟩) :
    Ended (fun h a => post (h.foldl observe start) a)
      (fun h e => raised (h.foldl observe start) e) (p.run environment h) := by
  induction p generalizing h with
  | ret a => exact hp
  | fail e => exact hp
  | ask q next ih =>
    refine ih _ ?_
    have hnext := hp _ (hrely h q)
    rwa [List.foldl_append]

end Ensures

end Prog

end Interaction
