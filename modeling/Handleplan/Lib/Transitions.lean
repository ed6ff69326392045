import Mathlib.Order.Basic

/-!
# Labelled transition systems

The states a system can reach by steps that all meet a condition, and the rule by which an invariant
of one step is an invariant of every run.

## Main definitions

* `Transitions.System` — initial states and a partial step function for each event.
* `Transitions.System.Reachable` — the states reached by runs whose steps meet a condition.

## Main results

* `Transitions.System.Reachable.invariant` — what holds initially and is kept by each step holds in
  every state reached.
* `Transitions.System.Reachable.mono` — a weaker condition on the steps reaches no fewer states.
-/

namespace Transitions

variable {σ ε : Type*}

/-- A transition system: an event leads from a state to another one, or is not possible there. -/
structure System (σ ε : Type*) where
  init : σ → Prop
  step : σ → ε → Option σ

namespace System

/-- The states reached by runs all of whose steps meet a condition on state and event. -/
inductive Reachable (S : System σ ε) (allowed : σ → ε → Prop) : σ → Prop
  | init {s : σ} (h : S.init s) : Reachable S allowed s
  | next {s t : σ} {e : ε} (h : Reachable S allowed s) (hallowed : allowed s e)
      (hstep : S.step s e = some t) : Reachable S allowed t

variable {S : System σ ε} {allowed : σ → ε → Prop}

/-- **An invariant of every step** that holds initially holds in every state reached. -/
theorem Reachable.invariant {I : σ → Prop} (hinit : ∀ s, S.init s → I s)
    (hstep : ∀ s e t, I s → allowed s e → S.step s e = some t → I t) {s : σ}
    (h : S.Reachable allowed s) : I s := by
  induction h with
  | init hs => exact hinit _ hs
  | next _ hallowed hs ih => exact hstep _ _ _ ih hallowed hs

/-- A weaker condition on the steps reaches no fewer states. -/
theorem Reachable.mono {allowed' : σ → ε → Prop} (hle : ∀ s e, allowed s e → allowed' s e) {s : σ}
    (h : S.Reachable allowed s) : S.Reachable allowed' s := by
  induction h with
  | init hs => exact .init hs
  | next _ hallowed hs ih => exact .next ih (hle _ _ hallowed) hs

/-- The state after a list of events, when each is possible in turn. -/
def run (S : System σ ε) : σ → List ε → Option σ
  | s, [] => some s
  | s, e :: es => (S.step s e).bind fun t => S.run t es

/-- What a list of events leads to from a reachable state is reachable, when every step is
allowed. -/
theorem Reachable.run {s t : σ} {es : List ε} (h : S.Reachable (fun _ _ => True) s)
    (hrun : S.run s es = some t) : S.Reachable (fun _ _ => True) t := by
  induction es generalizing s with
  | nil => exact Option.some.inj hrun ▸ h
  | cons e es ih =>
    obtain ⟨u, hu, hrest⟩ := Option.bind_eq_some_iff.mp hrun
    exact ih (.next h trivial hu) hrest

/-- The state after a list of events that all meet a condition. -/
def runWhere (S : System σ ε) (allowed : σ → ε → Prop) [∀ s e, Decidable (allowed s e)] :
    σ → List ε → Option σ
  | s, [] => some s
  | s, e :: es =>
    if allowed s e then (S.step s e).bind fun t => S.runWhere allowed t es else none

/-- What such a list of events leads to is reached by steps that meet the condition. -/
theorem Reachable.runWhere [∀ s e, Decidable (allowed s e)] {s t : σ} {es : List ε}
    (h : S.Reachable allowed s) (hrun : S.runWhere allowed s es = some t) :
    S.Reachable allowed t := by
  induction es generalizing s with
  | nil => exact Option.some.inj hrun ▸ h
  | cons e es ih =>
    obtain ⟨hallowed, hrun⟩ := Option.ite_none_right_eq_some.mp hrun
    obtain ⟨u, hu, hrest⟩ := Option.bind_eq_some_iff.mp hrun
    exact ih (.next h hallowed hu) hrest

/-- The state that such a list of events leads to is reached. -/
theorem Reachable.runWhere_get [∀ s e, Decidable (allowed s e)] {s : σ} {es : List ε}
    (h : S.Reachable allowed s) (hrun : (S.runWhere allowed s es).isSome) :
    S.Reachable allowed ((S.runWhere allowed s es).get hrun) :=
  h.runWhere (Option.some_get hrun).symm

end System

end Transitions
