import Handleplan.Lib.RowLocks

/-!
# Calls that run one after another

A call that takes one exclusive lock before it touches the tables runs as if it were alone: what is
committed is one trace of the tables, call after call, and a call under way goes on with it.

## Main definitions

* `Serial.Leads` — a way through a program, with its outcome.
* `Serial.Tables` — how events are answered by the tables, and how they change them.
* `Serial.Tables.Traces` — a history whose events are answered by the tables that precede them.
* `Serial.IsSerial` — the calls of a database touch the tables under one lock only.

## Main results

* `Serial.leads_bind` — the ways through two programs in sequence.
* `Serial.leads_of_reachable` — every transaction has gone a way through the program of its call.
* `Serial.IsSerial.goesOn_of_reachable` — what is committed is one trace.
-/

namespace Serial

open Interaction Sessions RowLocks

/-! ### Ways through a program -/

section Leads

variable {Q : Type} {A : Q → Type} {ε α β : Type}

/-- A way through a program, with its outcome. -/
def Leads : Prog Q A ε α → History Q A → Except ε α → Prop
  | .ret a, h, outcome => h = [] ∧ outcome = .ok a
  | .fail e, h, outcome => h = [] ∧ outcome = .error e
  | .ask q next, h, outcome =>
    ∃ answer rest, h = ⟨q, answer⟩ :: rest ∧ Leads (next answer) rest outcome

variable {h : History Q A} {e : ε}

/-- **The ways through two programs in sequence**: the first one fails, or the second goes on. -/
theorem leads_bind {p : Prog Q A ε α} {f : α → Prog Q A ε β} {outcome : Except ε β} :
    Leads (p >>= f) h outcome ↔ (∃ e, Leads p h (.error e) ∧ outcome = .error e) ∨
      ∃ first a second, h = first ++ second ∧ Leads p first (.ok a) ∧ Leads (f a) second outcome := by
  show Leads (p.bind f) h outcome ↔ _
  induction p generalizing h with
  | ret a =>
    constructor
    · exact fun hf => .inr ⟨[], a, h, rfl, ⟨rfl, rfl⟩, hf⟩
    · rintro (⟨e, ⟨-, he⟩, -⟩ | ⟨first, b, second, rfl, ⟨rfl, hb⟩, hf⟩)
      · cases he
      · cases hb
        exact hf
  | fail e =>
    constructor
    · rintro ⟨rfl, rfl⟩
      exact .inl ⟨e, ⟨rfl, rfl⟩, rfl⟩
    · rintro (⟨e', ⟨rfl, he⟩, rfl⟩ | ⟨first, b, second, rfl, ⟨-, hb⟩, -⟩)
      · obtain rfl := Except.error.inj he
        exact ⟨rfl, rfl⟩
      · cases hb
  | ask q next ih =>
    constructor
    · rintro ⟨answer, rest, rfl, hrest⟩
      rcases (ih answer).mp hrest with ⟨e, he, rfl⟩ | ⟨first, a, second, rfl, ha, hf⟩
      · exact .inl ⟨e, ⟨answer, rest, rfl, he⟩, rfl⟩
      · exact .inr ⟨⟨q, answer⟩ :: first, a, second, rfl, ⟨answer, first, rfl, ha⟩, hf⟩
    · rintro (⟨e, ⟨answer, rest, rfl, he⟩, rfl⟩ | ⟨first, a, second, rfl, ⟨answer, rest, rfl, ha⟩, hf⟩)
      · exact ⟨answer, rest, rfl, (ih answer).mpr (.inl ⟨e, he, rfl⟩)⟩
      · exact ⟨answer, rest ++ second, rfl, (ih answer).mpr (.inr ⟨rest, a, second, rfl, ha, hf⟩)⟩

/-- The ways through a requirement and what follows it. -/
theorem leads_require_bind {p : Prop} [Decidable p] {f : Unit → Prog Q A ε β}
    {outcome : Except ε β} :
    Leads (Prog.require p e >>= f) h outcome ↔
      (p ∧ Leads (f ()) h outcome) ∨ (¬ p ∧ h = [] ∧ outcome = .error e) := by
  unfold Prog.require
  by_cases hp : p
  · rw [if_pos hp]
    simp only [hp, true_and, not_true, false_and, or_false]
    exact Iff.rfl
  · rw [if_neg hp]
    simp only [hp, false_and, not_false_eq_true, true_and, false_or]
    exact Iff.rfl

/-- The ways through a value that may be missing and what follows it. -/
theorem leads_orFail_bind {a : Option α} {f : α → Prog Q A ε β} {outcome : Except ε β} :
    Leads (Prog.orFail e a >>= f) h outcome ↔
      (∃ b, a = some b ∧ Leads (f b) h outcome) ∨ (a = none ∧ h = [] ∧ outcome = .error e) := by
  cases a with
  | none =>
    simp only [reduceCtorEq, false_and, exists_false, true_and, false_or]
    exact Iff.rfl
  | some b =>
    simp only [Option.some.injEq, exists_eq_left', reduceCtorEq, false_and, or_false]
    exact Iff.rfl

variable {S C ρ : Type} [DecidableEq S] {db : Database S C Q A ε ρ} {st : State S C Q A ε ρ}
  {allowed : State S C Q A ε ρ → Step S C Q A → Prop}

/-- **Every transaction has gone a way through the program of its call**, and may end as what is
left of it ends. -/
theorem leads_of_reachable (hst : db.system.Reachable allowed st) :
    Database.Everywhere st
      (fun t => ∀ rest outcome, Leads t.rest rest outcome →
        Leads (db.program t.call) (t.history ++ rest) outcome)
      fun t => Leads (db.program t.call) t.history (.ok t.result) := by
  refine hst.invariant (I := fun st => Database.Everywhere st
    (fun t => ∀ rest outcome, Leads t.rest rest outcome →
      Leads (db.program t.call) (t.history ++ rest) outcome)
    fun t => Leads (db.program t.call) t.history (.ok t.result))
    (fun st hst => Database.everywhere_of_init hst) fun st e st' hall _ hstep => ?_
  refine (Database.effect_of_step hstep).everywhere hall (fun t ht => ht) (fun t ht => ht)
    (fun c rest outcome hrest => hrest) ?_ ?_
  · intro s t q next answers _ hrest _ _ hinv rest outcome hnext
    rw [List.append_assoc]
    refine hinv _ _ ?_
    rw [hrest]
    exact ⟨answers q, rest, rfl, hnext⟩
  · intro t r hrest hinv
    have hend := hinv [] (.ok r) (by rw [hrest]; exact ⟨rfl, rfl⟩)
    rwa [List.append_nil] at hend

end Leads

/-! ### Tables -/

section Tables

variable {Q : Type} {A : Q → Type} {σ : Type}

/-- How events are answered by the tables, and how they change them. -/
structure Tables (Q : Type) (A : Q → Type) (σ : Type) where
  apply : σ → Event Q A → σ
  Answers : σ → Event Q A → Prop

namespace Tables

variable (tables : Tables Q A σ) {s : σ} {h h' : History Q A} {event : Event Q A}

/-- The tables after a history. -/
def after (s : σ) (h : History Q A) : σ := h.foldl tables.apply s

/-- Each event of a history is answered by the tables that precede it. -/
def Traces : σ → History Q A → Prop
  | _, [] => True
  | s, event :: rest => tables.Answers s event ∧ Traces (tables.apply s event) rest

/-- An event that any tables answer, and that leaves them as they are. -/
def IsNeutral (event : Event Q A) : Prop :=
  ∀ s, tables.Answers s event ∧ tables.apply s event = s

variable {tables}

@[simp] theorem after_nil : tables.after s [] = s := rfl

@[simp] theorem after_cons : tables.after s (event :: h) = tables.after (tables.apply s event) h :=
  rfl

theorem after_append : tables.after s (h ++ h') = tables.after (tables.after s h) h' :=
  List.foldl_append

@[simp] theorem traces_nil : tables.Traces s [] := trivial

theorem traces_cons : tables.Traces s (event :: h) ↔
    tables.Answers s event ∧ tables.Traces (tables.apply s event) h := Iff.rfl

theorem traces_append :
    tables.Traces s (h ++ h') ↔ tables.Traces s h ∧ tables.Traces (tables.after s h) h' := by
  induction h generalizing s with
  | nil => exact (and_iff_right trivial).symm
  | cons event h ih => rw [List.cons_append, traces_cons, traces_cons, ih, after_cons, and_assoc]

theorem traces_singleton : tables.Traces s [event] ↔ tables.Answers s event :=
  and_iff_left trivial

/-- Neutral events are a trace that leaves the tables as they are. -/
theorem of_isNeutral (hall : ∀ event ∈ h, tables.IsNeutral event) :
    tables.Traces s h ∧ tables.after s h = s := by
  induction h generalizing s with
  | nil => exact ⟨trivial, rfl⟩
  | cons event h ih =>
    obtain ⟨hanswers, happly⟩ := hall event List.mem_cons_self s
    rw [traces_cons, after_cons, happly]
    obtain ⟨htraces, hafter⟩ := ih (s := s) fun e he => hall e (List.mem_cons_of_mem _ he)
    exact ⟨⟨hanswers, htraces⟩, hafter⟩

end Tables

/-- A program that holds the lock may ask anything. -/
theorem safe_of_holds {ε ρ K V : Type} {access : Access Q A K V} {lock : K} {mode : Mode}
    {P : History Q A → Q → Prop} {p : Prog Q A ε ρ} {h : History Q A}
    (hholds : access.Holds h lock mode) :
    Prog.Safe (fun h q => P h q ∨ access.Holds h lock mode) (fun _ _ => True) h p := by
  induction p generalizing h with
  | ret a => trivial
  | fail e => trivial
  | ask q next ih => exact ⟨.inr hholds, fun answer => ih answer (hholds.append _)⟩

end Tables


/-! ### Databases -/

section Serial

variable {S C Q : Type} {A : Q → Type} {ε ρ K V σ : Type}

/-- What committed calls have asked, in order. -/
def logOf (committed : List (Committed C Q A ρ)) : History Q A :=
  committed.flatMap fun t => t.history

theorem logOf_append (committed : List (Committed C Q A ρ)) (t : Committed C Q A ρ) :
    logOf (committed ++ [t]) = logOf committed ++ t.history := by
  simp [logOf]

variable [DecidableEq S]

/-- **The calls of a database touch the tables under one lock only**, and what the database answers
is what the tables answer; some condition on the clock is kept. -/
structure IsSerial (db : Database S C Q A ε ρ) (access : Access Q A K V) (tables : Tables Q A σ)
    (lock : K) (start : σ) (Within : ℤ → σ → Prop) : Prop where
  waits : ∀ st s q a, db.Admits st s q a → ∀ l ∈ access.locks ⟨q, a⟩, access.IsFree st s l.1 l.2
  locked : ∀ c, Prog.Safe
    (fun h q => (∀ a, tables.IsNeutral ⟨q, a⟩) ∨ access.Holds h lock .update) (fun _ _ => True) []
    (db.program c)
  starts : ∀ clock, Within clock start
  elapses : ∀ clock clock' s, clock ≤ clock' → Within clock s → Within clock' s
  answers : ∀ st s t q a, st.transaction s = some t → db.Admits st s q a →
    Within st.clock (tables.after start (logOf st.committed ++ t.history)) →
      tables.Answers (tables.after start (logOf st.committed ++ t.history)) ⟨q, a⟩ ∧
        Within st.clock (tables.apply (tables.after start (logOf st.committed ++ t.history)) ⟨q, a⟩)

variable {db : Database S C Q A ε ρ} {access : Access Q A K V} {tables : Tables Q A σ} {lock : K}
  {start : σ} {Within : ℤ → σ → Prop} {st : State S C Q A ε ρ}
  {allowed : State S C Q A ε ρ → Step S C Q A → Prop}

/-- What a call under way relies on: it goes on with the trace of what is committed, and has touched
the tables only if it holds the lock. -/
structure GoesOn (access : Access Q A K V) (tables : Tables Q A σ) (lock : K) (start : σ)
    (Within : ℤ → σ → Prop) (clock : ℤ) (committed : List (Committed C Q A ρ))
    (t : Transaction C Q A ε ρ) : Prop where
  traces : tables.Traces start (logOf committed ++ t.history)
  within : Within clock (tables.after start (logOf committed ++ t.history))
  locked : access.Holds t.history lock .update ∨ ∀ event ∈ t.history, tables.IsNeutral event

/-- **What is committed is one trace**, and every call under way goes on with it.

**Proof sketch.** Two calls do not both hold the lock, and a call without it has asked only what any
tables answer; so a commit changes nothing for the calls under way. -/
theorem IsSerial.goesOn_of_reachable (h : IsSerial db access tables lock start Within)
    (hst : db.system.Reachable allowed st) :
    (tables.Traces start (logOf st.committed) ∧
        Within st.clock (tables.after start (logOf st.committed))) ∧
      ∀ p ∈ st.running, GoesOn access tables lock start Within st.clock st.committed p.2 := by
  refine Database.each_of_reachable
    (J := fun clock committed t => GoesOn access tables lock start Within clock committed t)
    (G := fun clock committed => tables.Traces start (logOf committed) ∧
      Within clock (tables.after start (logOf committed)))
    (fun clock => ⟨trivial, h.starts clock⟩)
    (fun clock clock' committed hle hG => ⟨hG.1, h.elapses _ _ _ hle hG.2⟩)
    (fun clock committed c hG => ⟨?_, ?_, .inr fun event hevent => ?_⟩)
    (fun clock clock' committed t hle hJ => ⟨hJ.traces, h.elapses _ _ _ hle hJ.within, hJ.locked⟩)
    ?_ ?_ ?_ hst
  · rw [List.append_nil]
    exact hG.1
  · rw [List.append_nil]
    exact hG.2
  · cases hevent
  · intro st s t q next answers hreach ht hrest hadmits _ hJ
    obtain ⟨hanswers, hwithin⟩ := h.answers st s t q (answers q) ht hadmits hJ.within
    refine ⟨?_, ?_, ?_⟩
    · rw [← List.append_assoc, Tables.traces_append, Tables.traces_singleton]
      exact ⟨hJ.traces, hanswers⟩
    · rw [← List.append_assoc, Tables.after_append, Tables.after_cons, Tables.after_nil]
      exact hwithin
    · have hsafe := (Database.safe_of_reachable h.locked hreach).1 _ (State.mem_of_transaction ht)
      dsimp only at hsafe
      rw [hrest] at hsafe
      rcases hJ.locked with hholds | hneutral
      · exact .inl (hholds.append _)
      · rcases hsafe.1 with hnew | hholds
        · refine .inr fun event hevent => ?_
          rcases List.mem_append.mp hevent with hold | hlast
          · exact hneutral event hold
          · rw [List.mem_singleton.mp hlast]
            exact hnew _
        · exact .inl (hholds.append _)
  · intro st p t r hreach ht hp hne hJp hJt
    have hexclusive := Access.exclusive_of_reachable h.waits hreach
    have hlog : logOf (st.committed ++ [⟨t.2.call, t.2.history, r⟩]) =
        logOf st.committed ++ t.2.history := logOf_append _ _
    by_cases hholds : access.Holds t.2.history lock .update
    · -- the other call does not hold the lock, so it has not touched the tables
      have hneutral : ∀ event ∈ p.2.history, tables.IsNeutral event := by
        refine hJp.locked.resolve_left fun hp' => ?_
        exact hexclusive p hp t ht hne lock .update .update hp' hholds trivial
      obtain ⟨htraces, hafter⟩ := Tables.of_isNeutral
        (s := tables.after start (logOf st.committed ++ t.2.history)) hneutral
      refine ⟨?_, ?_, .inr hneutral⟩
      · rw [hlog, Tables.traces_append]
        exact ⟨hJt.traces, htraces⟩
      · rw [hlog, Tables.after_append, hafter]
        exact hJt.within
    · -- what is committed has not touched the tables
      obtain ⟨htraces, hafter⟩ := Tables.of_isNeutral
        (s := tables.after start (logOf st.committed)) (hJt.locked.resolve_left hholds)
      have heq : tables.after start (logOf st.committed ++ t.2.history) =
          tables.after start (logOf st.committed) := by rw [Tables.after_append, hafter]
      refine ⟨?_, ?_, hJp.locked⟩
      · rw [hlog, Tables.traces_append, heq]
        exact ⟨hJt.traces, (Tables.traces_append.mp hJp.traces).2⟩
      · rw [hlog, Tables.after_append, heq, ← Tables.after_append]
        exact hJp.within
  · intro clock committed t r hG hJ
    have hlog : logOf (committed ++ [⟨t.call, t.history, r⟩]) = logOf committed ++ t.history :=
      logOf_append _ _
    rw [hlog]
    exact ⟨hJ.traces, hJ.within⟩

end Serial

end Serial
