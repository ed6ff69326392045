import Handleplan.Lib.Interaction
import Handleplan.Lib.Transitions
import Mathlib.Data.List.Infix
import Mathlib.Algebra.Order.Group.Int

/-!
# Interleaved sessions of a database

Sessions run calls, and each call is a program that asks statements. Between any two statements the
clock may advance and other sessions may go on. What a transaction has written is what it has asked
so far, and becomes visible when it commits; so the contents of the tables, the locks that are held
and the keys that are taken are all functions of the histories of transactions.

## Main definitions

* `Sessions.State` — the clock, the transactions under way and those that are committed.
* `Sessions.Database` — the programs of the calls, and which answers a statement may get.
* `Sessions.Database.system` — all interleavings of sessions.

## Main results

* `Sessions.Database.effect_of_step` — what one step does.
* `Sessions.Database.safe_of_reachable` — what a program guarantees of each transaction.
* `Sessions.Database.along_of_reachable` — what is so when a statement is answered, and is not
  undone later, is so of every statement.
* `Sessions.Database.each_of_reachable` — what a transaction relies on while others commit.
* `Sessions.Database.unique_of_reachable` — keys that a statement takes only when nobody has
  them are unique.
-/

namespace Sessions

open Interaction Transitions

variable {S C Q : Type} {A : Q → Type} {ε ρ : Type}

/-! ### States -/

/-- A call under way: what it has asked and was answered, and what it has still to do. -/
structure Transaction (C Q : Type) (A : Q → Type) (ε ρ : Type) where
  call : C
  history : History Q A
  rest : Prog Q A ε ρ

/-- A committed call, with its result. -/
structure Committed (C Q : Type) (A : Q → Type) (ρ : Type) where
  call : C
  history : History Q A
  result : ρ

/-- The clock, the transactions of the sessions, and what is committed, in order. -/
structure State (S C Q : Type) (A : Q → Type) (ε ρ : Type) where
  clock : ℤ
  running : List (S × Transaction C Q A ε ρ)
  committed : List (Committed C Q A ρ)

namespace State

variable (st : State S C Q A ε ρ)

section

variable [DecidableEq S]

/-- The transactions of the sessions other than one. -/
def others (s : S) : List (S × Transaction C Q A ε ρ) := st.running.filter fun p => p.1 ≠ s

/-- The transaction of a session. -/
def transaction (s : S) : Option (Transaction C Q A ε ρ) :=
  (st.running.find? fun p => p.1 = s).map Prod.snd

/-- A session goes on with a transaction. -/
def put (s : S) (t : Transaction C Q A ε ρ) : State S C Q A ε ρ :=
  { st with running := (s, t) :: st.others s }

/-- A session ends its transaction without a trace. -/
def drop (s : S) : State S C Q A ε ρ := { st with running := st.others s }

/-- A session ends its transaction and leaves what it has written. -/
def commit (s : S) (t : Committed C Q A ρ) : State S C Q A ε ρ :=
  { st with running := st.others s, committed := st.committed ++ [t] }

end

/-- The clock does not go back and what is committed stays. -/
structure Extends (st' : State S C Q A ε ρ) : Prop where
  clock : st.clock ≤ st'.clock
  committed : st.committed <+: st'.committed

variable {st}

variable [DecidableEq S]

theorem mem_others {s : S} {p : S × Transaction C Q A ε ρ} :
    p ∈ st.others s ↔ p ∈ st.running ∧ p.1 ≠ s := by
  unfold others
  rw [List.mem_filter, decide_eq_true_iff]

theorem mem_of_transaction {s : S} {t : Transaction C Q A ε ρ} (h : st.transaction s = some t) :
    (s, t) ∈ st.running := by
  obtain ⟨p, hp, rfl⟩ := Option.map_eq_some_iff.mp h
  have hs : p.1 = s := by simpa using List.find?_some hp
  exact hs ▸ List.mem_of_find?_eq_some hp

end State

/-! ### Steps -/

/-- The programs of the calls of a database, and the answers that a statement of a session may get.
A statement that has to wait gets none. -/
structure Database (S C Q : Type) (A : Q → Type) (ε ρ : Type) where
  program : C → Prog Q A ε ρ
  Admits : State S C Q A ε ρ → S → (q : Q) → A q → Prop
  decidableAdmits : ∀ st s q a, Decidable (Admits st s q a)

/-- What may happen next. -/
inductive Step (S C Q : Type) (A : Q → Type) where
  | elapses (d : ℕ)
  | begins (s : S) (c : C)
  | proceeds (s : S) (answers : (q : Q) → A q)
  | aborts (s : S)

namespace Database

variable [DecidableEq S] (db : Database S C Q A ε ρ)

instance (st : State S C Q A ε ρ) (s : S) (q : Q) (a : A q) : Decidable (db.Admits st s q a) :=
  db.decidableAdmits st s q a

/-- One session goes on with its transaction. -/
def proceed (st : State S C Q A ε ρ) (s : S) (answers : (q : Q) → A q)
    (t : Transaction C Q A ε ρ) : Option (State S C Q A ε ρ) :=
  match t.rest with
  | .ret r => some (st.commit s ⟨t.call, t.history, r⟩)
  | .fail _ => some (st.drop s)
  | .ask q next =>
    if db.Admits st s q (answers q) then
      some (st.put s ⟨t.call, t.history ++ [⟨q, answers q⟩], next (answers q)⟩)
    else none

/-- One step. -/
def step (st : State S C Q A ε ρ) : Step S C Q A → Option (State S C Q A ε ρ)
  | .elapses d => some { st with clock := st.clock + d }
  | .begins s c =>
    if (st.transaction s).isNone then some (st.put s ⟨c, [], db.program c⟩) else none
  | .proceeds s answers => (st.transaction s).bind fun t => db.proceed st s answers t
  | .aborts s => some (st.drop s)

/-- All interleavings of sessions, from a clock at which nothing is committed. -/
def system : System (State S C Q A ε ρ) (Step S C Q A) where
  init st := st.running = [] ∧ st.committed = []
  step := db.step

/-- **What one step does.** -/
inductive Effect (st : State S C Q A ε ρ) : Step S C Q A → State S C Q A ε ρ → Prop
  | elapses (d : ℕ) : Effect st (.elapses d) { st with clock := st.clock + d }
  | begins (s : S) (c : C) : Effect st (.begins s c) (st.put s ⟨c, [], db.program c⟩)
  | asks {s : S} {t : Transaction C Q A ε ρ} {q : Q} {next : A q → Prog Q A ε ρ}
      {answers : (q : Q) → A q} (ht : st.transaction s = some t) (hrest : t.rest = .ask q next)
      (hadmits : db.Admits st s q (answers q)) :
      Effect st (.proceeds s answers)
        (st.put s ⟨t.call, t.history ++ [⟨q, answers q⟩], next (answers q)⟩)
  | commits {s : S} {t : Transaction C Q A ε ρ} {r : ρ} {answers : (q : Q) → A q}
      (ht : st.transaction s = some t) (hrest : t.rest = .ret r) :
      Effect st (.proceeds s answers) (st.commit s ⟨t.call, t.history, r⟩)
  | ends {s : S} {e : Step S C Q A} : Effect st e (st.drop s)

variable {db} {st st' : State S C Q A ε ρ} {e : Step S C Q A}

/-- **What a step does.** -/
theorem effect_of_step (h : db.step st e = some st') : db.Effect st e st' := by
  cases e with
  | elapses d => exact Option.some.inj h ▸ .elapses d
  | begins s c =>
    obtain ⟨-, heq⟩ := Option.ite_none_right_eq_some.mp h
    exact Option.some.inj heq ▸ .begins s c
  | aborts s => exact Option.some.inj h ▸ .ends
  | proceeds s answers =>
    obtain ⟨t, ht, hproceed⟩ := Option.bind_eq_some_iff.mp h
    unfold proceed at hproceed
    split at hproceed
    case h_1 r hrest => exact Option.some.inj hproceed ▸ .commits ht hrest
    case h_2 => exact Option.some.inj hproceed ▸ .ends
    case h_3 q next hrest =>
      obtain ⟨hadmits, heq⟩ := Option.ite_none_right_eq_some.mp hproceed
      exact Option.some.inj heq ▸ .asks ht hrest hadmits

/-- A statement that a session goes on with is answered. -/
theorem admits_of_step {s : S} {answers : (q : Q) → A q} {t : Transaction C Q A ε ρ} {q : Q}
    (h : db.step st (.proceeds s answers) = some st') (ht : st.transaction s = some t)
    (hq : t.rest.next? = some q) :
    db.Admits st s q (answers q) ∧ ∃ next, t.rest = .ask q next := by
  obtain ⟨t', ht', hproceed⟩ := Option.bind_eq_some_iff.mp h
  obtain rfl := Option.some.inj (ht'.symm.trans ht)
  unfold proceed at hproceed
  split at hproceed
  case h_1 r hrest => rw [hrest] at hq; cases hq
  case h_2 e hrest => rw [hrest] at hq; cases hq
  case h_3 q' next hrest =>
    obtain ⟨hadmits, -⟩ := Option.ite_none_right_eq_some.mp hproceed
    rw [hrest] at hq
    cases hq
    exact ⟨hadmits, next, hrest⟩

/-- A step extends what there was. -/
theorem Effect.extends (h : db.Effect st e st') : st.Extends st' := by
  cases h with
  | elapses d => exact ⟨by simp, List.prefix_refl _⟩
  | begins => exact ⟨le_refl _, List.prefix_refl _⟩
  | asks => exact ⟨le_refl _, List.prefix_refl _⟩
  | commits => exact ⟨le_refl _, List.prefix_append _ _⟩
  | ends => exact ⟨le_refl _, List.prefix_refl _⟩

/-! ### What holds of every transaction -/

/-- Every transaction under way meets one condition, and every committed one another. -/
def Everywhere (st : State S C Q A ε ρ) (I : Transaction C Q A ε ρ → Prop)
    (J : Committed C Q A ρ → Prop) : Prop :=
  (∀ p ∈ st.running, I p.2) ∧ ∀ t ∈ st.committed, J t

/-- **The rule for conditions on single transactions**: they hold of a transaction that begins, are
kept by a statement, and lead to the condition on committed ones. -/
theorem Effect.everywhere {I I' : Transaction C Q A ε ρ → Prop} {J J' : Committed C Q A ρ → Prop}
    (h : db.Effect st e st') (hall : Everywhere st I J) (hI : ∀ t, I t → I' t)
    (hJ : ∀ t, J t → J' t) (hbegins : ∀ c, I' ⟨c, [], db.program c⟩)
    (hasks : ∀ s t q next answers, st.transaction s = some t → t.rest = .ask q next →
      e = .proceeds s answers → db.Admits st s q (answers q) → I t →
        I' ⟨t.call, t.history ++ [⟨q, answers q⟩], next (answers q)⟩)
    (hcommits : ∀ t r, t.rest = .ret r → I t → J' ⟨t.call, t.history, r⟩) :
    Everywhere st' I' J' := by
  obtain ⟨hrunning, hcommitted⟩ := hall
  have hothers : ∀ s, ∀ p ∈ st.others s, I' p.2 :=
    fun s p hp => hI _ (hrunning p (State.mem_others.mp hp).1)
  have hkept : ∀ t ∈ st.committed, J' t := fun t ht => hJ _ (hcommitted t ht)
  cases h with
  | elapses d => exact ⟨fun p hp => hI _ (hrunning p hp), hkept⟩
  | begins s c => exact ⟨List.forall_mem_cons.mpr ⟨hbegins c, hothers s⟩, hkept⟩
  | asks ht hrest hadmits =>
    refine ⟨List.forall_mem_cons.mpr ⟨?_, hothers _⟩, hkept⟩
    exact hasks _ _ _ _ _ ht hrest rfl hadmits (hrunning _ (State.mem_of_transaction ht))
  | commits ht hrest =>
    refine ⟨hothers _, fun other hother => ?_⟩
    obtain hold | hnew := List.mem_append.mp hother
    · exact hkept other hold
    · rw [List.mem_singleton.mp hnew]
      exact hcommits _ _ hrest (hrunning _ (State.mem_of_transaction ht))
  | ends => exact ⟨hothers _, hkept⟩

variable {allowed : State S C Q A ε ρ → Step S C Q A → Prop}

omit [DecidableEq S] in
theorem everywhere_of_init {I : Transaction C Q A ε ρ → Prop} {J : Committed C Q A ρ → Prop}
    (h : st.running = [] ∧ st.committed = []) : Everywhere st I J := by
  obtain ⟨hrunning, hcommitted⟩ := h
  exact ⟨fun p hp => by simp [hrunning] at hp, fun t ht => by simp [hcommitted] at ht⟩

/-- **What the programs guarantee**, each transaction keeps. -/
theorem safe_of_reachable {may : C → History Q A → Q → Prop} {post : C → History Q A → ρ → Prop}
    (hsafe : ∀ c, Prog.Safe (may c) (post c) [] (db.program c))
    (h : db.system.Reachable allowed st) :
    Everywhere st (fun t => Prog.Safe (may t.call) (post t.call) t.history t.rest)
      fun t => post t.call t.history t.result := by
  refine h.invariant (I := fun st => Everywhere st
    (fun t => Prog.Safe (may t.call) (post t.call) t.history t.rest)
    fun t => post t.call t.history t.result) (fun st hst => everywhere_of_init hst)
    fun st e st' hall _ hstep => ?_
  refine (effect_of_step hstep).everywhere hall (fun t ht => ht) (fun t ht => ht) hsafe ?_ ?_
  · intro s t q next answers _ hrest _ _ hinv
    rw [hrest] at hinv
    exact hinv.2 (answers q)
  · intro t r hrest hinv
    rw [hrest] at hinv
    exact hinv


/-- **What is so when a statement is answered**, and is not undone by what happens later, is so of
every statement in the history of a transaction. -/
theorem along_of_reachable {F : State S C Q A ε ρ → History Q A → Event Q A → Prop}
    (hmono : ∀ st st' before event, st.Extends st' → F st before event → F st' before event)
    (hadmits : ∀ st s t q next answers, st.transaction s = some t → t.rest = .ask q next →
      db.Admits st s q (answers q) → allowed st (.proceeds s answers) →
        Along (F st) t.history → F st t.history ⟨q, answers q⟩)
    (h : db.system.Reachable allowed st) :
    Everywhere st (fun t => Along (F st) t.history) fun t => Along (F st) t.history := by
  refine h.invariant (I := fun st => Everywhere st (fun t => Along (F st) t.history)
    fun t => Along (F st) t.history) (fun st hst => everywhere_of_init hst)
    fun st e st' hall hallowed hstep => ?_
  have heffect := effect_of_step hstep
  have hlater : ∀ h, Along (F st) h → Along (F st') h :=
    fun h hh => hh.mono fun _ _ => hmono _ _ _ _ heffect.extends
  refine heffect.everywhere hall (fun t ht => hlater _ ht) (fun t ht => hlater _ ht)
    (fun _ => Along.nil) ?_ fun t r _ ht => hlater _ ht
  rintro s t q next answers htransaction hrest rfl hadmit ht
  exact (hlater _ ht).snoc (hmono _ _ _ _ heffect.extends
    (hadmits st s t q next answers htransaction hrest hadmit hallowed ht))

/-- **What a transaction under way relies on**: a condition on the clock, on what is committed and
on the transaction, which it establishes itself and which no other commit undoes; and what is
committed meets a condition of its own at every clock.

**Proof sketch.** Induction on the run. A step changes one transaction, or the clock, or what is
committed; the conditions of the others only see the latter two. -/
theorem each_of_reachable {J : ℤ → List (Committed C Q A ρ) → Transaction C Q A ε ρ → Prop}
    {G : ℤ → List (Committed C Q A ρ) → Prop} (hempty : ∀ clock, G clock [])
    (hlater : ∀ clock clock' committed, clock ≤ clock' → G clock committed → G clock' committed)
    (hbegins : ∀ clock committed c, G clock committed → J clock committed ⟨c, [], db.program c⟩)
    (helapses : ∀ clock clock' committed t, clock ≤ clock' → J clock committed t →
      J clock' committed t)
    (hasks : ∀ st s t q next answers, db.system.Reachable allowed st →
      st.transaction s = some t → t.rest = .ask q next → db.Admits st s q (answers q) →
        allowed st (.proceeds s answers) → J st.clock st.committed t →
          J st.clock st.committed ⟨t.call, t.history ++ [⟨q, answers q⟩], next (answers q)⟩)
    (hcommits : ∀ st p t r, db.system.Reachable allowed st → t ∈ st.running → p ∈ st.running →
      p.1 ≠ t.1 → J st.clock st.committed p.2 → J st.clock st.committed t.2 →
        J st.clock (st.committed ++ [⟨t.2.call, t.2.history, r⟩]) p.2)
    (hcommitted : ∀ clock committed t r, G clock committed → J clock committed t →
      G clock (committed ++ [⟨t.call, t.history, r⟩]))
    (h : db.system.Reachable allowed st) :
    G st.clock st.committed ∧ ∀ p ∈ st.running, J st.clock st.committed p.2 := by
  induction h with
  | init hst =>
    obtain ⟨hrunning, hcommitted⟩ := hst
    exact ⟨hcommitted ▸ hempty _, fun p hp => by simp [hrunning] at hp⟩
  | @next st st' e hreach hallowed hstep ih =>
    obtain ⟨hG, hJ⟩ := ih
    have hothers : ∀ s, ∀ p ∈ st.others s, J st.clock st.committed p.2 :=
      fun s p hp => hJ p (State.mem_others.mp hp).1
    cases effect_of_step hstep with
    | elapses d => exact ⟨hlater _ _ _ (by simp) hG, fun p hp => helapses _ _ _ _ (by simp) (hJ p hp)⟩
    | begins s c => exact ⟨hG, List.forall_mem_cons.mpr ⟨hbegins _ _ c hG, hothers s⟩⟩
    | asks ht hrest hadmits =>
      have hown := hasks st _ _ _ _ _ hreach ht hrest hadmits hallowed
        (hJ _ (State.mem_of_transaction ht))
      exact ⟨hG, List.forall_mem_cons.mpr ⟨hown, hothers _⟩⟩
    | commits ht hrest =>
      have hmem := State.mem_of_transaction ht
      refine ⟨hcommitted _ _ _ _ hG (hJ _ hmem), fun p hp => ?_⟩
      obtain ⟨hp, hne⟩ := State.mem_others.mp hp
      exact hcommits _ p _ _ hreach hmem hp hne (hJ p hp) (hJ _ hmem)
    | ends => exact ⟨hG, hothers _⟩

/-! ### Keys -/

section Keys

variable {K : Type} (keys : Event Q A → List K)

/-- The keys that a history takes. -/
def keysOf (h : History Q A) : List K := h.flatMap keys

/-- The keys that are committed. -/
def committedKeys (st : State S C Q A ε ρ) : List K :=
  st.committed.flatMap fun t => keysOf keys t.history

/-- The keys that a statement takes are nobody's. -/
def Fresh (st : State S C Q A ε ρ) (ks : List K) : Prop :=
  ks.Nodup ∧ ∀ k ∈ ks, k ∉ committedKeys keys st ∧ ∀ p ∈ st.running, k ∉ keysOf keys p.2.history

/-- No key is taken twice. -/
structure Unique (st : State S C Q A ε ρ) : Prop where
  committed : (committedKeys keys st).Nodup
  running : ∀ p ∈ st.running, (keysOf keys p.2.history).Nodup ∧
    (committedKeys keys st).Disjoint (keysOf keys p.2.history)
  between : ∀ p ∈ st.running, ∀ p' ∈ st.running, p.1 ≠ p'.1 →
    (keysOf keys p.2.history).Disjoint (keysOf keys p'.2.history)

variable {keys}

theorem keysOf_snoc (h : History Q A) (event : Event Q A) :
    keysOf keys (h ++ [event]) = keysOf keys h ++ keys event := by
  simp [keysOf]

theorem Unique.drop (h : Unique keys st) (s : S) : Unique keys (st.drop s) where
  committed := h.committed
  running p hp := h.running p (State.mem_others.mp hp).1
  between p hp p' hp' := h.between p (State.mem_others.mp hp).1 p' (State.mem_others.mp hp').1

variable {s : S} {t : Transaction C Q A ε ρ}

/-- A transaction goes on with keys that are unique among those of the others. -/
theorem Unique.put (h : Unique keys st) (hnodup : (keysOf keys t.history).Nodup)
    (hcommitted : (committedKeys keys st).Disjoint (keysOf keys t.history))
    (hothers : ∀ p ∈ st.running, p.1 ≠ s → (keysOf keys t.history).Disjoint (keysOf keys p.2.history)) :
    Unique keys (st.put s t) where
  committed := h.committed
  running := List.forall_mem_cons.mpr
    ⟨⟨hnodup, hcommitted⟩, fun p hp => h.running p (State.mem_others.mp hp).1⟩
  between := by
    intro p hp p' hp' hne
    obtain rfl | hp := List.mem_cons.mp hp <;> obtain rfl | hp' := List.mem_cons.mp hp'
    · exact absurd rfl hne
    · exact hothers p' (State.mem_others.mp hp').1 (Ne.symm hne)
    · exact List.disjoint_comm.mp (hothers p (State.mem_others.mp hp).1 hne)
    · exact h.between p (State.mem_others.mp hp).1 p' (State.mem_others.mp hp').1 hne

theorem Unique.asks (h : Unique keys st) {event : Event Q A} {rest : Prog Q A ε ρ}
    (hmem : (s, t) ∈ st.running) (hfresh : Fresh keys st (keys event)) :
    Unique keys (st.put s ⟨t.call, t.history ++ [event], rest⟩) := by
  obtain ⟨hnodup, hnew⟩ := hfresh
  obtain ⟨hown, hcommitted⟩ := h.running _ hmem
  refine h.put ?_ ?_ ?_
  · rw [keysOf_snoc]
    exact List.nodup_append'.mpr ⟨hown, hnodup, fun k hk hk' => (hnew k hk').2 _ hmem hk⟩
  · rw [keysOf_snoc]
    refine List.disjoint_append_right.mpr ⟨hcommitted, fun k hk hk' => (hnew k hk').1 hk⟩
  · intro p hp hne
    rw [keysOf_snoc]
    exact List.disjoint_append_left.mpr ⟨h.between _ hmem _ hp (Ne.symm hne),
      fun k hk hk' => (hnew k hk).2 p hp hk'⟩

theorem Unique.commit (h : Unique keys st) (r : ρ) (hmem : (s, t) ∈ st.running) :
    Unique keys (st.commit s ⟨t.call, t.history, r⟩) := by
  obtain ⟨hown, hcommitted⟩ := h.running _ hmem
  have hkeys : committedKeys keys (st.commit s ⟨t.call, t.history, r⟩) =
      committedKeys keys st ++ keysOf keys t.history := by
    simp [committedKeys, State.commit]
  refine ⟨?_, fun p hp => ?_, fun p hp p' hp' => ?_⟩
  · rw [hkeys]
    exact List.nodup_append'.mpr ⟨h.committed, hown, hcommitted⟩
  · obtain ⟨hp, hne⟩ := State.mem_others.mp hp
    rw [hkeys]
    exact ⟨(h.running p hp).1, List.disjoint_append_left.mpr
      ⟨(h.running p hp).2, h.between _ hmem p hp (Ne.symm hne)⟩⟩
  · exact h.between p (State.mem_others.mp hp).1 p' (State.mem_others.mp hp').1

/-- **Keys that a statement takes only when nobody has them** are unique. -/
theorem unique_of_reachable
    (hfresh : ∀ st s q a, db.Admits st s q a → Fresh keys st (keys ⟨q, a⟩))
    (h : db.system.Reachable allowed st) : Unique keys st := by
  refine h.invariant (fun st hst => ?_) fun st e st' hall _ hstep => ?_
  · obtain ⟨hrunning, hcommitted⟩ := hst
    exact ⟨by simp [committedKeys, hcommitted], fun p hp => by simp [hrunning] at hp,
      fun p hp => by simp [hrunning] at hp⟩
  · cases effect_of_step hstep with
    | elapses d => exact ⟨hall.committed, hall.running, hall.between⟩
    | begins s c =>
      exact hall.put List.nodup_nil (List.disjoint_nil_right _) fun _ _ _ =>
        List.disjoint_nil_left _
    | asks ht _ hadmits =>
      exact hall.asks (State.mem_of_transaction ht) (hfresh _ _ _ _ hadmits)
    | commits ht _ => exact hall.commit _ (State.mem_of_transaction ht)
    | ends => exact hall.drop _

end Keys

end Database

end Sessions
