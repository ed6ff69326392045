import Handleplan.Lib.Transitions
import Handleplan.Web.InFlightOperationKey

/-!
# Operations in flight

Calls whose keys are equal wait for one operation. It is aborted when no call waits any longer or
when its deadline passes, and keeps its key until it settles.

## Main definitions

* `InFlight.Coalescer.run` — a call starts an operation or joins one.
* `InFlight.Coalescer.system` — what can happen, in any order.
* `InFlight.Sound` — the invariant.

## Main results

* `InFlight.sound_of_reachable` — the invariant holds in every state reached.
* `InFlight.operations_bounded` — operations that have not settled differ in their keys.
* `InFlight.calls_answered` — every call can be answered.

## Implementation notes

An operation settles at any time or never, whether it is aborted or not. A timer fires at any time
before that, and the callbacks of a promise run in any order.
-/

namespace Handleplan.InFlight

open Transitions

variable {δ ε α : Type}

/-- `InFlightCoalescingErrorCode`. -/
inductive InFlightCoalescingErrorCode where
  | cancelled
  | capacity
  | deadline
  | invalidKey

/-- The numbers that `boundedInteger` lets through. -/
abbrev Bounded (maximum : ℕ) : Type := { n : ℕ // 1 ≤ n ∧ n ≤ maximum }

/-- `boundedInteger` of an integer: missing if it throws. -/
def boundedInteger (value : ℤ) (maximum : ℕ) : Option (Bounded maximum) :=
  if h : 1 ≤ value.toNat ∧ value.toNat ≤ maximum then some ⟨value.toNat, h⟩ else none

/-- An `InFlightOperationCoalescer`: its options, and the digest. -/
structure Coalescer (δ : Type) where
  sha256 : List UInt8 → δ
  maxKeys : Bounded 1024 := ⟨128, by decide⟩
  maxOperationMs : Bounded 60000 := ⟨10000, by decide⟩
  maxSubscribersPerKey : Bounded 1024 := ⟨64, by decide⟩

/-- What a promise is rejected with. -/
inductive Rejection (ε : Type) where
  | coalescing (code : InFlightCoalescingErrorCode)
  | operation (error : ε)

/-- How a promise settles. -/
abbrev Settlement (ε α : Type) := Except (Rejection ε) α

/-- The rejection of a call that is cancelled. -/
def cancelled : Settlement ε α := .error (.coalescing .cancelled)

/-- A call that was let in: its signal, aborted or not, if it has one, and how it has settled. -/
structure Subscriber (ε α : Type) where
  signal : Option Bool
  settlement : Option (Settlement ε α)

/-- `SharedEntry`, with its key, its timer, the reason for which it is aborted, and its calls. -/
structure SharedEntry (δ ε α : Type) where
  digest : δ
  maxOperationMs : Bounded 60000
  aborted : Option InFlightCoalescingErrorCode
  promise : Option (Settlement ε α)
  settled : Bool
  subscribers : ℕ
  calls : List (Subscriber ε α)

/-! ### One operation -/

/-- An operation that one more call waits for. -/
def SharedEntry.join (e : SharedEntry δ ε α) (signal : Option Bool) : SharedEntry δ ε α :=
  { e with subscribers := e.subscribers + 1, calls := e.calls ++ [⟨signal, none⟩] }

/-- `finish`: a call settles, unless it has. -/
def SharedEntry.finish (e : SharedEntry δ ε α) (k : ℕ) (call : Subscriber ε α)
    (x : Settlement ε α) : SharedEntry δ ε α :=
  if call.settlement.isSome then { e with calls := e.calls.set k call }
  else { e with
    subscribers := e.subscribers - 1
    aborted := if e.subscribers - 1 = 0 ∧ ¬ e.settled ∧ e.aborted.isNone then some .cancelled
      else e.aborted
    calls := e.calls.set k { call with settlement := some x } }

/-- What can happen to an operation. -/
inductive Action (ε α : Type) where
  /-- The signal of a call is aborted. -/
  | abort (k : ℕ)
  | settle (x : Settlement ε α)
  /-- The timer fires. -/
  | deadline
  /-- A call learns how the promise has settled. -/
  | deliver (k : ℕ)

/-- An operation after an action: its timer fires once, and is cleared when it settles. -/
def SharedEntry.next (e : SharedEntry δ ε α) : Action ε α → Option (SharedEntry δ ε α)
  | .abort k => do
    let call ← e.calls[k]?
    if call.signal = some false then some (e.finish k { call with signal := some true } cancelled)
    else none
  | .settle x =>
    if e.settled then none
    else some { e with settled := true, promise := e.promise.or (some x) }
  | .deadline =>
    if e.settled ∨ e.promise.isSome then none
    else some { e with
      aborted := e.aborted.or (some .deadline)
      promise := some (.error (.coalescing .deadline)) }
  | .deliver k => do
    let call ← e.calls[k]?
    let x ← e.promise
    some (e.finish k call x)

/-- Whether a call waits. -/
def Subscriber.waits (call : Subscriber ε α) : Bool := call.settlement.isNone

/-- An operation counts the calls that wait for it, and unless it has settled it is aborted exactly
when there are none or its deadline has passed. A call gets what the promise has settled with, unless
its own signal was aborted first. -/
structure SharedEntry.Sound (c : Coalescer δ) (e : SharedEntry δ ε α) : Prop where
  subscribers : e.subscribers = e.calls.countP Subscriber.waits
  full : e.subscribers ≤ c.maxSubscribersPerKey
  aborted : e.settled = false → (e.aborted.isSome ↔ e.subscribers = 0 ∨ e.promise.isSome)
  settled : e.settled = true → e.promise.isSome
  answer : ∀ call ∈ e.calls, ∀ x, call.settlement = some x →
    (x = cancelled ∧ call.signal = some true) ∨ e.promise = some x
  cancelled : ∀ call ∈ e.calls, call.signal = some true → call.settlement.isSome

variable {c : Coalescer δ} {i k : ℕ} {e e' : SharedEntry δ ε α}

/-- **A call settles**, or its signal is aborted after it has; the last one aborts the operation. -/
theorem SharedEntry.Sound.finish (h : e.Sound c) {call : Subscriber ε α}
    (hcall : e.calls[k]? = some call) {signal : Option Bool}
    (hsignal : call.signal = some true → signal = some true) {x : Settlement ε α}
    (hx : (x = InFlight.cancelled ∧ signal = some true) ∨ e.promise = some x) :
    (e.finish k { call with signal } x).Sound c := by
  obtain ⟨hlt, rfl⟩ := List.getElem?_eq_some_iff.mp hcall
  have hmem := List.getElem_mem hlt
  have hfull := h.full
  by_cases hdone : e.calls[k].settlement.isSome
  · rw [SharedEntry.finish, if_pos hdone]
    refine ⟨?_, hfull, h.aborted, h.settled, ?_, ?_⟩
    · simp [List.countP_set hlt, h.subscribers, Subscriber.waits, Option.isSome_iff_ne_none.mp hdone]
    all_goals
      intro v hv
      rcases List.mem_or_eq_of_mem_set hv with hv | rfl
    · exact h.answer v hv
    · exact fun y hy => (h.answer _ hmem y hy).imp_left fun h => ⟨h.1, hsignal h.2⟩
    · exact h.cancelled v hv
    · exact fun _ => hdone
  · rw [SharedEntry.finish, if_neg hdone]
    have hwaits : e.calls[k].waits = true := by simpa [Subscriber.waits] using hdone
    have hpos : 0 < e.subscribers := h.subscribers ▸ List.countP_pos_iff.mpr ⟨_, hmem, hwaits⟩
    refine ⟨?_, ?_, fun hopen => ?_, h.settled, ?_, ?_⟩
    · rw [List.countP_set hlt, if_pos hwaits, h.subscribers]
      simp [Subscriber.waits]
    · exact (Nat.sub_le _ _).trans hfull
    · have := h.aborted hopen
      cases hab : e.aborted <;> simp_all [hpos.ne']
    all_goals
      intro v hv
      rcases List.mem_or_eq_of_mem_set hv with hv | rfl
    · exact h.answer v hv
    · exact fun y hy => Option.some.inj hy ▸ hx
    · exact h.cancelled v hv
    · exact fun _ => rfl

/-- One more call may join an operation that is not aborted. -/
theorem SharedEntry.Sound.join {signal : Option Bool} (h : e.Sound c) (haborted : e.aborted = none)
    (hroom : e.subscribers < c.maxSubscribersPerKey) (hsignal : signal ≠ some true) :
    (e.join signal).Sound c := by
  refine ⟨?_, hroom, fun hopen => ?_, h.settled, ?_, ?_⟩
  · simp [SharedEntry.join, h.subscribers, Subscriber.waits]
  · have := h.aborted hopen
    simp_all [SharedEntry.join]
  all_goals
    intro v hv
    rcases List.mem_append.mp hv with hv | hv
  · exact h.answer v hv
  · simp [List.mem_singleton.mp hv]
  · exact h.cancelled v hv
  · simp [List.mem_singleton.mp hv, hsignal]

/-- **An operation acts**: it keeps its key until it settles. -/
theorem SharedEntry.Sound.next (h : e.Sound c) {action : Action ε α}
    (hnext : e.next action = some e') :
    e'.Sound c ∧ e'.digest = e.digest ∧ ((∃ x, action = .settle x ∧ e.settled = false ∧
      e'.settled = true) ∨ ((∀ x, action ≠ .settle x) ∧ e'.settled = e.settled)) := by
  have hkept : ∀ k call x, (e.finish k call x).digest = e.digest ∧
      (e.finish k call x).settled = e.settled := by
    intro k call x
    unfold SharedEntry.finish
    split_ifs <;> exact ⟨rfl, rfl⟩
  cases action with
  | abort k =>
    obtain ⟨call, hcall, hnext⟩ := Option.bind_eq_some_iff.mp hnext
    split_ifs at hnext with hsignal
    cases hnext
    exact ⟨h.finish hcall (fun _ => rfl) (.inl ⟨rfl, rfl⟩), (hkept _ _ _).1,
      .inr ⟨by simp, (hkept _ _ _).2⟩⟩
  | settle x =>
    rw [SharedEntry.next] at hnext
    split_ifs at hnext with hopen
    cases hnext
    refine ⟨⟨h.subscribers, h.full, by simp, fun _ => by simp, fun v hv y hy => ?_, h.cancelled⟩,
      rfl, .inl ⟨x, rfl, by simpa using hopen, rfl⟩⟩
    exact (h.answer v hv y hy).imp_right fun hp => by simp [hp]
  | deadline =>
    rw [SharedEntry.next] at hnext
    split_ifs at hnext with hopen
    cases hnext
    refine ⟨⟨h.subscribers, h.full, by simp, fun _ => rfl, fun v hv y hy => ?_, h.cancelled⟩,
      rfl, .inr ⟨by simp, rfl⟩⟩
    exact (h.answer v hv y hy).imp_right fun hp => by simp [hp] at hopen
  | deliver k =>
    obtain ⟨call, hcall, hnext⟩ := Option.bind_eq_some_iff.mp hnext
    obtain ⟨x, hx, hnext⟩ := Option.bind_eq_some_iff.mp hnext
    cases hnext
    exact ⟨h.finish hcall id (.inr hx), (hkept _ _ _).1, .inr ⟨by simp, (hkept _ _ _).2⟩⟩

/-- A promise that is decided can be delivered. -/
theorem SharedEntry.next_deliver {x : Settlement ε α} (hx : e.promise = some x)
    (hk : k < e.calls.length) :
    ∃ e' call, e.next (.deliver k) = some e' ∧ e'.calls[k]? = some call ∧
      call.settlement.isSome := by
  have hnext : e.next (.deliver k) = some (e.finish k e.calls[k] x) := by
    simp [SharedEntry.next, hx, hk]
  by_cases hdone : e.calls[k].settlement.isSome
  · exact ⟨_, e.calls[k], hnext, by simp [SharedEntry.finish, hdone, hk], hdone⟩
  · exact ⟨_, { e.calls[k] with settlement := some x }, hnext, by simp [SharedEntry.finish, hdone, hk],
      rfl⟩

/-! ### All operations -/

variable [DecidableEq δ]

/-- The table of operations by key, and all operations that were ever started. -/
structure State (δ ε α : Type) where
  entries : JsMap δ ℕ
  made : List (SharedEntry δ ε α)

/-- The arguments of `run`, without the operation. -/
structure RunRequest where
  ns : JsString
  keyMaterial : KeyMaterial
  subscriberSignal : Option Bool
  maxOperationMs : Option ℤ

/-- What `run` throws. -/
inductive RunError where
  | coalescing (code : InFlightCoalescingErrorCode)
  | range

/-- The operation that has a key. -/
def State.find (s : State δ ε α) (digest : δ) : Option (ℕ × SharedEntry δ ε α) := do
  let i ← s.entries.get? digest
  let e ← s.made[i]?
  pure (i, e)

/-- `run`. -/
def Coalescer.run (c : Coalescer δ) (s : State δ ε α) (r : RunRequest) :
    Except RunError (State δ ε α) :=
  if r.subscriberSignal = some true then .error (.coalescing .cancelled)
  else match r.maxOperationMs.elim (some c.maxOperationMs) (boundedInteger · 60000) with
  | none => .error .range
  | some maxOperationMs =>
    match digestOperationKey c.sha256 r.ns r.keyMaterial with
    | none => .error (.coalescing .invalidKey)
    | some digest =>
      match s.find digest with
      | some (i, e) =>
        -- aborted: nobody waits for it any longer, but it has not settled yet
        if e.aborted.isSome ∨ c.maxSubscribersPerKey ≤ e.subscribers then
          .error (.coalescing .capacity)
        else .ok { s with made := s.made.set i (e.join r.subscriberSignal) }
      | none =>
        if c.maxKeys ≤ s.entries.length then .error (.coalescing .capacity)
        else
          -- it has no subscribers yet, fewer than it may have
          let e := SharedEntry.join ⟨digest, maxOperationMs, none, none, false, 0, []⟩
            r.subscriberSignal
          .ok ⟨s.entries.set digest s.made.length, s.made ++ [e]⟩

/-- What can happen. -/
inductive Event (ε α : Type) where
  | run (r : RunRequest)
  | act (i : ℕ) (action : Action ε α)

/-- A step: an operation that settles gives up its key. -/
def Coalescer.step (c : Coalescer δ) (s : State δ ε α) : Event ε α → Option (State δ ε α)
  | .run r =>
    match c.run s r with
    | .ok t => some t
    | .error _ => some s
  | .act i action => do
    let e ← s.made[i]?
    let e' ← e.next action
    let entries := match action with
      | .settle _ =>
        if s.entries.get? e.digest = some i then s.entries.filter (·.1 ≠ e.digest) else s.entries
      | _ => s.entries
    some ⟨entries, s.made.set i e'⟩

/-- All that can happen to a coalescer, from the start of the process. -/
def Coalescer.system (c : Coalescer δ) : System (State δ ε α) (Event ε α) where
  init s := s = ⟨[], []⟩
  step := c.step

/-- **The invariant**: the table holds the operations that have not settled. -/
structure Sound (c : Coalescer δ) (s : State δ ε α) : Prop where
  nodup : s.entries.keys.Nodup
  bounded : s.entries.length ≤ c.maxKeys
  tracked : ∀ d i, s.entries.get? d = some i ↔
    ∃ e, s.made[i]? = some e ∧ e.digest = d ∧ e.settled = false
  made : ∀ e ∈ s.made, e.Sound c

variable {s t : State δ ε α}

/-- **An operation changes**, and leaves the table when it settles. -/
theorem Sound.set (h : Sound c s) (hget : s.made[i]? = some e) (hsound : e'.Sound c)
    (hdigest : e'.digest = e.digest) {entries : JsMap δ ℕ} (hnodup : entries.keys.Nodup)
    (hlength : entries.length ≤ s.entries.length)
    (htracked : ∀ d j, entries.get? d = some j ↔
      s.entries.get? d = some j ∧ (j = i → e'.settled = false))
    (hsettled : e'.settled = false → e.settled = false) : Sound c ⟨entries, s.made.set i e'⟩ := by
  refine ⟨hnodup, hlength.trans h.bounded, fun d j => ?_, fun f hf => ?_⟩
  · rw [htracked, h.tracked]
    by_cases hj : j = i
    · subst hj
      rw [List.getElem?_set_self (List.getElem?_eq_some_iff.mp hget).1, hget]
      simp only [Option.some.injEq, exists_eq_left', forall_const, hdigest]
      exact ⟨fun h => ⟨h.1.1, h.2⟩, fun h => ⟨⟨h.1, hsettled h.2⟩, h.2⟩⟩
    · simp only [List.getElem?_set_ne (Ne.symm hj), hj, false_implies, and_true]
  · rcases List.mem_or_eq_of_mem_set hf with hf | rfl
    · exact h.made f hf
    · exact hsound

/-- An operation that does not settle stays in the table or out of it. -/
theorem Sound.set_same (h : Sound c s) (hget : s.made[i]? = some e) (hsound : e'.Sound c)
    (hdigest : e'.digest = e.digest) (hsettled : e'.settled = e.settled) :
    Sound c { s with made := s.made.set i e' } := by
  refine h.set hget hsound hdigest h.nodup le_rfl (fun d j => ⟨fun hd => ⟨hd, ?_⟩, And.left⟩)
    hsettled.symm.trans
  rintro rfl
  obtain ⟨f, hf, -, hopen⟩ := (h.tracked d j).mp hd
  obtain rfl := Option.some.inj (hget.symm.trans hf)
  exact hsettled.trans hopen

/-- **A call is let in**. -/
theorem sound_run (h : Sound c s) {r : RunRequest} (hrun : c.run s r = .ok t) : Sound c t := by
  rw [Coalescer.run] at hrun
  by_cases hsignal : r.subscriberSignal = some true
  · simp [hsignal] at hrun
  rw [if_neg hsignal] at hrun
  split at hrun
  · cases hrun
  split at hrun
  · cases hrun
  next ms hms _ digest hdigest =>
  split at hrun
  next i e hfind =>
    obtain ⟨j, hj, hfind⟩ := Option.bind_eq_some_iff.mp hfind
    obtain ⟨f, hget, hfind⟩ := Option.bind_eq_some_iff.mp hfind
    obtain ⟨rfl, rfl⟩ := Prod.mk.inj (Option.some.inj hfind)
    split_ifs at hrun with hcapacity
    cases hrun
    simp only [not_or, not_le, Option.not_isSome_iff_eq_none] at hcapacity
    exact h.set_same hget ((h.made f (List.mem_of_getElem? hget)).join hcapacity.1 hcapacity.2 hsignal)
      rfl rfl
  next hfind =>
    split_ifs at hrun with hroom
    cases hrun
    have hnone : s.entries.get? digest = none := by
      cases hd : s.entries.get? digest with
      | none => rfl
      | some i =>
        obtain ⟨e, he, -⟩ := (h.tracked digest i).mp hd
        simp [State.find, hd, he] at hfind
    have hkeys : digest ∉ s.entries.keys := by
      simp [← JsMap.has_iff_mem_keys, JsMap.has, hnone]
    refine ⟨JsMap.nodup_keys_set h.nodup _ _, ?_, fun d j => ?_, fun f hf => ?_⟩
    · simpa [JsMap.set_of_notMem hkeys] using hroom
    · have hlast : ∀ f, (s.made ++ [SharedEntry.join ⟨digest, ms, none, none, false, 0, []⟩
          r.subscriberSignal])[j]? = some f ↔ s.made[j]? = some f ∨ (j = s.made.length ∧
            f = SharedEntry.join ⟨digest, ms, none, none, false, 0, []⟩ r.subscriberSignal) := by
        intro f
        rw [List.getElem?_append]
        grind
      simp only [JsMap.get?_set, hlast, or_and_right, exists_or, ← h.tracked]
      split_ifs with hd
      · simp [← hd, hnone, eq_comm, SharedEntry.join]
      · simp [hd, SharedEntry.join]
    · rcases List.mem_append.mp hf with hf | hf
      · exact h.made f hf
      · obtain rfl := List.mem_singleton.mp hf
        have := c.maxSubscribersPerKey.2.1
        exact ⟨rfl, this, by simp [SharedEntry.join], by simp [SharedEntry.join],
          by simp [SharedEntry.join], by simpa [SharedEntry.join] using hsignal⟩

/-- **Every step** keeps the invariant. -/
theorem sound_step (h : Sound c s) {event : Event ε α} (hstep : c.step s event = some t) :
    Sound c t := by
  cases event with
  | run r =>
    rw [Coalescer.step] at hstep
    split at hstep <;> cases hstep
    next hrun => exact sound_run h hrun
    next => exact h
  | act i action =>
    obtain ⟨e, hget, hstep⟩ := Option.bind_eq_some_iff.mp hstep
    obtain ⟨e', hnext, hstep⟩ := Option.bind_eq_some_iff.mp hstep
    cases hstep
    obtain ⟨hsound, hdigest, ⟨x, rfl, hopen, hsettled⟩ | ⟨hother, hsettled⟩⟩ :=
      (h.made e (List.mem_of_getElem? hget)).next hnext
    · have hd : s.entries.get? e.digest = some i := (h.tracked _ _).mpr ⟨e, hget, rfl, hopen⟩
      dsimp only
      rw [if_pos hd]
      refine h.set hget hsound hdigest (h.nodup.sublist (List.filter_sublist.map _))
        (List.length_filter_le _ _) (fun d j => ?_) (fun _ => hopen)
      rw [JsMap.get?_filter h.nodup, Option.filter_eq_some_iff]
      refine and_congr_right fun hdj => ?_
      -- the operation is the only one of its key, and has no other key
      obtain ⟨f, hf, hfd, -⟩ := (h.tracked d j).mp hdj
      grind
    · cases action with
      | settle x => exact absurd rfl (hother x)
      | _ => exact h.set_same hget hsound hdigest hsettled

/-! ### All runs -/

section

variable (h : c.system.Reachable (fun _ _ => True) s)

include h

/-- **The invariant holds in every state reached**, whatever the order of calls, signals, settling
operations, timers and callbacks. -/
theorem sound_of_reachable : Sound c s := by
  refine h.invariant (I := Sound c) ?_ fun u event v hI _ hstep => sound_step hI hstep
  rintro u rfl
  exact ⟨List.nodup_nil, Nat.zero_le _, by simp, by simp⟩

/-- **Operations are shared and bounded**: those that have not settled have different keys, there are
no more of them than `maxKeys`, and one is aborted exactly when all its calls are answered or its
deadline has passed. -/
theorem operations_bounded :
    (∀ (i j : ℕ) (e f : SharedEntry δ ε α), s.made[i]? = some e → s.made[j]? = some f →
      e.settled = false → f.settled = false → e.digest = f.digest → i = j) ∧
    (∀ active : List ℕ, active.Nodup → (∀ i ∈ active, ∃ e, s.made[i]? = some e ∧
      e.settled = false) → active.length ≤ c.maxKeys) ∧
    ∀ e ∈ s.made, e.settled = false →
      (e.aborted.isSome ↔ (∀ call ∈ e.calls, call.settlement.isSome) ∨ e.promise.isSome) := by
  have hs := sound_of_reachable h
  refine ⟨fun i j e f he hf hopen hopen' hdigest => ?_, fun active hnodup hactive => ?_,
    fun e he hopen => ?_⟩
  · have hi := (hs.tracked e.digest i).mpr ⟨e, he, rfl, hopen⟩
    rw [hdigest, (hs.tracked f.digest j).mpr ⟨f, hf, rfl, hopen'⟩] at hi
    exact (Option.some.inj hi).symm
  · -- each takes up a place in the table
    have hsub : active ⊆ s.entries.map Prod.snd := by
      intro i hi
      obtain ⟨e, he, hopen⟩ := hactive i hi
      have hd := (hs.tracked e.digest i).mpr ⟨e, he, rfl, hopen⟩
      exact List.mem_map.mpr ⟨_, JsMap.mem_of_get? hd, rfl⟩
    calc active.length ≤ (s.entries.map Prod.snd).length := (hnodup.subperm hsub).length_le
      _ = s.entries.length := List.length_map _
      _ ≤ c.maxKeys := hs.bounded
  · rw [(hs.made e he).aborted hopen, (hs.made e he).subscribers, List.countP_eq_zero]
    simp [Subscriber.waits, Option.isSome_iff_ne_none]

/-- **Calls are answered**: with what the promise of their operation has settled with, unless their
own signal was aborted first; and each can be answered, the timer deciding the promise if the
operation never settles. -/
theorem calls_answered (hget : s.made[i]? = some e) :
    (∀ call ∈ e.calls, ∀ x, call.settlement = some x →
      (x = cancelled ∧ call.signal = some true) ∨ e.promise = some x) ∧
    ∀ k < e.calls.length, ∃ t e' call, (c.system.run s [.act i (.deliver k)] = some t ∨
        c.system.run s [.act i .deadline, .act i (.deliver k)] = some t) ∧
      t.made[i]? = some e' ∧ e'.calls[k]? = some call ∧ call.settlement.isSome := by
  obtain ⟨hi, rfl⟩ := List.getElem?_eq_some_iff.mp hget
  have he := (sound_of_reachable h).made _ (List.getElem_mem hi)
  refine ⟨he.answer, fun k hk => ?_⟩
  cases hx : s.made[i].promise with
  | some x =>
    obtain ⟨e', call, hnext, hcall⟩ := SharedEntry.next_deliver hx hk
    refine ⟨⟨s.entries, s.made.set i e'⟩, e', call, .inl ?_, List.getElem?_set_self hi, hcall⟩
    simp [System.run, Coalescer.system, Coalescer.step, hi, hnext]
  | none =>
    -- the timer has not fired, and has not been cleared
    have hopen : s.made[i].settled = false := by
      by_contra hsettled
      simpa [hx] using he.settled (by simpa using hsettled)
    obtain ⟨f, hf, hpromise, hcalls⟩ : ∃ f, s.made[i].next .deadline = some f ∧
        f.promise = some (.error (.coalescing .deadline)) ∧ f.calls = s.made[i].calls := by
      rw [SharedEntry.next, if_neg (by simp [hopen, hx])]
      exact ⟨_, rfl, rfl, rfl⟩
    obtain ⟨e', call, hnext, hcall⟩ := f.next_deliver hpromise (hcalls ▸ hk)
    refine ⟨⟨s.entries, s.made.set i e'⟩, e', call, .inr ?_, List.getElem?_set_self hi, hcall⟩
    simp [System.run, Coalescer.system, Coalescer.step, hi, hf, hnext]

end

namespace Example

def coalescer : Coalescer (List UInt8) := ⟨id, ⟨2, by decide⟩, ⟨9, by decide⟩, ⟨2, by decide⟩⟩

/-- Two calls of one key, one of which is cancelled, and a call of another, whose deadline passes. -/
def shared : Option (State (List UInt8) ℕ ℕ) :=
  let call ns := .run ⟨js ns, request, some false, none⟩
  coalescer.system.run ⟨[], []⟩ [call "plans", call "plans", call "prices", .act 0 (.abort 1),
    .act 1 .deadline, .act 1 (.deliver 0)]

theorem isSome_shared : shared.isSome := by decide +kernel

theorem reachable_shared :
    coalescer.system.Reachable (fun _ _ => True) (shared.get isSome_shared) :=
  .run (.init rfl) (Option.some_get isSome_shared).symm

/-- The two operations, neither of which has settled. -/
theorem exists_made_shared : ∃ e f, (shared.get isSome_shared).made = [e, f] ∧
    (e.settled = false ∧ e.aborted.isSome = false ∧ e.calls.length = 2) ∧
    f.settled = false ∧ f.aborted.isSome = true ∧ f.calls.length = 1 := by
  have h : (shared.get isSome_shared).made.map
      (fun e => (e.settled, e.aborted.isSome, e.calls.length)) =
        [(false, false, 2), (false, true, 1)] := by
    decide +kernel
  obtain ⟨e, rest, hmade, he, hrest⟩ := List.map_eq_cons_iff.mp h
  obtain ⟨f, rest, rfl, hf, hnil⟩ := List.map_eq_cons_iff.mp hrest
  obtain rfl := List.map_eq_nil_iff.mp hnil
  exact ⟨e, f, hmade, by simpa using he, by simpa using hf⟩

end Example

open Example in
theorem operations_bounded_shared : ∃ e f, (shared.get isSome_shared).made = [e, f] ∧
    e.digest ≠ f.digest ∧ [0, 1].length ≤ coalescer.maxKeys.val ∧
    ¬ ((∀ call ∈ e.calls, call.settlement.isSome) ∨ e.promise.isSome) ∧
    ((∀ call ∈ f.calls, call.settlement.isSome) ∨ f.promise.isSome) := by
  obtain ⟨e, f, hmade, ⟨he, heaborted, -⟩, hf, hfaborted, -⟩ := exists_made_shared
  obtain ⟨hkeys, hactive, haborted⟩ := operations_bounded reachable_shared
  simp only [hmade] at hkeys hactive haborted
  refine ⟨e, f, hmade, fun heq => ?_, hactive [0, 1] (by decide) ?_, fun h => ?_, ?_⟩
  · exact absurd (hkeys 0 1 e f rfl rfl he hf heq) (by decide)
  · simp [he, hf]
  · simpa [heaborted] using (haborted e (by simp) he).mpr h
  · exact (haborted f (by simp) hf).mp (by simp [hfaborted])

open Example in
theorem calls_answered_shared : ∃ e f, (shared.get isSome_shared).made = [e, f] ∧
    (∀ g ∈ [e, f], ∀ call ∈ g.calls, ∀ x, call.settlement = some x →
      (x = cancelled ∧ call.signal = some true) ∨ g.promise = some x) ∧
    ∃ t e' call, (coalescer.system.run (shared.get isSome_shared) [.act 0 (.deliver 0)] = some t ∨
        coalescer.system.run (shared.get isSome_shared) [.act 0 .deadline, .act 0 (.deliver 0)] =
          some t) ∧
      t.made[0]? = some e' ∧ e'.calls[0]? = some call ∧ call.settlement.isSome := by
  obtain ⟨e, f, hmade, ⟨-, -, hlength⟩, -⟩ := exists_made_shared
  have he : (shared.get isSome_shared).made[0]? = some e := by rw [hmade]; rfl
  have hf : (shared.get isSome_shared).made[1]? = some f := by rw [hmade]; rfl
  obtain ⟨hanswered, hanswers⟩ := calls_answered reachable_shared he
  refine ⟨e, f, hmade, ?_, hanswers 0 (by omega)⟩
  rintro g hg
  obtain rfl | rfl := by simpa using hg
  exacts [hanswered, (calls_answered reachable_shared hf).1]

end Handleplan.InFlight
