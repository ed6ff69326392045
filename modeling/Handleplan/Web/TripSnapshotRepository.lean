import Mathlib.Data.List.Basic
import Mathlib.Data.List.Dedup
import Handleplan.Lib.JsString
import Handleplan.Lib.Transitions

/-!
# The active trip of several tabs

Every tab of the browser works on one record of one IndexedDB store. An IndexedDB transaction is
atomic, but a method of the repository may need two of them: reading and removing a corrupt record,
or checking that a trip is complete and deleting it. Between the two the other tabs go on.

## Main definitions

* `TripStore.StoredTrip`, `StoredValue` — the record, and what may be stored in its
  place.
* `TripStore.transact` — the next transaction of a call.
* `TripStore.tabs` — the transition system of all calls.

## Main results

* `TripStore.removal_isAuthorized` — while no trip is stored during a pending clean-up, a
  trip disappears only by a deletion that names it or by clearing.
* `TripStore.finish_deletes_complete` — while no trip that is being finished loses a mark
  or is started anew, finishing deletes complete trips only.

## Implementation notes

A stored value is what `parseStoredResult` makes of it: a current record, a marketless record of the
second version that is migrated on reading, or a corrupt one. The repository reads of a snapshot its
identifier and the identifiers of its checklist items; the rest is one text.
-/

namespace Handleplan.TripStore

/-! ### Records -/

/-- `TripSnapshot`, as `tripSnapshotSchema` admits it: its checklist is not empty and its items are
distinct. -/
structure TripSnapshot where
  id : JsString
  checklistItemIds : List JsString
  /-- The plan, its evidence, its expiry and the other fields, as one text: the repository carries
  them along. -/
  rest : JsString
  nonempty : checklistItemIds ≠ []
  nodup : checklistItemIds.Nodup
  deriving DecidableEq

/-- `StoredTripV1`: the completed items are distinct items of the checklist. -/
structure StoredTrip where
  snapshot : TripSnapshot
  completedItemIds : List JsString
  unique : completedItemIds.Nodup
  listed : ∀ id ∈ completedItemIds, id ∈ snapshot.checklistItemIds
  deriving DecidableEq

/-- A value in the store, by what `parseStoredResult` makes of it. -/
inductive StoredValue where
  | current (record : StoredTrip)
  | legacy (record : StoredTrip)
  | corrupt

/-- `parseStored`: the record of a value, unless it is corrupt. -/
def parseStored : StoredValue → Option StoredTrip
  | .current record => some record
  | .legacy record => some record
  | .corrupt => none

/-- The value after `getActive` has read it: a legacy record is replaced by its migrated form. -/
def migrate : StoredValue → StoredValue
  | .legacy record => .current record
  | value => value

/-- The record of a fresh trip. -/
def StoredTrip.fresh (snapshot : TripSnapshot) : StoredTrip where
  snapshot := snapshot
  completedItemIds := []
  unique := List.nodup_nil
  listed := by simp

/-- The record with one item marked or unmarked, the marked items in checklist order. -/
def StoredTrip.mark (record : StoredTrip) (itemId : JsString) (completed : Bool) : StoredTrip where
  snapshot := record.snapshot
  completedItemIds := record.snapshot.checklistItemIds.filter fun id =>
    if id = itemId then completed else id ∈ record.completedItemIds
  unique := record.snapshot.nodup.filter _
  listed := fun _ hid => (List.mem_filter.mp hid).1

/-- Whether as many items of a trip are marked completed as there are: the check of `finish`. -/
def StoredTrip.IsComplete (record : StoredTrip) : Prop :=
  record.completedItemIds.length = record.snapshot.checklistItemIds.length

instance : DecidablePred StoredTrip.IsComplete := fun _ => inferInstanceAs (Decidable (_ = _))

/-- The active trip of a store. -/
def activeTrip (store : Option StoredValue) : Option StoredTrip := store.bind parseStored

/-! ### Calls -/

/-- `TripSnapshotRepositoryErrorCode`. -/
inductive ErrorCode where
  | activeTripExists | corrupt | incomplete | invalid | notFound | unavailable
  deriving DecidableEq

/-- What a call answers: a trip, nothing, whether a trip was deleted, or an error. -/
inductive Answer where
  | trip (record : StoredTrip)
  | nothing
  | deleted (found : Bool)
  | error (code : ErrorCode)
  deriving DecidableEq

/-- The methods of the repository, on arguments that pass their schemas. -/
inductive Operation where
  | getActive
  | start (snapshot : TripSnapshot)
  | setCompleted (snapshotId checklistItemId : JsString) (completed : Bool)
  | finish (snapshotId : JsString)
  | delete (snapshotId : JsString)
  | clear
  deriving DecidableEq

/-- Where a call stands: before its first transaction, before the removal of a corrupt record,
before the deletion of a trip found complete, or settled. -/
inductive Call where
  | pending (operation : Operation)
  | removing
  | finishing (snapshotId : JsString)
  | settled (answer : Answer)
  deriving DecidableEq

/-- `delete`, its transaction; `onDone` is what the call makes of the answer. -/
def deleteTransaction (snapshotId : JsString) (onDone : Bool → Answer) :
    Option StoredValue → Call × Option StoredValue
  | none => (.settled (onDone false), none)
  | some value =>
    match parseStored value with
    | none => (.removing, some value)
    | some record =>
      if record.snapshot.id = snapshotId then (.settled (onDone true), none)
      else (.settled (onDone false), some value)

/-- `start`, its transaction. -/
def startTransaction (snapshot : TripSnapshot) : Option StoredValue → Call × Option StoredValue
  | none => (.settled (.trip (.fresh snapshot)), some (.current (.fresh snapshot)))
  | some value =>
    match parseStored value with
    | none => (.removing, some value)
    | some _ => (.settled (.error .activeTripExists), some value)

/-- `setCompleted`, its transaction. -/
def setCompletedTransaction (snapshotId checklistItemId : JsString) (completed : Bool) :
    Option StoredValue → Call × Option StoredValue
  | none => (.settled (.error .notFound), none)
  | some value =>
    match parseStored value with
    | none => (.removing, some value)
    | some record =>
      if record.snapshot.id ≠ snapshotId then (.settled (.error .notFound), some value)
      else if checklistItemId ∉ record.snapshot.checklistItemIds then
        (.settled (.error .invalid), some value)
      else
        (.settled (.trip (record.mark checklistItemId completed)),
          some (.current (record.mark checklistItemId completed)))

/-- `getActive`, its transaction; `onTrip` is what the call does with the trip it read. -/
def getActiveTransaction (onTrip : StoredTrip → Call) :
    Option StoredValue → Call × Option StoredValue
  | none => (.settled .nothing, none)
  | some value =>
    match parseStored value with
    | none => (.removing, some value)
    | some record => (onTrip record, some (migrate value))

/-- `finish`, after it has read the active trip. -/
def finishTrip (snapshotId : JsString) (record : StoredTrip) : Call :=
  if record.snapshot.id ≠ snapshotId then .settled (.error .notFound)
  else if ¬ record.IsComplete then .settled (.error .incomplete)
  else .finishing snapshotId

/-- The next transaction of a call, when it commits. -/
def transact : Call → Option StoredValue → Call × Option StoredValue
  | .pending .getActive, store => getActiveTransaction (fun record => .settled (.trip record)) store
  | .pending (.start snapshot), store => startTransaction snapshot store
  | .pending (.setCompleted snapshotId checklistItemId completed), store =>
    setCompletedTransaction snapshotId checklistItemId completed store
  | .pending (.finish _), none => (.settled (.error .notFound), none)
  | .pending (.finish snapshotId), some value =>
    getActiveTransaction (finishTrip snapshotId) (some value)
  | .pending (.delete snapshotId), store => deleteTransaction snapshotId .deleted store
  | .pending .clear, _ => (.settled .nothing, none)
  | .removing, _ => (.settled (.error .corrupt), none)
  | .finishing snapshotId, store => deleteTransaction snapshotId (fun _ => .nothing) store
  | .settled answer, store => (.settled answer, store)

/-- What a call answers when its transaction fails: a failed clean-up still reports the corrupt
record. -/
def failed : Call → Call
  | .removing => .settled (.error .corrupt)
  | .settled answer => .settled answer
  | _ => .settled (.error .unavailable)

/-! ### Tabs -/

/-- The shared store and the calls of all tabs. -/
structure State where
  store : Option StoredValue
  calls : List Call

/-- What may happen next: a tab calls a method, or the next transaction of a call commits or
fails. -/
inductive Event where
  | call (operation : Operation)
  | commit (caller : ℕ)
  | fail (caller : ℕ)

/-- One step of the tabs. -/
def next (s : State) : Event → Option State
  | .call operation => some { s with calls := s.calls ++ [.pending operation] }
  | .commit caller =>
    (s.calls[caller]?).map fun call =>
      { store := (transact call s.store).2
        calls := s.calls.set caller (transact call s.store).1 }
  | .fail caller =>
    (s.calls[caller]?).map fun call => { s with calls := s.calls.set caller (failed call) }

/-- The tabs: they start with any value in the store and no call. -/
def tabs : Transitions.System State Event where
  init s := s.calls = []
  step := next

/-- The call whose transaction an event commits. -/
def committing (s : State) : Event → Option Call
  | .commit caller => s.calls[caller]?
  | _ => none

/-! ### What a transaction does -/

/-- What the transaction of a call does to the active trip, and where the call stands after it. -/
inductive Effect (call : Call) (store : Option StoredValue) (out : Call × Option StoredValue) :
    Prop
  | keeps (hstore : activeTrip out.2 = activeTrip store)
      (hremoving : out.1 = .removing → activeTrip store = none)
      (hfinishing : ∀ id, out.1 = .finishing id →
        ∃ record, activeTrip store = some record ∧ record.snapshot.id = id ∧ record.IsComplete)
  | marks (record : StoredTrip) (itemId : JsString) (completed : Bool)
      (hcall : call = .pending (.setCompleted record.snapshot.id itemId completed))
      (hstore : activeTrip store = some record)
      (hout : activeTrip out.2 = some (record.mark itemId completed))
      (hsettled : ∃ answer, out.1 = .settled answer)
  | starts (snapshot : TripSnapshot) (hcall : call = .pending (.start snapshot))
      (hstore : store = none) (hout : activeTrip out.2 = some (.fresh snapshot))
      (hsettled : ∃ answer, out.1 = .settled answer)
  | deletes (record : StoredTrip) (hstore : activeTrip store = some record)
      (hcall : call = .pending (.delete record.snapshot.id) ∨
        call = .finishing record.snapshot.id)
      (hout : activeTrip out.2 = none) (hsettled : ∃ answer, out.1 = .settled answer)
  | clears (hcall : call = .pending .clear ∨ call = .removing) (hout : activeTrip out.2 = none)
      (hsettled : ∃ answer, out.1 = .settled answer)

theorem parseStored_migrate (value : StoredValue) : parseStored (migrate value) =
    parseStored value := by
  cases value <;> rfl

/-- A deletion deletes the trip of its identifier, or keeps it. -/
theorem effect_deleteTransaction {call : Call} {id : JsString} (onDone : Bool → Answer)
    (hcall : call = .pending (.delete id) ∨ call = .finishing id) (store : Option StoredValue) :
    Effect call store (deleteTransaction id onDone store) := by
  cases store with
  | none => exact .keeps rfl (by simp [deleteTransaction]) (by simp [deleteTransaction])
  | some value =>
    cases hparse : parseStored value with
    | none =>
      simp only [deleteTransaction, hparse]
      exact .keeps rfl (fun _ => hparse) (by simp)
    | some record =>
      simp only [deleteTransaction, hparse]
      split_ifs with hid
      · subst hid
        exact .deletes record hparse hcall rfl ⟨_, rfl⟩
      · exact .keeps rfl (by simp) (by simp)

/-- Reading the trip keeps it. -/
theorem effect_getActiveTransaction {call : Call} {onTrip : StoredTrip → Call}
    (honTrip : ∀ record, onTrip record ≠ .removing ∧ ∀ id, onTrip record = .finishing id →
      record.snapshot.id = id ∧ record.IsComplete) (store : Option StoredValue) :
    Effect call store (getActiveTransaction onTrip store) := by
  cases store with
  | none => exact .keeps rfl (by simp [getActiveTransaction]) (by simp [getActiveTransaction])
  | some value =>
    cases hparse : parseStored value with
    | none =>
      simp only [getActiveTransaction, hparse]
      exact .keeps rfl (fun _ => hparse) (by simp)
    | some record =>
      simp only [getActiveTransaction, hparse]
      refine .keeps (parseStored_migrate value) (fun h => absurd h (honTrip record).1) ?_
      exact fun id hid => ⟨record, hparse, (honTrip record).2 id hid⟩

/-- Marking an item marks it, or keeps the trip. -/
theorem effect_setCompletedTransaction (id itemId : JsString) (completed : Bool)
    (store : Option StoredValue) :
    Effect (.pending (.setCompleted id itemId completed)) store
      (setCompletedTransaction id itemId completed store) := by
  cases store with
  | none => exact .keeps rfl (by simp [setCompletedTransaction]) (by simp [setCompletedTransaction])
  | some value =>
    cases hparse : parseStored value with
    | none =>
      simp only [setCompletedTransaction, hparse]
      exact .keeps rfl (fun _ => hparse) (by simp)
    | some record =>
      simp only [setCompletedTransaction, hparse]
      by_cases hid : record.snapshot.id ≠ id
      · rw [if_pos hid]
        exact .keeps rfl (by simp) (by simp)
      · obtain rfl := not_not.mp hid
        rw [if_neg hid]
        split_ifs
        · exact .marks record itemId completed rfl hparse rfl ⟨_, rfl⟩
        · exact .keeps rfl (by simp) (by simp)

theorem effect_startTransaction (snapshot : TripSnapshot) (store : Option StoredValue) :
    Effect (.pending (.start snapshot)) store (startTransaction snapshot store) := by
  cases store with
  | none => exact .starts snapshot rfl rfl rfl ⟨_, rfl⟩
  | some value =>
    cases hparse : parseStored value with
    | none =>
      simp only [startTransaction, hparse]
      exact .keeps rfl (fun _ => hparse) (by simp)
    | some record =>
      simp only [startTransaction, hparse]
      exact .keeps rfl (by simp) (by simp)

theorem finishTrip_spec (id : JsString) (record : StoredTrip) :
    finishTrip id record ≠ .removing ∧ ∀ other, finishTrip id record = .finishing other →
      record.snapshot.id = other ∧ record.IsComplete := by
  unfold finishTrip
  by_cases hid : record.snapshot.id ≠ id
  · simp [hid]
  · by_cases hcomplete : record.IsComplete
    · rw [if_neg hid, if_neg (not_not.mpr hcomplete)]
      refine ⟨by simp, fun other hother => ⟨?_, hcomplete⟩⟩
      rw [← Call.finishing.inj hother]
      exact not_not.mp hid
    · simp [hid, hcomplete]

/-- **What a transaction does**: it keeps the active trip, marks an item of it, starts a trip in an
empty store, deletes the trip it names, or clears the store. -/
theorem effect_transact (call : Call) (store : Option StoredValue) :
    Effect call store (transact call store) := by
  cases call with
  | pending operation =>
    cases operation with
    | getActive => exact effect_getActiveTransaction (by simp) store
    | start snapshot => exact effect_startTransaction snapshot store
    | setCompleted id itemId completed =>
      exact effect_setCompletedTransaction id itemId completed store
    | finish id =>
      cases store with
      | none => exact .keeps rfl (by simp [transact]) (by simp [transact])
      | some value => exact effect_getActiveTransaction (finishTrip_spec id) (some value)
    | delete id => exact effect_deleteTransaction .deleted (Or.inl rfl) store
    | clear => exact .clears (Or.inl rfl) rfl ⟨_, rfl⟩
  | removing => exact .clears (Or.inr rfl) rfl ⟨_, rfl⟩
  | finishing id => exact effect_deleteTransaction (fun _ => .nothing) (Or.inr rfl) store
  | settled answer => exact .keeps rfl (by simp [transact]) (by simp [transact])

/-! ### What a step does -/

variable {s t : State} {record : StoredTrip}

/-- **What a step does**: the store stays and no call reaches a second transaction, or the
transaction of a call commits. -/
theorem next_cases {e : Event} (h : next s e = some t) :
    (t.store = s.store ∧ ∀ call ∈ t.calls, (call = .removing ∨ ∃ id, call = .finishing id) →
        call ∈ s.calls) ∨
      ∃ call, committing s e = some call ∧ call ∈ s.calls ∧
        t.store = (transact call s.store).2 ∧
        ∀ other ∈ t.calls, other ∈ s.calls ∨ other = (transact call s.store).1 := by
  cases e with
  | call operation =>
    cases h
    refine Or.inl ⟨rfl, fun call hcall hkind => ?_⟩
    simp only [List.mem_append, List.mem_singleton] at hcall
    rcases hcall with hcall | rfl
    · exact hcall
    · simp at hkind
  | commit caller =>
    obtain ⟨call, hcall, rfl⟩ := Option.map_eq_some_iff.mp h
    exact Or.inr ⟨call, hcall, List.mem_of_getElem? hcall, rfl,
      fun other hother => List.mem_or_eq_of_mem_set hother⟩
  | fail caller =>
    obtain ⟨call, hcall, rfl⟩ := Option.map_eq_some_iff.mp h
    refine Or.inl ⟨rfl, fun other hother hkind => ?_⟩
    rcases List.mem_or_eq_of_mem_set hother with hother | rfl
    · exact hother
    · cases call <;> simp [failed] at hkind

/-! ### A trip with one item -/

/-- A trip to buy milk. -/
def milkTrip : TripSnapshot where
  id := js "tur"
  checklistItemIds := [js "melk"]
  rest := js "plan"
  nonempty := by decide
  nodup := by decide

/-- The trip with its milk marked. -/
def milkBought : StoredTrip := (StoredTrip.fresh milkTrip).mark (js "melk") true

/-! ### Removal of a trip -/

/-- A step after which a trip is no longer the active one. -/
def Removes (s t : State) (record : StoredTrip) : Prop :=
  activeTrip s.store = some record ∧
    ∀ other ∈ activeTrip t.store, other.snapshot ≠ record.snapshot

/-- A step by which a tab deletes or finishes the trip by its own identifier, or clears the
store. -/
def Authorized (s : State) (e : Event) (record : StoredTrip) : Prop :=
  ∃ call, committing s e = some call ∧
    (call = .pending (.delete record.snapshot.id) ∨ call = .finishing record.snapshot.id ∨
      call = .pending .clear)

/-- No trip is started in an empty store while the removal of a corrupt record is pending. -/
def KeepsCleanups (s : State) (e : Event) : Prop :=
  .removing ∈ s.calls → ∀ snapshot, committing s e = some (.pending (.start snapshot)) →
    s.store ≠ none

/-- While a removal is pending there is no trip it could hit. -/
def NothingToRemove (s : State) : Prop := .removing ∈ s.calls → activeTrip s.store = none

/-- A step leaves nothing to a pending removal. -/
theorem nothingToRemove_next {e : Event} (h : NothingToRemove s) (hkeeps : KeepsCleanups s e)
    (hstep : next s e = some t) : NothingToRemove t := by
  intro hremoving
  rcases next_cases hstep with ⟨hstore, hcalls⟩ | ⟨call, hcommit, hcall, hstore, hcalls⟩
  · rw [hstore]
    exact h (hcalls _ hremoving (Or.inl rfl))
  · rw [hstore]
    rcases hcalls _ hremoving with hpending | heq
    · have hnone := h hpending
      cases effect_transact call s.store with
      | keeps hout => rw [hout, hnone]
      | marks record itemId completed _ hactive =>
        rw [hnone] at hactive
        cases hactive
      | starts snapshot hstart hempty =>
        exact absurd hempty (hkeeps hpending snapshot (hstart ▸ hcommit))
      | deletes record hactive =>
        rw [hnone] at hactive
        cases hactive
      | clears _ hout => exact hout
    · cases effect_transact call s.store with
      | keeps hout hnone => rw [hout, hnone heq.symm]
      | marks _ _ _ _ _ _ hsettled =>
        obtain ⟨answer, hanswer⟩ := hsettled
        rw [hanswer] at heq
        cases heq
      | starts _ _ _ _ hsettled =>
        obtain ⟨answer, hanswer⟩ := hsettled
        rw [hanswer] at heq
        cases heq
      | deletes _ _ _ hout => exact hout
      | clears _ hout => exact hout

/-- **A trip is removed only on request**: in every run in which no trip is started while the
removal of a corrupt record is pending, a step that removes a trip deletes or finishes it by its
identifier, or clears the store. **Proof sketch.** The invariant is that a pending removal finds no
trip: a call comes to remove only what it could not read, and only a start makes a trip out of an
empty store. -/
theorem removal_isAuthorized {e : Event} (hreachable : tabs.Reachable KeepsCleanups s)
    (hstep : next s e = some t) (hremoves : Removes s t record) : Authorized s e record := by
  have hinv : NothingToRemove s := by
    refine hreachable.invariant (fun s hs hremoving => ?_) fun s e t => nothingToRemove_next
    rw [show s.calls = [] from hs] at hremoving
    cases hremoving
  obtain ⟨hactive, hgone⟩ := hremoves
  rcases next_cases hstep with ⟨hstore, -⟩ | ⟨call, hcommit, hcall, hstore, -⟩
  · rw [hstore] at hgone
    exact absurd rfl (hgone record hactive)
  · rw [hstore] at hgone
    refine ⟨call, hcommit, ?_⟩
    cases effect_transact call s.store with
    | keeps hout => exact absurd rfl (hgone record (hout.trans hactive))
    | marks marked itemId completed _ hmarked hout =>
      have hsame : marked = record := Option.some.inj (hmarked.symm.trans hactive)
      rw [hsame] at hout
      exact absurd rfl (hgone (record.mark itemId completed) hout)
    | starts snapshot _ hempty =>
      rw [hempty] at hactive
      cases hactive
    | deletes deleted hdeleted hcall =>
      obtain rfl := Option.some.inj (hdeleted.symm.trans hactive)
      exact hcall.imp_right Or.inl
    | clears hcall =>
      rcases hcall with rfl | rfl
      · exact Or.inr (Or.inr rfl)
      · rw [hinv hcall] at hactive
        cases hactive

/-- Two tabs find a corrupt record. The clean-up of the second one is still pending when the first one
has removed the record; once both are done, the first tab starts a trip and deletes it. -/
theorem removal_isAuthorized_after_cleanups :
    ∃ s t, tabs.run ⟨some .corrupt, []⟩
        [.call .getActive, .call .getActive, .commit 0, .commit 1, .commit 0, .commit 1,
          .call (.start milkTrip), .commit 2, .call (.delete (js "tur"))] = some s ∧
      next s (.commit 3) = some t ∧ Removes s t (.fresh milkTrip) ∧
      Authorized s (.commit 3) (.fresh milkTrip) := by
  have h0 : tabs.Reachable KeepsCleanups ⟨some .corrupt, []⟩ := .init rfl
  have h1 := h0.next (e := .call .getActive) (fun h => absurd h (by decide)) rfl
  have h2 := h1.next (e := .call .getActive) (fun h => absurd h (by decide)) rfl
  have h3 := h2.next (e := .commit 0) (fun h => absurd h (by decide)) rfl
  have h4 := h3.next (e := .commit 1) (fun _ _ h => by cases h) rfl
  have h5 := h4.next (e := .commit 0) (fun _ _ h => by cases h) rfl
  have h6 := h5.next (e := .commit 1) (fun _ _ h => by cases h) rfl
  have h7 := h6.next (e := .call (.start milkTrip)) (fun h => absurd h (by decide)) rfl
  have h8 := h7.next (e := .commit 2) (fun h => absurd h (by decide)) rfl
  have h9 := h8.next (e := .call (.delete (js "tur"))) (fun h => absurd h (by decide)) rfl
  refine ⟨_, ⟨none, [.settled (.error .corrupt), .settled (.error .corrupt),
      .settled (.trip (.fresh milkTrip)), .settled (.deleted true)]⟩, rfl, rfl, ?_,
    removal_isAuthorized (e := .commit 3) h9 rfl ?_⟩ <;>
  exact ⟨rfl, nofun⟩

/-- Two tabs find a corrupt record; one of them removes it and starts a trip, and the removal of the
other one deletes that trip. -/
theorem not_removal_isAuthorized_two_cleanups :
    ∃ s t, tabs.run ⟨some .corrupt, []⟩
        [.call .getActive, .call .getActive, .commit 0, .commit 1, .commit 0,
          .call (.start milkTrip), .commit 2] = some s ∧
      tabs.Reachable (fun _ _ => True) s ∧ next s (.commit 1) = some t ∧
      Removes s t (.fresh milkTrip) ∧ ¬ Authorized s (.commit 1) (.fresh milkTrip) := by
  have hrun : tabs.run ⟨some .corrupt, []⟩
      [.call .getActive, .call .getActive, .commit 0, .commit 1, .commit 0,
        .call (.start milkTrip), .commit 2] =
      some ⟨some (.current (.fresh milkTrip)), [.settled (.error .corrupt), .removing,
        .settled (.trip (.fresh milkTrip))]⟩ := rfl
  have hinit : tabs.init ⟨some .corrupt, []⟩ := rfl
  refine ⟨_, ⟨none, [.settled (.error .corrupt), .settled (.error .corrupt),
    .settled (.trip (.fresh milkTrip))]⟩, hrun, .run (.init hinit) hrun, rfl,
    ⟨rfl, by simp [activeTrip]⟩, ?_⟩
  rintro ⟨call, hcall, hkind⟩
  cases hcall
  simp at hkind

/-! ### Deletion of a finished trip -/

/-- Every item of the checklist is marked completed. -/
def StoredTrip.AllMarked (record : StoredTrip) : Prop :=
  ∀ id ∈ record.snapshot.checklistItemIds, id ∈ record.completedItemIds

/-- The check of `finish` counts right: the marked items are distinct items of the checklist. -/
theorem StoredTrip.isComplete_iff (record : StoredTrip) :
    record.IsComplete ↔ record.AllMarked := by
  have hsubperm := List.subperm_of_subset record.unique record.listed
  constructor
  · intro hlength id hid
    exact (hsubperm.perm_of_length_le hlength.ge).mem_iff.mpr hid
  · intro hall
    exact Nat.le_antisymm hsubperm.length_le
      (List.subperm_of_subset record.snapshot.nodup hall).length_le

theorem StoredTrip.mem_mark {itemId id : JsString} {completed : Bool} :
    id ∈ (record.mark itemId completed).completedItemIds ↔
      id ∈ record.snapshot.checklistItemIds ∧
        if id = itemId then completed = true else id ∈ record.completedItemIds := by
  simp only [StoredTrip.mark, List.mem_filter]
  split_ifs <;> simp

/-- A complete trip stays complete unless a marked item of it is unmarked. -/
theorem StoredTrip.AllMarked.mark {itemId : JsString} {completed : Bool} (h : record.AllMarked)
    (hkept : completed = false → itemId ∉ record.completedItemIds) :
    (record.mark itemId completed).AllMarked := by
  intro id hid
  refine StoredTrip.mem_mark.mpr ⟨hid, ?_⟩
  split_ifs with heq
  · subst heq
    by_contra hfalse
    exact hkept (by simpa using hfalse) (h id hid)
  · exact h id hid

/-- While a trip that was found complete waits for its deletion, no marked item of it is unmarked,
and no trip with its identifier is started. -/
def KeepsFinished (s : State) (e : Event) : Prop :=
  ∀ id, .finishing id ∈ s.calls →
    (∀ snapshot, committing s e = some (.pending (.start snapshot)) → snapshot.id = id →
      s.store ≠ none) ∧
    ∀ itemId, committing s e = some (.pending (.setCompleted id itemId false)) →
      ∀ record ∈ activeTrip s.store, itemId ∉ record.completedItemIds

/-- The trip that waits for its deletion is still complete when it is there. -/
def FinishedIsComplete (s : State) : Prop :=
  ∀ id, .finishing id ∈ s.calls → ∀ record, activeTrip s.store = some record →
    record.snapshot.id = id → record.AllMarked

/-- A step keeps a trip that waits complete. -/
theorem finishedIsComplete_next {e : Event} (h : FinishedIsComplete s) (hkeeps : KeepsFinished s e)
    (hstep : next s e = some t) : FinishedIsComplete t := by
  intro id hfinishing record hactive hid
  rcases next_cases hstep with ⟨hstore, hcalls⟩ | ⟨call, hcommit, hcall, hstore, hcalls⟩
  · rw [hstore] at hactive
    exact h id (hcalls _ hfinishing (Or.inr ⟨id, rfl⟩)) record hactive hid
  · rw [hstore] at hactive
    rcases hcalls _ hfinishing with hwaiting | heq
    · cases effect_transact call s.store with
      | keeps hout => exact h id hwaiting record (hout.symm.trans hactive) hid
      | marks before itemId completed hmark hbefore hout =>
        obtain rfl := Option.some.inj (hout.symm.trans hactive)
        refine (h id hwaiting before hbefore hid).mark fun hfalse => ?_
        subst hfalse
        have hsame : before.snapshot.id = id := hid
        exact (hkeeps id hwaiting).2 itemId (by rw [hcommit, hmark, hsame]) before hbefore
      | starts snapshot hstart hempty hout =>
        obtain rfl := Option.some.inj (hout.symm.trans hactive)
        exact absurd hempty ((hkeeps id hwaiting).1 snapshot (hstart ▸ hcommit) hid)
      | deletes _ _ _ hout =>
        rw [hout] at hactive
        cases hactive
      | clears _ hout =>
        rw [hout] at hactive
        cases hactive
    · cases effect_transact call s.store with
      | keeps hout _ hfound =>
        obtain ⟨found, hfoundActive, -, hcomplete⟩ := hfound id heq.symm
        obtain rfl := Option.some.inj (hfoundActive.symm.trans (hout.symm.trans hactive))
        exact found.isComplete_iff.mp hcomplete
      | marks _ _ _ _ _ _ hsettled =>
        obtain ⟨answer, hanswer⟩ := hsettled
        rw [hanswer] at heq
        cases heq
      | starts _ _ _ _ hsettled =>
        obtain ⟨answer, hanswer⟩ := hsettled
        rw [hanswer] at heq
        cases heq
      | deletes _ _ _ hout =>
        rw [hout] at hactive
        cases hactive
      | clears _ hout =>
        rw [hout] at hactive
        cases hactive

/-- **Finishing deletes complete trips only**: in every run in which no item of a trip that waits
for its deletion is unmarked and no trip with its identifier is started, a step by which `finish`
removes a trip finds every item of its checklist marked. **Proof sketch.** The invariant is that the
waiting trip, when it is there, is complete: `finish` comes to wait only after it has read a
complete trip. -/
theorem finish_deletes_complete {e : Event} {id : JsString}
    (hreachable : tabs.Reachable KeepsFinished s) (hstep : next s e = some t)
    (hfinish : committing s e = some (.finishing id)) (hremoves : Removes s t record) :
    record.AllMarked := by
  have hinv : FinishedIsComplete s := by
    refine hreachable.invariant (fun s hs id hid => ?_) fun s e t => finishedIsComplete_next
    rw [show s.calls = [] from hs] at hid
    cases hid
  obtain ⟨hactive, hgone⟩ := hremoves
  have hwaiting : .finishing id ∈ s.calls := by
    cases e with
    | commit caller => exact List.mem_of_getElem? hfinish
    | call operation => cases hfinish
    | fail caller => cases hfinish
  rcases next_cases hstep with ⟨hstore, -⟩ | ⟨call, hcommit, -, hstore, -⟩
  · rw [hstore] at hgone
    exact absurd rfl (hgone record hactive)
  · obtain rfl := Option.some.inj (hcommit.symm.trans hfinish)
    rw [hstore] at hgone
    cases heffect : effect_transact (.finishing id) s.store with
    | keeps hout => exact absurd rfl (hgone record (hout.trans hactive))
    | marks _ _ _ hcall => cases hcall
    | starts _ hcall => cases hcall
    | deletes deleted hdeleted hcall =>
      obtain rfl := Option.some.inj (hdeleted.symm.trans hactive)
      rcases hcall with hcall | hcall
      · cases hcall
      · exact hinv id hwaiting deleted hactive (Call.finishing.inj hcall).symm
    | clears hcall => rcases hcall with hcall | hcall <;> cases hcall

/-- A tab finishes the trip whose milk is marked; between its check and its deletion another tab marks
the milk once more. -/
theorem finish_deletes_complete_two_tabs :
    ∃ s t, tabs.run ⟨some (.current milkBought), []⟩
        [.call (.finish (js "tur")), .call (.setCompleted (js "tur") (js "melk") true),
          .commit 0, .commit 1] = some s ∧
      next s (.commit 0) = some t ∧ Removes s t milkBought ∧ milkBought.AllMarked := by
  have h0 : tabs.Reachable KeepsFinished ⟨some (.current milkBought), []⟩ := .init rfl
  have h1 := h0.next (e := .call (.finish (js "tur"))) (fun _ h => by cases h) rfl
  have h2 := h1.next (e := .call (.setCompleted (js "tur") (js "melk") true))
    (fun _ _ => ⟨nofun, nofun⟩) rfl
  have h3 := h2.next (e := .commit 0) (fun _ _ => ⟨nofun, nofun⟩) rfl
  have h4 := h3.next (e := .commit 1) (fun _ _ => ⟨nofun, nofun⟩) rfl
  refine ⟨_, ⟨none, [.settled .nothing, .settled (.trip milkBought)]⟩, rfl, rfl, ?_,
    finish_deletes_complete (e := .commit 0) h4 rfl rfl ?_⟩ <;>
  exact ⟨rfl, nofun⟩

/-- One tab finishes the trip; after it has found the trip complete another tab unmarks the milk,
and the trip is deleted all the same. -/
theorem not_finish_deletes_complete_unmarked :
    ∃ s t, tabs.run ⟨some (.current milkBought), []⟩
        [.call (.finish (js "tur")), .call (.setCompleted (js "tur") (js "melk") false),
          .commit 0, .commit 1] = some s ∧
      tabs.Reachable (fun _ _ => True) s ∧ next s (.commit 0) = some t ∧
      committing s (.commit 0) = some (.finishing (js "tur")) ∧
      Removes s t (milkBought.mark (js "melk") false) ∧
      ¬ (milkBought.mark (js "melk") false).AllMarked := by
  have hrun : tabs.run ⟨some (.current milkBought), []⟩
      [.call (.finish (js "tur")), .call (.setCompleted (js "tur") (js "melk") false),
        .commit 0, .commit 1] =
      some ⟨some (.current (milkBought.mark (js "melk") false)), [.finishing (js "tur"),
        .settled (.trip (milkBought.mark (js "melk") false))]⟩ := rfl
  have hinit : tabs.init ⟨some (.current milkBought), []⟩ := rfl
  refine ⟨_, ⟨none, [.settled .nothing, .settled (.trip (milkBought.mark (js "melk") false))]⟩, hrun,
    .run (.init hinit) hrun, rfl, rfl, ⟨rfl, by simp [activeTrip]⟩, ?_⟩
  intro hall
  exact absurd (hall (js "melk") (by decide)) (by decide)

end Handleplan.TripStore
