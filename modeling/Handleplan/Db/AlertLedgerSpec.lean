import Handleplan.Db.AlertLedger

/-!
# Runs of the ledger of operational alerts

Calls of the function are serial, since each reads and writes the ledger under one advisory lock.
What one call does to a sound ledger is stated of the ways through its program; an induction over
the committed calls carries it to whole runs. Pages of the export are read from a ledger that grows
between them.

## Main definitions

* `AlertLedger.LedgerIsSound` — the ledgers that calls leave.
* `AlertLedger.MeetsCondition` — the calls whose events read back.
* `AlertLedger.KeepsLedger`, `MayFail` — what a call does, and how it may fail.
* `AlertLedger.LedgerHolds` — what holds of a state.

## Main results

* `AlertLedger.isSerial` — calls run one after another.
* `AlertLedger.appendTransitions_spec` — the loop over the assessments.
* `AlertLedger.append_spec` — how a call ends.
* `AlertLedger.readPages_spec` — pages return each later transition once, in order.
* `AlertLedger.ledgerHolds_of_reachable` — the ledger folds to the last evaluation.
-/

namespace Handleplan.AlertLedger

open JsString JsonText Sorting Operations Workers Interaction Sessions RowLocks Serial

/-! ### Calls run one after another -/

section Serial

variable {sha256 : JsString → JsString} {evaluationSha256 : EvaluationArguments → JsString}
  {hash : LockHash}

theorem isNeutral_countSources (sourceIds : List JsString)
    (answer : Answer (.countSources sourceIds)) :
    ledgerTables.IsNeutral ⟨.countSources sourceIds, answer⟩ :=
  fun _ => ⟨trivial, rfl⟩

theorem isNeutral_advisoryLock (name : LockName) (answer : Answer (.advisoryLock name)) :
    ledgerTables.IsNeutral ⟨.advisoryLock name, answer⟩ :=
  fun _ => ⟨trivial, rfl⟩

/-- What a call may ask: what any ledger answers, or anything under the lock of the evaluation. -/
def MayAsk (hash : LockHash) (h : History Query Answer) (query : Query) : Prop :=
  (∀ answer, ledgerTables.IsNeutral ⟨query, answer⟩) ∨
    (access hash).Holds h (hash .evaluation) .update

/-- A call reads and writes the ledger under the lock of the evaluation only. -/
theorem safe_append (call : EvaluationArguments) :
    Prog.Safe (MayAsk hash) (fun _ _ => True) [] (append sha256 evaluationSha256 call) := by
  unfold append
  refine Prog.Safe.bind (Prog.Safe.require fun _ => ?_)
  refine Prog.Safe.bind (Prog.Safe.query (.inl fun a => isNeutral_countSources _ a)
    fun (stored : ℕ) => ?_)
  refine Prog.Safe.bind (Prog.Safe.require fun _ => ?_)
  refine Prog.Safe.bind (Prog.Safe.require fun _ => ?_)
  refine Prog.Safe.bind (Prog.Safe.query (.inl fun a => isNeutral_advisoryLock _ a)
    fun (_ : Unit) => ?_)
  refine safe_of_holds ⟨⟨.advisoryLock .evaluation, ()⟩, ?_, List.mem_singleton_self _⟩
  simp

/-- **Calls run one after another.** -/
theorem isSerial : IsSerial (database sha256 evaluationSha256 hash) (access hash) ledgerTables
    (hash .evaluation) .empty fun clock ledger => ledger.IsBy clock where
  waits := fun st s q a hadmits => hadmits.1
  locked := safe_append
  starts := fun clock t ht => by cases ht
  elapses := fun clock clock' ledger hle hby t ht => (hby t ht).trans hle
  answers := by
    intro st s t q a ht hadmits hby
    have hseen : ledgerSeen st s = ledgerTables.after .empty (logOf st.committed ++ t.history) := by
      rw [ledgerSeen, historyOf, ht, Option.map_some, Option.getD_some]
    obtain ⟨-, hnow, hanswers⟩ := hadmits
    rw [hseen] at hanswers
    refine ⟨hanswers, ?_⟩
    cases q with
    | clockTimestamp =>
      intro u hu
      cases hu
      exact le_of_eq hnow
    | insertEvent event =>
      intro u hu
      cases hu
      exact le_of_eq hnow
    | countSources sourceIds => exact hby
    | advisoryLock name => exact hby
    | selectNewest key sourceId => exact hby

end Serial

/-! ### Newest events -/

section Newest

variable {rows new : List AlertEvent} {key : EventKey} {sourceId : Option JsString}
  {event : AlertEvent}

/-- Events of other alerts do not change the newest one. -/
theorem newest_append_of_ne (h : ∀ e ∈ new, ¬ (e.alertKey = key ∧ e.sourceId = sourceId)) :
    newest (rows ++ new) key sourceId = newest rows key sourceId := by
  have hnil : new.filter (fun e => e.alertKey = key ∧ e.sourceId = sourceId) = [] :=
    List.filter_eq_nil_iff.mpr fun e he => by
      rw [decide_eq_true_iff]
      exact h e he
  rw [newest, newest, List.filter_append, hnil, List.append_nil]

/-- An event with a new number is the newest one of its alert. -/
theorem newest_concat_self (h : ∀ row ∈ rows, row.id < event.id) :
    newest (rows ++ [event]) event.alertKey event.sourceId = some event := by
  have hfilter : [event].filter (fun e => e.alertKey = event.alertKey ∧ e.sourceId = event.sourceId) =
      [event] := by simp
  rw [newest, List.filter_append, hfilter, List.argmax_concat]
  cases hmax : (rows.filter fun e => e.alertKey = event.alertKey ∧
      e.sourceId = event.sourceId).argmax fun e => e.id with
  | none => rfl
  | some row =>
    have hrow := (List.mem_filter.mp (List.argmax_mem hmax)).1
    exact if_pos (h row hrow)

theorem of_newest (h : newest rows key sourceId = some event) :
    event ∈ rows ∧ event.alertKey = key ∧ event.sourceId = sourceId := by
  obtain ⟨hmem, hkey⟩ := List.mem_filter.mp (List.argmax_mem h)
  exact ⟨hmem, of_decide_eq_true hkey⟩

end Newest

/-! ### Sound ledgers -/

/-- What the function writes of an alert. -/
structure TransitionIsWritten (event : AlertEvent) : Prop where
  exported : ExportIsSound event
  range : event.IsInRange
  openedAt : event.openedAt ≤ event.persistedAt

/-- What the function writes. -/
def EventIsWritten (event : AlertEvent) : Prop :=
  match event.alertKey with
  | .evaluationCheckpoint => CheckpointIsSound event
  | .alert _ => TransitionIsWritten event

/-- An event that was written before a clock passes the checks at that clock. -/
theorem TransitionIsWritten.isSound {event : AlertEvent} (h : TransitionIsWritten event) {eventAt : ℤ}
    (hle : event.persistedAt ≤ eventAt) : TransitionIsSound eventAt event where
  closedAt := h.exported.closedAt
  range := by
    cases hclosed : event.closedAt with
    | none => exact h.openedAt.trans hle
    | some closedAt => exact h.range closedAt hclosed
  openedAt := h.openedAt
  evaluation := h.exported.evaluation
  roster := h.exported.roster
  evaluatedAt := h.exported.evaluatedAt
  outcome := h.exported.outcome

/-- **A sound ledger**: its numbers ascend, the function has written its events, and none of them
after the last reading of the clock. -/
structure LedgerIsSound (ledger : Ledger) : Prop where
  ids : ledger.rows.Pairwise fun a b => a.id < b.id
  written : ∀ event ∈ ledger.rows, EventIsWritten event
  persisted : ∀ event ∈ ledger.rows, ∃ t ∈ ledger.readAt, event.persistedAt ≤ t

theorem ledgerIsSound_empty : LedgerIsSound .empty where
  ids := .nil
  written := fun event hevent => by cases hevent
  persisted := fun event hevent => by cases hevent

section Sound

variable {ledger : Ledger}

section

variable (h : LedgerIsSound ledger)

include h

theorem LedgerIsSound.written_of_newest {key : AlertKey}
    {sourceId : Option JsString} {event : AlertEvent}
    (hnewest : newest ledger.rows (.alert key) sourceId = some event) :
    TransitionIsWritten event := by
  obtain ⟨hmem, hkey, -⟩ := of_newest hnewest
  have hwritten := h.written event hmem
  rw [EventIsWritten, hkey] at hwritten
  exact hwritten

theorem LedgerIsSound.checkpoint_of_newest {sourceId : Option JsString}
    {event : AlertEvent} (hnewest : newest ledger.rows .evaluationCheckpoint sourceId = some event) :
    CheckpointIsSound event := by
  obtain ⟨hmem, hkey, -⟩ := of_newest hnewest
  have hwritten := h.written event hmem
  rw [EventIsWritten, hkey] at hwritten
  exact hwritten

/-- A clock that is read later is not before what was written. -/
theorem LedgerIsSound.persistedAt_le {clock : ℤ} (hby : ledger.IsBy clock)
    {event : AlertEvent} (hevent : event ∈ ledger.rows) : event.persistedAt ≤ clock := by
  obtain ⟨t, ht, hle⟩ := h.persisted event hevent
  exact hle.trans (hby t ht)

/-- Reading the clock keeps a ledger sound. -/
theorem LedgerIsSound.clockTimestamp {reading : ℤ}
    (hby : ledger.IsBy reading) : LedgerIsSound { ledger with readAt := some reading } where
  ids := h.ids
  written := h.written
  persisted := fun _ hevent => ⟨reading, rfl, h.persistedAt_le hby hevent⟩

/-- Inserting an event keeps a ledger sound. -/
theorem LedgerIsSound.insertEvent {event : NewAlertEvent} {stamp : Stamp}
    (hanswers : ledger.Answers ⟨.insertEvent event, stamp⟩)
    (hwritten : EventIsWritten (event.stamped stamp)) :
    LedgerIsSound ⟨ledger.rows ++ [event.stamped stamp], some stamp.persistedAt⟩ := by
  obtain ⟨-, hby, -, hnew⟩ := hanswers
  refine ⟨List.pairwise_append.mpr ⟨h.ids, List.pairwise_singleton _ _, ?_⟩, ?_, ?_⟩
  · intro row hrow other hother
    rw [List.mem_singleton.mp hother]
    exact hnew row hrow
  · intro other hother
    rcases List.mem_append.mp hother with hold | hlast
    · exact h.written other hold
    · rw [List.mem_singleton.mp hlast]
      exact hwritten
  · intro other hother
    rcases List.mem_append.mp hother with hold | hlast
    · exact ⟨_, rfl, h.persistedAt_le hby hold⟩
    · rw [List.mem_singleton.mp hlast]
      exact ⟨_, rfl, le_rfl⟩

end

end Sound

/-! ### What a call writes -/

/-- The condition on a call: its instant is of the years 1 to 9999, and none of its assessments is
acknowledged. -/
@[mk_iff] structure MeetsCondition (call : EvaluationArguments) : Prop where
  years : Readable (call.evaluatedAt / 1000)
  status : ∀ a ∈ call.assessments, a.status ≠ .acknowledged

instance : DecidablePred MeetsCondition := fun _ => decidable_of_iff' _ (meetsCondition_iff _)

section Writes

variable {sha256 : JsString → JsString} {evaluationSha256 : EvaluationArguments → JsString}
  {call : EvaluationArguments} {eventAt openedAt : ℤ} {a : Assessment} {stamp : Stamp}

/-- The instant of a call is read back from what it writes. -/
theorem evaluatedAt?_of_details {event : NewAlertEvent} {outcome : Option AlertOutcome}
    (hdetails : event.details = details evaluationSha256 call outcome)
    (hmillis : call.evaluatedAt % 1000 = 0) (hcondition : MeetsCondition call) :
    event.evaluatedAt? = some call.evaluatedAt := by
  have hread := CivilTime.read_textOf hcondition.years.1 hcondition.years.2
  rw [NewAlertEvent.evaluatedAt?, hdetails, details, hread, Option.map_some]
  congr 1
  omega

/-- An accepted assessment of a source has one, and another one has none. -/
theorem scope_iff (haccepted : ScopeAccepted call.sourceRoster a) :
    (∃ key ∈ sourceKeys, EventKey.alert a.alertKey = .alert key) ↔ a.sourceId ≠ none := by
  unfold ScopeAccepted at haccepted
  split_ifs at haccepted with hkey
  · obtain ⟨sourceId, hsource, -⟩ := haccepted
    refine iff_of_true ⟨_, hkey, rfl⟩ ?_
    rw [Option.mem_def.mp hsource]
    exact Option.some_ne_none _
  · refine iff_of_false ?_ (not_not.mpr haccepted)
    rintro ⟨key, hmem, heq⟩
    obtain rfl := EventKey.alert.inj heq
    exact hkey hmem

/-- **What a call writes of an alert** passes the checks. -/
theorem transitionIsWritten_transition (haccepted : ArgumentsAccepted sha256 call)
    (hcondition : MeetsCondition call) (hdigest : Sha256Schema (evaluationSha256 call))
    (ha : a ∈ call.assessments) (hopened : openedAt ≤ eventAt) (hpast : call.evaluatedAt ≤ eventAt)
    (hpersisted : eventAt ≤ stamp.persistedAt) :
    TransitionIsWritten ((transition evaluationSha256 call eventAt openedAt a).stamped stamp) where
  exported := {
    closedAt := by
      show a.status = .closed ↔ (if a.status = .closed then some eventAt else none) ≠ none
      split_ifs with hclosed
      · exact iff_of_true hclosed (Option.some_ne_none _)
      · exact iff_of_false hclosed (not_not.mpr rfl)
    evaluation := hdigest
    roster := haccepted.1.contentSha256
    version := haccepted.1.version
    evaluatedAt := ⟨call.evaluatedAt,
      evaluatedAt?_of_details rfl haccepted.1.evaluatedAt hcondition, hpast.trans hpersisted⟩
    outcome := ⟨hcondition.status a ha, a.outcome, rfl, haccepted.2.states a ha⟩
    scope := scope_iff (haccepted.2.scopes a ha) }
  range := by
    intro closedAt hclosed
    have hsome : (if a.status = .closed then some eventAt else none) = some closedAt := hclosed
    obtain ⟨-, hclosedAt⟩ := Option.ite_none_right_eq_some.mp hsome
    cases hclosedAt
    exact hopened
  openedAt := hopened.trans hpersisted

/-- **What a call writes of its checkpoint** passes the checks. -/
theorem checkpointIsSound_checkpoint (haccepted : ArgumentsAccepted sha256 call)
    (hcondition : MeetsCondition call) (hdigest : Sha256Schema (evaluationSha256 call))
    (hpast : call.evaluatedAt ≤ eventAt) (hpersisted : eventAt ≤ stamp.persistedAt) :
    CheckpointIsSound ((checkpoint evaluationSha256 call eventAt).stamped stamp) where
  status := rfl
  severity := rfl
  closedAt := rfl
  openedAt := hpersisted
  outcome := rfl
  evaluation := hdigest
  roster := haccepted.1.contentSha256
  evaluatedAt := ⟨call.evaluatedAt,
    evaluatedAt?_of_details rfl haccepted.1.evaluatedAt hcondition, hpast⟩

end Writes

/-! ### The loop over the assessments -/

section Loop

variable {sha256 : JsString → JsString} {evaluationSha256 : EvaluationArguments → JsString}
  {call : EvaluationArguments} {eventAt openedAt : ℤ} {a : Assessment} {ledger : Ledger} {n : ℕ}
  {h : History Query Answer} {ρ : Type} {outcome : Except EvaluationError ρ}

/-- An event is of the alert of an assessment. -/
def IsOfAlert (event : AlertEvent) (a : Assessment) : Prop :=
  event.alertKey = .alert a.alertKey ∧ event.sourceId = a.sourceId

/-- Two events are of different alerts. -/
def EventsDiffer (e f : AlertEvent) : Prop := ¬ (e.alertKey = f.alertKey ∧ e.sourceId = f.sourceId)

/-- An event precedes a call: it was written before, for an earlier evaluation. -/
def Precedes (call : EvaluationArguments) (eventAt : ℤ) (event : AlertEvent) : Prop :=
  event.persistedAt ≤ eventAt ∧ ∀ t ∈ event.evaluatedAt?, t < call.evaluatedAt

/-- The newest event of the alert of an assessment. -/
def newestOf (rows : List AlertEvent) (a : Assessment) : Option AlertEvent :=
  newest rows (.alert a.alertKey) a.sourceId

/-- **What an event that a call appends says**: it is of an alert that was assessed, carries the
assessment, and is there because the newest event before did not carry it. -/
structure IsAppended (call : EvaluationArguments) (rows : List AlertEvent) (a : Assessment)
    (event : AlertEvent) : Prop where
  alert : IsOfAlert event a
  evaluatedAt : event.evaluatedAt? = some call.evaluatedAt
  carries : Carries event a call.sourceRoster
  differs : ∀ prior, newestOf rows a = some prior → ¬ Carries prior a call.sourceRoster

/-- What a statement or more leave of a ledger: more events, which keep it sound, at a clock that is
not before that of the call. -/
structure Extends (eventAt : ℤ) (ledger ledger' : Ledger) (new : List AlertEvent) : Prop where
  rows : ledger'.rows = ledger.rows ++ new
  sound : LedgerIsSound ledger'
  read : ∃ t ∈ ledger'.readAt, eventAt ≤ t

/-- Two assessments are of different alerts. -/
def AreOfDifferentAlerts (a b : Assessment) : Prop :=
  ¬ (a.alertKey = b.alertKey ∧ a.sourceId = b.sourceId)

theorem AreOfDifferentAlerts.symm {a b : Assessment} (h : AreOfDifferentAlerts a b) :
    AreOfDifferentAlerts b a :=
  fun heq => h ⟨heq.1.symm, heq.2.symm⟩

theorem IsOfAlert.ne {e : AlertEvent} {a b : Assessment} (h : IsOfAlert e a)
    (hne : AreOfDifferentAlerts a b) : ¬ IsOfAlert e b := by
  rintro ⟨hkey, hsource⟩
  exact hne ⟨EventKey.alert.inj (h.1.symm.trans hkey), h.2.symm.trans hsource⟩

/-- Events of other alerts leave the newest event of an alert. -/
theorem Extends.newestOf_eq {ledger' : Ledger} {new : List AlertEvent}
    (hextends : Extends eventAt ledger ledger' new) (hother : ∀ e ∈ new, ¬ IsOfAlert e a) :
    newestOf ledger'.rows a = newestOf ledger.rows a := by
  rw [newestOf, hextends.rows]
  exact newest_append_of_ne hother

section

variable (haccepted : ArgumentsAccepted sha256 call) (hcondition : MeetsCondition call)
  (hdigest : Sha256Schema (evaluationSha256 call))

include haccepted hcondition hdigest

/-- The insertion of the event of an assessment. -/
theorem extends_insertTransition (ha : a ∈ call.assessments) (hsound : LedgerIsSound ledger)
    (hread : ∃ t ∈ ledger.readAt, eventAt ≤ t) (hpast : call.evaluatedAt ≤ eventAt)
    (hopened : openedAt ≤ eventAt) {outcome : Except EvaluationError ℕ}
    (hleads : Leads (insertTransition evaluationSha256 call eventAt openedAt n a) h outcome)
    (htraces : ledgerTables.Traces ledger h) :
    outcome = .ok (n + 1) ∧ ∃ event, Extends eventAt ledger (ledgerTables.after ledger h) [event] ∧
      IsOfAlert event a ∧ event.evaluatedAt? = some call.evaluatedAt ∧
        Carries event a call.sourceRoster ∧ newestOf (ledgerTables.after ledger h).rows a = some event := by
  obtain ⟨stamp, rest, rfl, rfl, rfl⟩ := hleads
  obtain ⟨t, ht, hle⟩ := hread
  have hanswers : ledger.Answers
    ⟨.insertEvent (transition evaluationSha256 call eventAt openedAt a), stamp⟩ := htraces.1
  have hpersisted : eventAt ≤ Stamp.persistedAt stamp := hle.trans (hanswers.2.1 t ht)
  have hwritten : TransitionIsWritten
      ((transition evaluationSha256 call eventAt openedAt a).stamped stamp) :=
    transitionIsWritten_transition haccepted hcondition hdigest ha hopened hpast hpersisted
  refine ⟨rfl, (transition evaluationSha256 call eventAt openedAt a).stamped stamp,
    ⟨rfl, hsound.insertEvent hanswers hwritten, _, rfl, hpersisted⟩, ⟨rfl, rfl⟩,
    evaluatedAt?_of_details rfl haccepted.1.evaluatedAt hcondition, ⟨rfl, rfl, rfl, rfl, rfl⟩, ?_⟩
  exact newest_concat_self hanswers.2.2.2

/-- **One assessment**: its event is appended unless the newest one carries it already, and then the
newest one carries it. -/
theorem appendTransition_spec (ha : a ∈ call.assessments) (hsound : LedgerIsSound ledger)
    (hread : ∃ t ∈ ledger.readAt, eventAt ≤ t) (hpast : call.evaluatedAt ≤ eventAt)
    (hbefore : ∀ event ∈ ledger.rows, IsOfAlert event a → Precedes call eventAt event)
    {outcome : Except EvaluationError ℕ}
    (hleads : Leads (appendTransition evaluationSha256 call eventAt n a) h outcome)
    (htraces : ledgerTables.Traces ledger h) :
    ∃ new, outcome = .ok (n + new.length) ∧
      Extends eventAt ledger (ledgerTables.after ledger h) new ∧
        (∀ event ∈ new, IsAppended call ledger.rows a event) ∧ new.Pairwise EventsDiffer ∧
          ∃ event, newestOf (ledgerTables.after ledger h).rows a = some event ∧
            Carries event a call.sourceRoster := by
  unfold appendTransition at hleads
  obtain ⟨_, h, rfl, selected, h, rfl, hleads⟩ := hleads
  obtain ⟨-, hselected, htraces⟩ := htraces
  have hnewest : (show Option AlertEvent from selected) = newestOf ledger.rows a := hselected
  change Leads (appendAfter evaluationSha256 call eventAt n a selected) h outcome at hleads
  have hinsert : ∀ {openedAt : ℤ}, openedAt ≤ eventAt →
      (∀ prior, newestOf ledger.rows a = some prior → ¬ Carries prior a call.sourceRoster) →
      Leads (insertTransition evaluationSha256 call eventAt openedAt n a) h outcome →
      ∃ new, outcome = .ok (n + new.length) ∧
        Extends eventAt ledger (ledgerTables.after ledger h) new ∧
          (∀ event ∈ new, IsAppended call ledger.rows a event) ∧ new.Pairwise EventsDiffer ∧
            ∃ event, newestOf (ledgerTables.after ledger h).rows a = some event ∧
              Carries event a call.sourceRoster := by
    intro openedAt hopened hdiffers hinsert
    obtain ⟨hok, event, hextends, halert, hevaluated, hcarries, hlast⟩ :=
      extends_insertTransition haccepted hcondition hdigest ha hsound hread hpast hopened hinsert
        htraces
    refine ⟨[event], hok, hextends, fun e he => ?_, List.pairwise_singleton _ _, event, hlast, hcarries⟩
    rw [List.mem_singleton.mp he]
    exact ⟨halert, hevaluated, hcarries, hdiffers⟩
  cases hprior : newestOf ledger.rows a with
  | none =>
    rw [hprior] at hnewest
    cases hnewest
    exact hinsert le_rfl (fun prior hsome => by rw [hprior] at hsome; cases hsome) hleads
  | some prior =>
    rw [hprior] at hnewest
    cases hnewest
    obtain ⟨hmem, hkey, hsource⟩ := of_newest hprior
    obtain ⟨hpersisted, hearlier⟩ := hbefore prior hmem ⟨hkey, hsource⟩
    have hwritten := hsound.written_of_newest hprior
    obtain ⟨evaluatedAt, hevaluated, -⟩ := hwritten.exported.evaluatedAt
    have hlt := hearlier evaluatedAt hevaluated
    -- none of the checks fails on an event that the function has written for an earlier evaluation
    simp only [appendAfter, leads_require_bind, leads_orFail_bind, hwritten.isSound hpersisted,
      Option.mem_def.mp hevaluated, Option.some.injEq, exists_eq_left', hlt.le, hlt.ne,
      false_implies, true_and, not_true, false_and, or_false, reduceCtorEq] at hleads
    by_cases hcarries : Carries prior a call.sourceRoster
    · rw [if_pos hcarries] at hleads
      obtain ⟨rfl, rfl⟩ := hleads
      exact ⟨[], rfl, ⟨(List.append_nil _).symm, hsound, hread⟩, fun e he => (by cases he), .nil,
        prior, hprior, hcarries⟩
    · rw [if_neg hcarries] at hleads
      have hopened : (if prior.status = .opened then prior.openedAt else eventAt) ≤ eventAt := by
        split_ifs
        · exact hwritten.openedAt.trans hpersisted
        · exact le_rfl
      refine hinsert hopened (fun prior' hsome => ?_) hleads
      obtain rfl := Option.some.inj (hprior.symm.trans hsome)
      exact hcarries

/-- **The loop over the assessments.**

**Proof sketch.** Induction on the assessments. The event of one is of another alert than the next
ones, for which nothing has changed; and it stays the newest of its alert. -/
theorem appendTransitions_spec (hpast : call.evaluatedAt ≤ eventAt) {l : List Assessment}
    (hl : l ⊆ call.assessments)
    (hdifferent : l.Pairwise AreOfDifferentAlerts) (hsound : LedgerIsSound ledger)
    (hread : ∃ t ∈ ledger.readAt, eventAt ≤ t)
    (hbefore : ∀ a ∈ l, ∀ event ∈ ledger.rows, IsOfAlert event a → Precedes call eventAt event)
    {outcome : Except EvaluationError ℕ}
    (hleads : Leads (l.foldlM (appendTransition evaluationSha256 call eventAt) n) h outcome)
    (htraces : ledgerTables.Traces ledger h) :
    ∃ new, outcome = .ok (n + new.length) ∧
      Extends eventAt ledger (ledgerTables.after ledger h) new ∧
        (∀ event ∈ new, ∃ a ∈ l, IsAppended call ledger.rows a event) ∧ new.Pairwise EventsDiffer ∧
          ∀ a ∈ l, ∃ event, newestOf (ledgerTables.after ledger h).rows a = some event ∧
            Carries event a call.sourceRoster := by
  induction l generalizing ledger n h with
  | nil =>
    obtain ⟨rfl, rfl⟩ := hleads
    exact ⟨[], rfl, ⟨(List.append_nil _).symm, hsound, hread⟩, fun e he => (by cases he), .nil,
      fun a ha => (by cases ha)⟩
  | cons a l ih =>
    obtain ⟨hhead, htail⟩ := List.pairwise_cons.mp hdifferent
    obtain ⟨ha, hl⟩ := List.cons_subset.mp hl
    have hspec := fun {h} {outcome : Except EvaluationError ℕ}
        (hleads : Leads (appendTransition evaluationSha256 call eventAt n a) h outcome) =>
      appendTransition_spec haccepted hcondition hdigest ha hsound hread hpast
        (hbefore a List.mem_cons_self) hleads
    rw [List.foldlM_cons] at hleads
    rcases leads_bind.mp hleads with ⟨e, herror, -⟩ | ⟨first, m, second, rfl, hfirst, hsecond⟩
    · obtain ⟨new, hok, -⟩ := hspec herror htraces
      cases hok
    · rw [Tables.traces_append] at htraces
      obtain ⟨new, hok, hextends, happended, hdiffer, event, hnewest, hcarries⟩ :=
        hspec hfirst htraces.1
      cases hok
      have hbefore' : ∀ b ∈ l, ∀ event ∈ (ledgerTables.after ledger first).rows,
          IsOfAlert event b → Precedes call eventAt event := by
        intro b hb event hevent hof
        rw [hextends.rows] at hevent
        rcases List.mem_append.mp hevent with hold | hnew
        · exact hbefore b (List.mem_cons_of_mem _ hb) event hold hof
        · exact absurd hof ((happended event hnew).alert.ne (hhead b hb))
      obtain ⟨new', hok', hextends', happended', hdiffer', hcarries'⟩ :=
        ih hl htail hextends.sound hextends.read hbefore' hsecond htraces.2
      rw [Tables.after_append]
      refine ⟨new ++ new', ?_, ⟨?_, hextends'.sound, hextends'.read⟩, ?_, ?_, ?_⟩
      · rw [hok', List.length_append, Nat.add_assoc]
      · rw [hextends'.rows, hextends.rows, List.append_assoc]
      · intro event hevent
        rcases List.mem_append.mp hevent with hnew | hnew
        · exact ⟨a, List.mem_cons_self, happended event hnew⟩
        · obtain ⟨b, hb, happend⟩ := happended' event hnew
          refine ⟨b, List.mem_cons_of_mem _ hb, happend.alert, happend.evaluatedAt,
            happend.carries, ?_⟩
          rw [← hextends.newestOf_eq fun e he => (happended e he).alert.ne (hhead b hb)]
          exact happend.differs
      · refine List.pairwise_append.mpr ⟨hdiffer, hdiffer', fun e he f hf heq => ?_⟩
        obtain ⟨b, hb, happend⟩ := happended' f hf
        exact (happended e he).alert.ne (hhead b hb)
          ⟨heq.1.trans happend.alert.1, heq.2.trans happend.alert.2⟩
      · intro b hb
        rcases List.mem_cons.mp hb with rfl | hb
        · refine ⟨event, ?_, hcarries⟩
          rw [hextends'.newestOf_eq fun e he => ?_]
          · exact hnewest
          · obtain ⟨c, hc, happend⟩ := happended' e he
            exact happend.alert.ne (hhead c hc).symm
        · exact hcarries' b hb

end

end Loop

/-! ### The order of the assessments -/

/-- All alert keys. -/
theorem mem_keys (key : AlertKey) : key ∈ globalKeys ++ sourceKeys := by
  cases key <;> decide

theorem text_injective : Function.Injective AlertKey.text := by
  have hnodup : ((globalKeys ++ sourceKeys).map AlertKey.text).Nodup := by decide
  intro a b h
  exact List.inj_on_of_nodup_map hnodup (mem_keys a) (mem_keys b) h

/-- The order of the assessments: by key, then by source. -/
def compareAssessments : Assessment → Assessment → Ordering :=
  compareLex (Sorting.on (fun a => a.alertKey.text) compareText)
    (Sorting.on (fun a => a.sourceId.getD []) compareText)

instance : Std.TransCmp compareAssessments :=
  inferInstanceAs (Std.TransCmp (compareLex (Sorting.on _ compareText) (Sorting.on _ compareText)))

instance : Trans (fun a b => compareAssessments a b = .lt) (fun a b => compareAssessments a b = .lt)
    (fun a b => compareAssessments a b = .lt) :=
  ⟨fun h h' => Std.TransCmp.lt_trans h h'⟩

/-- What follows in the matrix follows in the canonical order. -/
theorem compareAssessments_of_follows {a b : Assessment} (h : Follows a b) :
    compareAssessments a b = .lt := by
  obtain ⟨hkey, hsource⟩ := not_or.mp h
  by_cases heq : a.alertKey = b.alertKey
  · have hlt := not_not.mp fun hne => hsource ⟨heq, hne⟩
    have hself : compareText a.alertKey.text b.alertKey.text = .eq :=
      compareText_eq_iff.mpr (congrArg _ heq)
    show (compareText _ _).then (compareText _ _) = .lt
    rw [hself]
    exact hlt
  · have hne : compareText a.alertKey.text b.alertKey.text ≠ .eq :=
      fun h => heq (text_injective (compareText_eq_iff.mp h))
    show (compareText _ _).then (compareText _ _) = .lt
    cases hcompare : compareText a.alertKey.text b.alertKey.text with
    | lt => rfl
    | eq => exact absurd hcompare hne
    | gt => exact absurd hcompare hkey

/-- **The assessments of an accepted call are of different alerts.** -/
theorem MatrixAccepted.differ {call : EvaluationArguments} (h : MatrixAccepted call) :
    call.assessments.Pairwise AreOfDifferentAlerts := by
  have hchain : call.assessments.IsChain fun a b => compareAssessments a b = .lt :=
    h.sorted.imp fun a b => compareAssessments_of_follows
  refine (List.isChain_iff_pairwise.mp hchain).imp fun {a b} hlt heq => ?_
  have hself : compareAssessments a b = .eq := by
    show (compareText a.alertKey.text b.alertKey.text).then
      (compareText (a.sourceId.getD []) (b.sourceId.getD [])) = .eq
    rw [heq.1, heq.2, compareText_eq_iff.mpr rfl, compareText_eq_iff.mpr rfl]
    rfl
  rw [hself] at hlt
  cases hlt

/-! ### One call -/

section Call

variable {sha256 : JsString → JsString} {evaluationSha256 : EvaluationArguments → JsString}
  {call last : EvaluationArguments} {eventAt : ℤ} {ledger : Ledger} {h : History Query Answer}
  {returned : Receipt}

/-- **The ledger after a call**: its newest checkpoint is that of the call, no event was evaluated
later, and the newest event of each alert carries its assessment. -/
structure IsAfter (sha256 : JsString → JsString) (evaluationSha256 : EvaluationArguments → JsString)
    (ledger : Ledger) (last : EvaluationArguments) (returned : Receipt) : Prop where
  accepted : ArgumentsAccepted sha256 last
  condition : MeetsCondition last
  read : ∃ t ∈ ledger.readAt, last.evaluatedAt ≤ t
  evaluated : ∀ event ∈ ledger.rows, ∀ t ∈ event.evaluatedAt?, t ≤ last.evaluatedAt
  checkpoint : ∃ event appended, newest ledger.rows .evaluationCheckpoint none = some event ∧
    event.evaluatedAt? = some last.evaluatedAt ∧ IsCheckpointOf evaluationSha256 last event ∧
      returned = receipt evaluationSha256 last appended event.persistedAt
  carries : ∀ a ∈ last.assessments, ∃ event, newestOf ledger.rows a = some event ∧
    Carries event a last.sourceRoster

/-- What a call that writes a checkpoint has done. -/
structure HasAppended (call : EvaluationArguments) (rows rows' : List AlertEvent)
    (returned : Receipt) : Prop where
  rows : ∃ new event, rows' = rows ++ (new ++ [event]) ∧
    event.alertKey = .evaluationCheckpoint ∧ new.length = returned.appendedCount ∧
      (∀ event ∈ new, ∃ a ∈ call.assessments, IsAppended call rows a event) ∧
        new.Pairwise EventsDiffer

/-- **The loop and the checkpoint.** -/
theorem appendAll_spec (haccepted : ArgumentsAccepted sha256 call)
    (hcondition : MeetsCondition call) (hdigest : Sha256Schema (evaluationSha256 call))
    (hpast : call.evaluatedAt ≤ eventAt) (hsound : LedgerIsSound ledger)
    (hread : ∃ t ∈ ledger.readAt, eventAt ≤ t)
    (hbefore : ∀ event ∈ ledger.rows, Precedes call eventAt event)
    {outcome : Except EvaluationError Receipt}
    (hleads : Leads (appendAll evaluationSha256 call eventAt) h outcome)
    (htraces : ledgerTables.Traces ledger h) :
    ∃ returned, outcome = .ok returned ∧ LedgerIsSound (ledgerTables.after ledger h) ∧
      IsAfter sha256 evaluationSha256 (ledgerTables.after ledger h) call returned ∧
        HasAppended call ledger.rows (ledgerTables.after ledger h).rows returned := by
  have hspec := fun {h} {outcome : Except EvaluationError ℕ}
      (hleads : Leads (call.assessments.foldlM (appendTransition evaluationSha256 call eventAt) 0) h
        outcome) =>
    appendTransitions_spec haccepted hcondition hdigest hpast (List.Subset.refl _)
      haccepted.2.differ hsound hread (fun a _ event hevent _ => hbefore event hevent) hleads
  unfold appendAll at hleads
  rcases leads_bind.mp hleads with ⟨e, herror, -⟩ | ⟨first, n, second, rfl, hfirst, hsecond⟩
  · obtain ⟨new, hok, -⟩ := hspec herror htraces
    cases hok
  · rw [Tables.traces_append] at htraces
    obtain ⟨new, hok, hextends, happended, hdiffer, hcarries⟩ := hspec hfirst htraces.1
    cases hok
    obtain ⟨stamp, rest, rfl, rfl, rfl⟩ := hsecond
    rw [Tables.after_append]
    obtain ⟨t, ht, hle⟩ := hextends.read
    have hanswers : (ledgerTables.after ledger first).Answers
      ⟨.insertEvent (checkpoint evaluationSha256 call eventAt), stamp⟩ := htraces.2.1
    have hpersisted : eventAt ≤ Stamp.persistedAt stamp := hle.trans (hanswers.2.1 t ht)
    have hwritten : CheckpointIsSound ((checkpoint evaluationSha256 call eventAt).stamped stamp) :=
      checkpointIsSound_checkpoint haccepted hcondition hdigest hpast hpersisted
    have hevaluated : ((checkpoint evaluationSha256 call eventAt).stamped stamp).evaluatedAt? =
        some call.evaluatedAt := evaluatedAt?_of_details rfl haccepted.1.evaluatedAt hcondition
    refine ⟨_, rfl, hextends.sound.insertEvent hanswers hwritten, ⟨haccepted, hcondition,
      ⟨_, rfl, hpast.trans hpersisted⟩, ?_, ⟨(checkpoint evaluationSha256 call eventAt).stamped stamp,
        0 + new.length, newest_concat_self hanswers.2.2.2, hevaluated, ⟨rfl, rfl, rfl⟩, rfl⟩, ?_⟩, ?_⟩
    · intro event hevent u hu
      rcases List.mem_append.mp hevent with hold | hlast
      · rw [hextends.rows] at hold
        rcases List.mem_append.mp hold with hold | hnew
        · exact ((hbefore event hold).2 u hu).le
        · obtain ⟨a, -, happend⟩ := happended event hnew
          exact le_of_eq (Option.some.inj ((Option.mem_def.mp hu).symm.trans happend.evaluatedAt))
      · rw [List.mem_singleton.mp hlast] at hu
        exact le_of_eq (Option.some.inj ((Option.mem_def.mp hu).symm.trans hevaluated))
    · intro a ha
      obtain ⟨event, hnewest, hcarry⟩ := hcarries a ha
      refine ⟨event, ?_, hcarry⟩
      rw [← hnewest]
      refine newest_append_of_ne fun e he heq => ?_
      rw [List.mem_singleton.mp he] at heq
      cases heq.1
    · refine ⟨⟨new, (checkpoint evaluationSha256 call eventAt).stamped stamp, ?_, rfl,
        (Nat.zero_add _).symm, happended, hdiffer⟩⟩
      rw [← List.append_assoc, ← hextends.rows]
      rfl

/-- The last call of a ledger and what it returned, or none where nothing is written yet. -/
def IsLast (sha256 : JsString → JsString) (evaluationSha256 : EvaluationArguments → JsString)
    (ledger : Ledger) : Option (EvaluationArguments × Receipt) → Prop
  | none => ledger.rows = []
  | some last => IsAfter sha256 evaluationSha256 ledger last.1 last.2

/-- **What a call that returns has done**: it is not of an earlier instant than the last one, and
has appended what differs and a checkpoint; or it repeats the last one and has appended nothing. -/
structure CallHolds (sha256 : JsString → JsString) (evaluationSha256 : EvaluationArguments → JsString)
    (rows : List AlertEvent) (ledger' : Ledger) (last : Option (EvaluationArguments × Receipt))
    (call : EvaluationArguments) (returned : Receipt) : Prop where
  sound : LedgerIsSound ledger'
  after : IsAfter sha256 evaluationSha256 ledger' call returned
  later : ∀ l ∈ last, l.1.evaluatedAt ≤ call.evaluatedAt
  appended : (HasAppended call rows ledger'.rows returned ∧ ∀ l ∈ last, l.1 ≠ call) ∨
    ∃ l ∈ last, l.1 = call ∧ ledger'.rows = rows ∧ returned = { l.2 with appendedCount := 0 }

/-- How a call may fail: by its arguments and its clock, not by what is stored. -/
def MayFail (last : Option (EvaluationArguments × Receipt)) (call : EvaluationArguments)
    (e : EvaluationError) : Prop :=
  e ∈ [EvaluationError.invalidArguments, .unknownSource, .futureDated, .olderThanCheckpoint,
    .replayConflicts] ∧ ∀ l ∈ last, l.1 = call → e = .unknownSource

/-- How a call ends. -/
def Ends (sha256 : JsString → JsString) (evaluationSha256 : EvaluationArguments → JsString)
    (rows : List AlertEvent) (ledger' : Ledger) (last : Option (EvaluationArguments × Receipt))
    (call : EvaluationArguments) : Except EvaluationError Receipt → Prop
  | .ok returned => CallHolds sha256 evaluationSha256 rows ledger' last call returned
  | .error e => MayFail last call e

/-- Reading the clock leaves what the last call wrote. -/
theorem IsAfter.clockTimestamp (hafter : IsAfter sha256 evaluationSha256 ledger last returned)
    {reading : ℤ} (hby : ledger.IsBy reading) :
    IsAfter sha256 evaluationSha256 { ledger with readAt := some reading } last returned where
  accepted := hafter.accepted
  condition := hafter.condition
  read := by
    obtain ⟨t, ht, hle⟩ := hafter.read
    exact ⟨reading, rfl, hle.trans (hby t ht)⟩
  evaluated := hafter.evaluated
  checkpoint := hafter.checkpoint
  carries := hafter.carries

/-- **What a call does under the lock.** -/
theorem evaluate_spec {rows : List AlertEvent} {previous : Option (EvaluationArguments × Receipt)}
    (haccepted : ArgumentsAccepted sha256 call)
    (hcondition : MeetsCondition call) (hdigest : Sha256Schema (evaluationSha256 call))
    (hsound : LedgerIsSound ⟨rows, some eventAt⟩)
    (hlast : IsLast sha256 evaluationSha256 ⟨rows, some eventAt⟩ previous)
    (htold : ∀ l ∈ previous, evaluationSha256 l.1 = evaluationSha256 call → l.1 = call)
    {outcome : Except EvaluationError Receipt}
    (hleads : Leads (evaluate evaluationSha256 call eventAt) h outcome)
    (htraces : ledgerTables.Traces ⟨rows, some eventAt⟩ h) :
    Ends sha256 evaluationSha256 rows (ledgerTables.after ⟨rows, some eventAt⟩ h)
      previous call outcome := by
  rw [evaluate, leads_require_bind] at hleads
  rcases hleads with ⟨hpast, hleads⟩ | ⟨hfuture, rfl, rfl⟩
  · obtain ⟨selected, h, rfl, hleads⟩ := hleads
    obtain ⟨hselected, htraces⟩ := htraces
    change Leads (evaluateAfter evaluationSha256 call eventAt selected) h outcome at hleads
    change selected = newest rows .evaluationCheckpoint none at hselected
    have hall : (∀ event ∈ rows, ∀ t ∈ event.evaluatedAt?, t < call.evaluatedAt) →
        (∀ l ∈ previous, l.1.evaluatedAt ≤ call.evaluatedAt ∧ l.1 ≠ call) →
        Leads (appendAll evaluationSha256 call eventAt) h outcome →
        Ends sha256 evaluationSha256 rows
          (ledgerTables.after ⟨rows, some eventAt⟩ h) previous call outcome := by
      intro hearlier hlater happend
      obtain ⟨returned, rfl, hsound', hafter, happended⟩ := appendAll_spec haccepted hcondition
        hdigest hpast hsound ⟨_, rfl, le_rfl⟩ (fun event hevent => ⟨hsound.persistedAt_le
          (fun t ht => le_of_eq (Option.some.inj ht).symm) hevent, hearlier event hevent⟩) happend
        htraces
      exact ⟨hsound', hafter, fun l hl => (hlater l hl).1,
        .inl ⟨happended, fun l hl => (hlater l hl).2⟩⟩
    cases previous with
    | none =>
      have hempty : rows = [] := hlast
      have hnone : newest rows .evaluationCheckpoint none = none := by
        rw [hempty]
        rfl
      rw [hnone] at hselected
      subst hselected
      exact hall (fun event hevent => by rw [hempty] at hevent; cases hevent)
        (fun l hl => by cases hl) hleads
    | some l =>
      obtain ⟨event, appended, hnewest, hevaluated, hcheckpoint, hreturned⟩ := hlast.checkpoint
      have hwritten := hsound.checkpoint_of_newest hnewest
      rw [hnewest] at hselected
      subst hselected
      simp only [evaluateAfter, leads_require_bind, leads_orFail_bind, hwritten, hevaluated,
        Option.some.injEq, exists_eq_left', true_and, not_true, false_and, or_false,
        reduceCtorEq] at hleads
      rcases hleads with ⟨hle, hleads⟩ | ⟨hlater, rfl, rfl⟩
      · by_cases heq : l.1.evaluatedAt = call.evaluatedAt
        · rw [if_pos heq, leads_require_bind] at hleads
          rcases hleads with ⟨hof, rfl, rfl⟩ | ⟨hnot, rfl, rfl⟩
          · -- a replay
            obtain ⟨lastCall, receipt⟩ := l
            obtain rfl : lastCall = call := htold _ rfl (hcheckpoint.1.symm.trans hof.1)
            refine ⟨hsound, ⟨haccepted, hcondition, ⟨_, rfl, hpast⟩, hlast.evaluated,
              ⟨event, 0, hnewest, hevaluated, hof, rfl⟩, hlast.carries⟩, fun l' hl' => ?_,
              .inr ⟨_, rfl, rfl, rfl, by rw [hreturned]; rfl⟩⟩
            cases hl'
            exact hle
          · refine ⟨by decide, fun l' hl' hcall => absurd ?_ hnot⟩
            cases hl'
            rw [← hcall]
            exact hcheckpoint
        · rw [if_neg heq] at hleads
          have hlt : l.1.evaluatedAt < call.evaluatedAt := lt_of_le_of_ne hle heq
          refine hall (fun event hevent t ht => (hlast.evaluated event hevent t ht).trans_lt hlt)
            (fun l' hl' => ?_) hleads
          cases hl'
          exact ⟨hle, fun hcall => heq (by rw [hcall])⟩
      · refine ⟨by decide, fun l' hl' hcall => absurd ?_ hlater⟩
        cases hl'
        rw [hcall]
  · refine ⟨by decide, fun l hl hcall => absurd ?_ hfuture⟩
    obtain rfl := Option.mem_def.mp hl
    obtain ⟨t, ht, hle⟩ := hlast.read
    cases ht
    rw [← hcall]
    exact hle

/-- **What a call does.** -/
theorem append_spec {previous : Option (EvaluationArguments × Receipt)}
    (hcondition : MeetsCondition call) (hdigest : Sha256Schema (evaluationSha256 call))
    (hsound : LedgerIsSound ledger) (hlast : IsLast sha256 evaluationSha256 ledger previous)
    (htold : ∀ l ∈ previous, evaluationSha256 l.1 = evaluationSha256 call → l.1 = call)
    {outcome : Except EvaluationError Receipt}
    (hleads : Leads (append sha256 evaluationSha256 call) h outcome)
    (htraces : ledgerTables.Traces ledger h) :
    Ends sha256 evaluationSha256 ledger.rows (ledgerTables.after ledger h) previous call outcome := by
  have hrefused : ∀ l ∈ previous, l.1 = call → ArgumentsAccepted sha256 call := by
    intro l hl hcall
    obtain rfl := Option.mem_def.mp hl
    rw [← hcall]
    exact hlast.accepted
  rw [append, leads_require_bind] at hleads
  rcases hleads with ⟨hroster, stored, h, rfl, hleads⟩ | ⟨hroster, rfl, rfl⟩
  · have hstored := (leads_require_bind
      (p := (show ℕ from stored) = call.sourceRoster.sourceIds.length)).mp hleads
    clear hleads
    rcases hstored with ⟨-, hleads⟩ | ⟨-, rfl, rfl⟩
    · rw [leads_require_bind] at hleads
      rcases hleads with ⟨hmatrix, _, h, rfl, eventAt, h, rfl, hleads⟩ | ⟨hmatrix, rfl, rfl⟩
      · obtain ⟨-, -, hby, htraces⟩ := htraces
        change Leads (evaluate evaluationSha256 call eventAt) h outcome at hleads
        have hlast' : IsLast sha256 evaluationSha256 ⟨ledger.rows, some eventAt⟩ previous := by
          cases previous with
          | none => exact hlast
          | some l => exact hlast.clockTimestamp hby
        exact evaluate_spec ⟨hroster, hmatrix⟩ hcondition hdigest (hsound.clockTimestamp hby) hlast'
          htold hleads htraces
      · exact ⟨by decide, fun l hl hcall => absurd (hrefused l hl hcall).2 hmatrix⟩
    · exact ⟨by decide, fun l hl hcall => rfl⟩
  · exact ⟨by decide, fun l hl hcall => absurd (hrefused l hl hcall).1 hroster⟩

end Call

/-! ### Committed calls -/

section Run

variable {sha256 : JsString → JsString} {evaluationSha256 : EvaluationArguments → JsString}

/-- The last of some committed calls, and what it returned. -/
def lastOf (committed : List CommittedCall) : Option (EvaluationArguments × Receipt) :=
  committed.getLast?.map fun t => (t.call, t.result)

/-- Evaluations of some calls have different digests. -/
def AreToldApart (evaluationSha256 : EvaluationArguments → JsString)
    (calls : Set EvaluationArguments) : Prop :=
  Set.InjOn evaluationSha256 calls

/-- What is promised of committed calls. -/
structure CallsAreGiven (sha256 : JsString → JsString)
    (evaluationSha256 : EvaluationArguments → JsString) (calls : Set EvaluationArguments)
    (committed : List CommittedCall) : Prop where
  traces : ledgerTables.Traces .empty (logOf committed)
  leads : ∀ t ∈ committed, Leads (append sha256 evaluationSha256 t.call) t.history (.ok t.result)
  condition : ∀ t ∈ committed, MeetsCondition t.call ∧ t.call ∈ calls

theorem CallsAreGiven.of_append {calls : Set EvaluationArguments}
    {committed rest : List CommittedCall}
    (h : CallsAreGiven sha256 evaluationSha256 calls (committed ++ rest)) :
    CallsAreGiven sha256 evaluationSha256 calls committed := by
  refine ⟨?_, fun t ht => h.leads t (List.mem_append_left _ ht),
    fun t ht => h.condition t (List.mem_append_left _ ht)⟩
  have htraces := h.traces
  rw [logOf, List.flatMap_append, Tables.traces_append] at htraces
  exact htraces.1

/-- **A committed call, and what it leaves.**

**Proof sketch.** Induction on the calls, from the last one. -/
theorem isLast_of_committed {calls : Set EvaluationArguments}
    (hdigest : ∀ call, Sha256Schema (evaluationSha256 call))
    (htold : AreToldApart evaluationSha256 calls) {committed : List CommittedCall}
    (h : CallsAreGiven sha256 evaluationSha256 calls committed) :
    (LedgerIsSound (ledgerOf committed) ∧
      IsLast sha256 evaluationSha256 (ledgerOf committed) (lastOf committed)) ∧
        ∀ before t, committed = before ++ [t] → CallHolds sha256 evaluationSha256
          (ledgerOf before).rows (ledgerOf committed) (lastOf before) t.call t.result := by
  induction committed using List.reverseRecOn with
  | nil =>
    refine ⟨⟨ledgerIsSound_empty, rfl⟩, fun before t heq => ?_⟩
    cases before <;> cases heq
  | append_singleton committed t ih =>
    obtain ⟨⟨hsound, hlast⟩, -⟩ := ih h.of_append
    have hmem : t ∈ committed ++ [t] := List.mem_append_right _ (List.mem_singleton_self t)
    obtain ⟨hcondition, hcall⟩ := h.condition t hmem
    have hledger : ledgerOf (committed ++ [t]) = ledgerTables.after (ledgerOf committed) t.history := by
      rw [ledgerOf, logOf_append, Tables.after_append, ledgerOf]
    have htraces := h.traces
    rw [logOf_append, Tables.traces_append] at htraces
    have hapart : ∀ l ∈ lastOf committed, evaluationSha256 l.1 = evaluationSha256 t.call →
        l.1 = t.call := by
      intro l hl heq
      obtain ⟨other, hother, rfl⟩ := Option.map_eq_some_iff.mp hl
      have hother := List.mem_append_left [t] (List.mem_of_getLast? hother)
      exact htold (h.condition other hother).2 hcall heq
    have hends : CallHolds sha256 evaluationSha256 (ledgerOf committed).rows
        (ledgerTables.after (ledgerOf committed) t.history) (lastOf committed) t.call t.result :=
      append_spec hcondition (hdigest _) hsound hlast hapart (h.leads t hmem) htraces.2
    rw [← hledger] at hends
    refine ⟨⟨hends.sound, ?_⟩, fun before t' heq => ?_⟩
    · have hlastOf : lastOf (committed ++ [t]) = some (t.call, t.result) := by
        rw [lastOf, List.getLast?_append, List.getLast?_singleton, Option.some_or, Option.map_some]
      rw [hlastOf]
      exact hends.after
    · obtain ⟨rfl, hsame⟩ := List.append_inj' heq rfl
      obtain rfl := List.head_eq_of_cons_eq hsame
      exact hends

end Run

/-! ### The export -/

section Export

variable {rows : List AlertEvent} {afterEventId limit : ℕ}

/-- Whether an event is a transition after some event. -/
def IsLater (afterEventId : ℕ) (event : AlertEvent) : Prop :=
  afterEventId < event.id ∧ event.alertKey ≠ .evaluationCheckpoint

instance (afterEventId : ℕ) : DecidablePred (IsLater afterEventId) :=
  fun _ => inferInstanceAs (Decidable (_ ∧ _))

section

variable (hids : rows.Pairwise fun a b => a.id < b.id)

include hids

/-- The rows of a sound ledger are in order. -/
theorem transitionsAfter_eq :
    transitionsAfter rows afterEventId = rows.filter fun event => IsLater afterEventId event := by
  refine sortBy_of_pairwise ((hids.filter _).imp fun hlt => ?_)
  simp only [compareOn, compare_lt_iff_lt.mpr hlt]
  rfl

theorem pairwise_transitionsAfter :
    (transitionsAfter rows afterEventId).Pairwise fun a b => a.id < b.id := by
  rw [transitionsAfter_eq hids]
  exact hids.filter _

/-- **A page of the export** of a sound ledger. -/
theorem readBatch_eq (hwritten : ∀ event ∈ rows, EventIsWritten event)
    (hlimit : 1 ≤ limit ∧ limit ≤ 100) :
    readBatch rows afterEventId limit = some
      { events := (transitionsAfter rows afterEventId).take limit
        hasMore := limit < (transitionsAfter rows afterEventId).length
        nextEventId := ((transitionsAfter rows afterEventId).take limit).getLast?.map
          fun event => event.id } := by
  have hsound : ∀ event ∈ (transitionsAfter rows afterEventId).take (limit + 1),
      ExportIsSound event := by
    intro event hevent
    have hmem := List.mem_of_mem_take hevent
    rw [transitionsAfter_eq hids] at hmem
    obtain ⟨hrow, hlater⟩ := List.mem_filter.mp hmem
    have hkey := (of_decide_eq_true hlater).2
    have hevent := hwritten event hrow
    rw [EventIsWritten] at hevent
    cases halert : event.alertKey with
    | evaluationCheckpoint => exact absurd halert hkey
    | alert key =>
      rw [halert] at hevent
      exact hevent.exported
  have htake : ((transitionsAfter rows afterEventId).take (limit + 1)).take limit =
      (transitionsAfter rows afterEventId).take limit := by
    rw [List.take_take, min_eq_left (Nat.le_succ limit)]
  have hmore : (limit < ((transitionsAfter rows afterEventId).take (limit + 1)).length) ↔
      limit < (transitionsAfter rows afterEventId).length := by
    rw [List.length_take]
    omega
  unfold readBatch exportRows
  rw [if_neg (not_not.mpr hlimit)]
  dsimp only
  rw [if_pos hsound, Option.map_some, htake]
  simp only [hmore]

end

/-- What follows an event of an ascending list has the greater numbers. -/
theorem filter_gt_of_pairwise {before after : List AlertEvent} {event : AlertEvent}
    (h : (before ++ event :: after).Pairwise fun a b => a.id < b.id) :
    ((before ++ event :: after).filter fun other => event.id < other.id) = after := by
  obtain ⟨-, htail, hcross⟩ := List.pairwise_append.mp h
  obtain ⟨hafter, -⟩ := List.pairwise_cons.mp htail
  have hbefore : before.filter (fun other => event.id < other.id) = [] :=
    List.filter_eq_nil_iff.mpr fun other hother hlt =>
      absurd (hcross other hother event List.mem_cons_self) (not_lt.mpr (of_decide_eq_true hlt).le)
  rw [List.filter_append, hbefore, List.nil_append, List.filter_cons_of_neg (by simp)]
  exact List.filter_eq_self.mpr fun other hother => decide_eq_true (hafter other hother)

/-- **Reading goes on after a page**: what is later than its last event is what it has not shown. -/
theorem transitionsAfter_next (hids : rows.Pairwise fun a b => a.id < b.id)
    {page rest : List AlertEvent} (hpage : transitionsAfter rows afterEventId = page ++ rest) :
    transitionsAfter rows ((page.getLast?.map fun event => event.id).getD afterEventId) = rest := by
  rcases List.eq_nil_or_concat page with rfl | ⟨before, event, rfl⟩
  · exact hpage
  · rw [List.concat_eq_append] at hpage ⊢
    have hlast : ((before ++ [event]).getLast?.map fun event => event.id).getD afterEventId =
        event.id := by
      rw [List.getLast?_append, List.getLast?_singleton, Option.some_or, Option.map_some,
        Option.getD_some]
    have hascending := @pairwise_transitionsAfter rows afterEventId hids
    rw [hpage, List.append_assoc, List.singleton_append] at hascending
    have hmem : event ∈ transitionsAfter rows afterEventId := by
      rw [hpage]
      simp
    rw [transitionsAfter_eq hids] at hmem hpage
    have hlater : afterEventId < event.id := (of_decide_eq_true (List.mem_filter.mp hmem).2).1
    have hfilter := filter_gt_of_pairwise hascending
    rw [List.append_assoc, List.singleton_append] at hpage
    rw [← hpage, List.filter_filter] at hfilter
    rw [hlast, transitionsAfter_eq hids, ← hfilter]
    refine List.filter_congr fun other _ => ?_
    by_cases hgt : event.id < other.id
    · simp [IsLater, hgt, hlater.trans hgt]
    · simp [IsLater, hgt]

/-- The batches that are read page by page, each from the rows at its time and after the last event
of the one before it. -/
def readPages (limit : ℕ) : List (List AlertEvent) → ℕ → Option (List ExportBatch)
  | [], _ => some []
  | rows :: later, afterEventId =>
    (readBatch rows afterEventId limit).bind fun batch =>
      (readPages limit later (batch.nextEventId.getD afterEventId)).map (batch :: ·)

/-- **What is read page by page**: each later transition once and in order, up to what is not read
yet; nothing is left when the last page says so, and a page that says otherwise is full. -/
structure ReadsInOrder (limit : ℕ) (rows : List AlertEvent) (afterEventId : ℕ)
    (batches : List ExportBatch) : Prop where
  events : ∃ rest, transitionsAfter rows afterEventId =
    (batches.flatMap fun batch => batch.events) ++ rest ∧
      ∀ batch ∈ batches.getLast?, batch.hasMore = false → rest = []
  full : ∀ batch ∈ batches, batch.hasMore = true → batch.events.length = limit

/-- Rows that were inserted later come later. -/
theorem transitionsAfter_append {new : List AlertEvent}
    (hids : (rows ++ new).Pairwise fun a b => a.id < b.id) :
    transitionsAfter (rows ++ new) afterEventId =
      transitionsAfter rows afterEventId ++ new.filter fun event => IsLater afterEventId event := by
  rw [transitionsAfter_eq hids, transitionsAfter_eq (List.pairwise_append.mp hids).1,
    List.filter_append]

/-- **Reading page by page** rows that only grow.

**Proof sketch.** Induction on the pages. What the rows at the last page have after the page is the
rest of the first page's transitions, and those that were inserted since. -/
theorem readPages_spec (hlimit : 1 ≤ limit ∧ limit ≤ 100) {pages : List (List AlertEvent)}
    (hids : ∀ rows ∈ pages, rows.Pairwise fun a b => a.id < b.id)
    (hwritten : ∀ rows ∈ pages, ∀ event ∈ rows, EventIsWritten event)
    (hgrows : pages.Pairwise fun earlier later => earlier <+: later)
    (hlast : pages.getLast? = some rows) :
    ∃ batches, readPages limit pages afterEventId = some batches ∧
      ReadsInOrder limit rows afterEventId batches := by
  induction pages generalizing afterEventId with
  | nil => cases hlast
  | cons first pages ih =>
    have hfirst := @readBatch_eq first afterEventId limit (hids first List.mem_cons_self)
      (hwritten first List.mem_cons_self) hlimit
    have hfull : limit < (transitionsAfter first afterEventId).length →
        ((transitionsAfter first afterEventId).take limit).length = limit := by
      intro hlt
      rw [List.length_take, min_eq_left hlt.le]
    rw [readPages, hfirst, Option.bind_some]
    cases pages with
    | nil =>
      cases hlast
      refine ⟨_, rfl, ⟨(transitionsAfter first afterEventId).drop limit, ?_, ?_⟩, ?_⟩
      · simp
      · intro batch hbatch hmore
        cases hbatch
        exact List.drop_eq_nil_of_le (not_lt.mp (of_decide_eq_false hmore))
      · intro batch hbatch hmore
        rw [List.mem_singleton.mp hbatch] at hmore ⊢
        exact hfull (of_decide_eq_true hmore)
    | cons second pages =>
      obtain ⟨hle, hrest⟩ := List.pairwise_cons.mp hgrows
      obtain ⟨batches, hread, ⟨rest, hevents, hnone⟩, hallFull⟩ :=
        @ih ((((transitionsAfter first afterEventId).take limit).getLast?.map
            fun event => event.id).getD afterEventId)
          (fun rows hrows => hids rows (List.mem_cons_of_mem _ hrows))
          (fun rows hrows => hwritten rows (List.mem_cons_of_mem _ hrows)) hrest
          (by rwa [List.getLast?_cons_cons] at hlast)
      have hmem : rows ∈ second :: pages := by
        rw [List.getLast?_cons_cons] at hlast
        exact List.mem_of_getLast? hlast
      obtain ⟨new, rfl⟩ := hle rows hmem
      have hids' := hids _ (List.mem_cons_of_mem _ hmem)
      have hsplit : transitionsAfter (first ++ new) afterEventId =
          (transitionsAfter first afterEventId).take limit ++
            ((transitionsAfter first afterEventId).drop limit ++
              new.filter fun event => IsLater afterEventId event) := by
        rw [transitionsAfter_append hids', ← List.append_assoc, List.take_append_drop]
      rw [transitionsAfter_next hids' hsplit] at hevents
      refine ⟨_, by rw [hread]; rfl, ⟨rest, ?_, ?_⟩, ?_⟩
      · rw [hsplit, hevents, List.flatMap_cons, List.append_assoc]
      · intro batch hbatch
        cases batches with
        | nil =>
          -- there is a second page
          rw [readPages, Option.bind_eq_some_iff] at hread
          obtain ⟨batch', -, hmap⟩ := hread
          obtain ⟨others, -, hcons⟩ := Option.map_eq_some_iff.mp hmap
          cases hcons
        | cons other others =>
          rw [List.getLast?_cons_cons] at hbatch
          exact hnone batch hbatch
      · intro batch hbatch hmore
        rcases List.mem_cons.mp hbatch with rfl | hbatch
        · exact hfull (of_decide_eq_true hmore)
        · exact hallFull batch hbatch hmore

end Export

/-! ### Reachable states -/

section Reachable

variable {sha256 : JsString → JsString} {evaluationSha256 : EvaluationArguments → JsString}
  {hash : LockHash} {st : LedgerState}

/-- Whether a step may happen: a call that begins meets the condition. -/
def MayHappen (_ : LedgerState) : Step ℕ EvaluationArguments Query Answer → Prop
  | .begins _ call => MeetsCondition call
  | _ => True

instance : ∀ st e, Decidable (MayHappen st e)
  | _, .begins _ call => inferInstanceAs (Decidable (MeetsCondition call))
  | _, .elapses _ => .isTrue trivial
  | _, .proceeds _ _ => .isTrue trivial
  | _, .aborts _ => .isTrue trivial

/-- Events are only added. -/
theorem exists_rows_after (ledger : Ledger) (h : History Query Answer) :
    ∃ new, (ledgerTables.after ledger h).rows = ledger.rows ++ new := by
  induction h generalizing ledger with
  | nil => exact ⟨[], (List.append_nil _).symm⟩
  | cons event h ih =>
    obtain ⟨new, hnew⟩ := ih (ledgerTables.apply ledger event)
    rw [Tables.after_cons, hnew]
    obtain ⟨query, answer⟩ := event
    cases query with
    | insertEvent event => exact ⟨_, List.append_assoc _ _ _⟩
    | countSources sourceIds => exact ⟨new, rfl⟩
    | advisoryLock name => exact ⟨new, rfl⟩
    | clockTimestamp => exact ⟨new, rfl⟩
    | selectNewest key sourceId => exact ⟨new, rfl⟩

theorem rows_prefix {earlier later : List CommittedCall} (h : earlier <+: later) :
    (ledgerOf earlier).rows <+: (ledgerOf later).rows := by
  obtain ⟨rest, rfl⟩ := h
  obtain ⟨new, hnew⟩ := exists_rows_after (ledgerOf earlier) (logOf rest)
  refine ⟨new, ?_⟩
  rw [← hnew, ledgerOf, ledgerOf, ← Tables.after_append, logOf, logOf, logOf, List.flatMap_append]

/-- Every call meets the condition. -/
theorem condition_of_reachable
    (hst : (database sha256 evaluationSha256 hash).system.Reachable MayHappen st) :
    (∀ p ∈ st.running, MeetsCondition p.2.call) ∧ ∀ t ∈ st.committed, MeetsCondition t.call := by
  refine hst.invariant (I := fun st => (∀ p ∈ st.running, MeetsCondition p.2.call) ∧
    ∀ t ∈ st.committed, MeetsCondition t.call) (fun st hst => ?_) fun st e st' hall hmay hstep => ?_
  · obtain ⟨hrunning, hcommitted⟩ := hst
    exact ⟨fun p hp => (by rw [hrunning] at hp; cases hp),
      fun t ht => (by rw [hcommitted] at ht; cases ht)⟩
  · obtain ⟨hrunning, hcommitted⟩ := hall
    have hothers : ∀ s, ∀ p ∈ st.others s, MeetsCondition p.2.call :=
      fun s p hp => hrunning p (State.mem_others.mp hp).1
    cases Database.effect_of_step hstep with
    | elapses d => exact ⟨hrunning, hcommitted⟩
    | begins s call => exact ⟨List.forall_mem_cons.mpr ⟨hmay, hothers s⟩, hcommitted⟩
    | asks ht hrest hadmits =>
      have hcall := hrunning _ (State.mem_of_transaction ht)
      exact ⟨List.forall_mem_cons.mpr ⟨hcall, hothers _⟩, hcommitted⟩
    | commits ht hrest =>
      refine ⟨hothers _, fun t hmem => ?_⟩
      rcases List.mem_append.mp hmem with hold | hlast
      · exact hcommitted t hold
      · rw [List.mem_singleton.mp hlast]
        exact hrunning _ (State.mem_of_transaction ht)
    | ends => exact ⟨hothers _, hcommitted⟩

/-- The calls of a state. -/
def callsOf (st : LedgerState) : Set EvaluationArguments :=
  {call | (∃ t ∈ st.committed, t.call = call) ∨ ∃ p ∈ st.running, p.2.call = call}

/-- **What a committed call has done to the ledger**: the newest event of each alert carries its
assessment; what it has appended differs from what was newest; it is not of an earlier instant than
the call before it; and if it repeats that call, it has appended nothing and returns the same
checkpoint. -/
structure KeepsLedger (rows rows' : List AlertEvent) (previous : Option (EvaluationArguments × Receipt))
    (call : EvaluationArguments) (returned : Receipt) : Prop where
  carries : ∀ a ∈ call.assessments, ∃ event, newestOf rows' a = some event ∧
    Carries event a call.sourceRoster
  appended : rows' = rows ∨ HasAppended call rows rows' returned
  later : ∀ l ∈ previous, l.1.evaluatedAt ≤ call.evaluatedAt
  repeats : ∀ l ∈ previous, l.1 = call →
    rows' = rows ∧ returned = { l.2 with appendedCount := 0 }

/-- A call that holds keeps the ledger. -/
theorem CallHolds.keepsLedger {rows : List AlertEvent} {ledger' : Ledger}
    {previous : Option (EvaluationArguments × Receipt)} {call : EvaluationArguments}
    {returned : Receipt}
    (h : CallHolds sha256 evaluationSha256 rows ledger' previous call returned) :
    KeepsLedger rows ledger'.rows previous call returned where
  carries := h.after.carries
  appended := by
    rcases h.appended with ⟨happended, -⟩ | ⟨l, -, -, hrows, -⟩
    · exact .inr happended
    · exact .inl hrows
  later := h.later
  repeats := by
    intro l hl hcall
    rcases h.appended with ⟨-, hne⟩ | ⟨l', hl', -, hrows, hreturned⟩
    · exact absurd hcall (hne l hl)
    · obtain rfl := Option.some.inj ((Option.mem_def.mp hl).symm.trans hl')
      exact ⟨hrows, hreturned⟩

/-- **What holds of the ledger.** -/
structure LedgerHolds (st : LedgerState) : Prop where
  calls : ∀ before t after, st.committed = before ++ t :: after →
    KeepsLedger (ledgerOf before).rows (ledgerOf (before ++ [t])).rows (lastOf before) t.call t.result
  fails : ∀ p ∈ st.running, ∀ e, p.2.rest = .fail e → MayFail (lastOf st.committed) p.2.call e
  exports : ∀ times : List (List CommittedCall), times.Pairwise (· <+: ·) →
    ∀ last, times.getLast? = some last → last <+: st.committed →
      ∀ afterEventId limit, 1 ≤ limit ∧ limit ≤ 100 →
        ∃ batches, readPages limit (times.map fun time => (ledgerOf time).rows) afterEventId =
          some batches ∧ ReadsInOrder limit (ledgerOf last).rows afterEventId batches

/-- **The ledger folds to the last evaluation** in every run whose calls meet the condition. -/
theorem ledgerHolds_of_reachable (hdigest : ∀ call, Sha256Schema (evaluationSha256 call))
    (hst : (database sha256 evaluationSha256 hash).system.Reachable MayHappen st)
    (htold : AreToldApart evaluationSha256 (callsOf st)) : LedgerHolds st := by
  obtain ⟨⟨htraces, -⟩, hgoesOn⟩ := isSerial.goesOn_of_reachable hst
  obtain ⟨hrunningLeads, hcommittedLeads⟩ := leads_of_reachable hst
  obtain ⟨hrunningCondition, hcommittedCondition⟩ := condition_of_reachable hst
  have hgiven : CallsAreGiven sha256 evaluationSha256 (callsOf st) st.committed :=
    ⟨htraces, hcommittedLeads, fun t ht => ⟨hcommittedCondition t ht, .inl ⟨t, ht, rfl⟩⟩⟩
  refine ⟨fun before t after heq => ?_, fun p hp e he => ?_, ?_⟩
  · have hsplit : st.committed = (before ++ [t]) ++ after := by
      rw [heq, List.append_assoc, List.singleton_append]
    rw [hsplit] at hgiven
    exact ((isLast_of_committed hdigest htold hgiven.of_append).2 before t rfl).keepsLedger
  · obtain ⟨⟨hsound, hlast⟩, -⟩ := isLast_of_committed hdigest htold hgiven
    have hleads := hrunningLeads p hp [] (.error e) (by rw [he]; exact ⟨rfl, rfl⟩)
    rw [List.append_nil] at hleads
    have hapart : ∀ l ∈ lastOf st.committed, evaluationSha256 l.1 = evaluationSha256 p.2.call →
        l.1 = p.2.call := by
      intro l hl heq
      obtain ⟨other, hother, rfl⟩ := Option.map_eq_some_iff.mp hl
      exact htold (.inl ⟨other, List.mem_of_getLast? hother, rfl⟩) (.inr ⟨p, hp, rfl⟩) heq
    exact append_spec (hrunningCondition p hp) (hdigest _) hsound hlast hapart hleads
      (Tables.traces_append.mp (hgoesOn p hp).traces).2
  · intro times hpairwise last hlastTime hcommitted afterEventId limit hlimit
    have hall : ∀ time ∈ times, LedgerIsSound (ledgerOf time) := by
      intro time htime
      have hle : time <+: last := by
        obtain ⟨earlier, hearlier⟩ := List.getLast?_eq_some_iff.mp hlastTime
        rw [hearlier] at htime hpairwise
        rcases List.mem_append.mp htime with hold | hnew
        · exact (List.pairwise_append.mp hpairwise).2.2 time hold last (List.mem_singleton_self _)
        · rw [List.mem_singleton.mp hnew]
      obtain ⟨rest, hrest⟩ := hle.trans hcommitted
      rw [← hrest] at hgiven
      exact (isLast_of_committed hdigest htold hgiven.of_append).1.1
    refine readPages_spec hlimit (fun rows hrows => ?_) (fun rows hrows => ?_) ?_ ?_
    · obtain ⟨time, htime, rfl⟩ := List.mem_map.mp hrows
      exact (hall time htime).ids
    · obtain ⟨time, htime, rfl⟩ := List.mem_map.mp hrows
      exact (hall time htime).written
    · exact List.pairwise_map.mpr (hpairwise.imp fun hle => rows_prefix hle)
    · rw [List.getLast?_map, hlastTime, Option.map_some]

end Reachable

end Handleplan.AlertLedger
