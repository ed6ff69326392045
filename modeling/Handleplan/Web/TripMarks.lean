import Handleplan.Web.TripSnapshotRepository

/-!
# Marking items from several tabs

Each call of `setCompleted` reads the stored trip, marks or unmarks one item and writes the whole
record back, in one transaction. Whatever the order in which the transactions of the tabs commit,
the marks are those of the last call for each item.

## Main definitions

* `TripStore.IsMarking` — an event of tabs that only mark items.
* `TripStore.committedMarks` — the marks made along a run, in the order of their commits.
* `TripStore.MarkedBy` — a trip as it was at first, but for some marks.

## Main results

* `TripStore.markedBy_next` — a step of such tabs makes the marks it commits.
* `TripStore.marks_are_last_committed` — no mark is lost, over every run.
* `TripStore.inOrder_run` — the repository itself only writes marks in checklist order.
-/

namespace Handleplan.TripStore

/-! ### Marks along a run -/

/-- An event of tabs that only mark items: a call of `setCompleted`, or the commit or the failure of
a transaction. -/
def IsMarking : Event → Prop
  | .call (.setCompleted _ _ _) => True
  | .call _ => False
  | _ => True

/-- The mark a step makes: the call whose transaction it commits is answered with the trip. -/
def committedMark (s : State) (e : Event) : List (JsString × Bool) :=
  match committing s e with
  | some (.pending (.setCompleted id itemId completed)) =>
    match (transact (.pending (.setCompleted id itemId completed)) s.store).1 with
    | .settled (.trip _) => [(itemId, completed)]
    | _ => []
  | _ => []

/-- The marks made along a run, in the order of their commits. -/
def committedMarks (s : State) : List Event → List (JsString × Bool)
  | [] => []
  | e :: es => committedMark s e ++ (next s e).elim [] fun t => committedMarks t es

/-- What the last mark of an item says. -/
def lastMark (marks : List (JsString × Bool)) (itemId : JsString) : Option Bool :=
  (marks.reverse.find? fun mark => mark.1 = itemId).map Prod.snd

theorem lastMark_concat (marks : List (JsString × Bool)) (mark : JsString × Bool)
    (itemId : JsString) :
    lastMark (marks ++ [mark]) itemId =
      if mark.1 = itemId then some mark.2 else lastMark marks itemId := by
  unfold lastMark
  rw [List.reverse_append, List.reverse_singleton, List.singleton_append, List.find?_cons]
  split_ifs with h <;> simp [h]

/-! ### Marked trips -/

/-- **A trip with some marks**: it is the trip as it was at first, but an item with a mark is
completed as its last mark says. Once an item was marked, and also when they were so at first, the
completed items are in checklist order. -/
structure MarkedBy (first : StoredTrip) (marks : List (JsString × Bool)) (record : StoredTrip) :
    Prop where
  snapshot : record.snapshot = first.snapshot
  completed : ∀ itemId, itemId ∈ record.completedItemIds ↔
    (lastMark marks itemId).getD (itemId ∈ first.completedItemIds) = true
  ordered : marks ≠ [] ∨ first.completedItemIds.Sublist first.snapshot.checklistItemIds →
    record.completedItemIds.Sublist first.snapshot.checklistItemIds

theorem MarkedBy.refl (record : StoredTrip) : MarkedBy record [] record where
  snapshot := rfl
  completed itemId := by simp [lastMark]
  ordered h := h.resolve_left (absurd rfl)

variable {first record : StoredTrip} {marks : List (JsString × Bool)} {s t : State}
  {es : List Event}

/-- One more mark. -/
theorem MarkedBy.mark (h : MarkedBy first marks record) {itemId : JsString} (completed : Bool)
    (hlisted : itemId ∈ record.snapshot.checklistItemIds) :
    MarkedBy first (marks ++ [(itemId, completed)]) (record.mark itemId completed) where
  snapshot := h.snapshot
  completed other := by
    rw [StoredTrip.mem_mark, lastMark_concat]
    split_ifs with heq hne hne
    · subst heq
      simp [hlisted]
    · exact absurd heq.symm hne
    · exact absurd hne.symm heq
    · rw [← h.completed other]
      exact ⟨And.right, fun hother => ⟨record.listed other hother, hother⟩⟩
  ordered _ := by
    rw [← h.snapshot]
    exact List.filter_sublist

/-! ### Steps -/

/-- A call of a tab that only marks items. -/
def IsMarkingCall : Call → Prop
  | .pending (.setCompleted _ _ _) => True
  | .settled _ => True
  | _ => False

/-- **The transaction of `setCompleted`** on an active trip refuses the call and writes nothing, or
writes the trip with the item marked and answers with it. -/
theorem setCompletedTransaction_of_active {store : Option StoredValue}
    (hactive : activeTrip store = some record) (id itemId : JsString) (completed : Bool) :
    (∃ code, setCompletedTransaction id itemId completed store = (.settled (.error code), store)) ∨
      (itemId ∈ record.snapshot.checklistItemIds ∧
        setCompletedTransaction id itemId completed store =
          (.settled (.trip (record.mark itemId completed)),
            some (.current (record.mark itemId completed)))) := by
  obtain ⟨value, rfl, hparse⟩ := Option.bind_eq_some_iff.mp hactive
  simp only [setCompletedTransaction, hparse]
  by_cases hid : record.snapshot.id ≠ id
  · rw [if_pos hid]
    exact Or.inl ⟨_, rfl⟩
  · rw [if_neg hid]
    by_cases hlisted : itemId ∉ record.snapshot.checklistItemIds
    · rw [if_pos hlisted]
      exact Or.inl ⟨_, rfl⟩
    · rw [if_neg hlisted]
      exact Or.inr ⟨not_not.mp hlisted, rfl⟩

/-- **A step of tabs that only mark items** makes the marks it commits. -/
theorem markedBy_next {e : Event} (hcalls : ∀ call ∈ s.calls, IsMarkingCall call)
    (hmarking : IsMarking e) (hactive : activeTrip s.store = some record)
    (h : MarkedBy first marks record) (hstep : next s e = some t) :
    (∀ call ∈ t.calls, IsMarkingCall call) ∧
      ∃ after, activeTrip t.store = some after ∧
        MarkedBy first (marks ++ committedMark s e) after := by
  cases e with
  | call operation =>
    cases hstep
    refine ⟨fun call hcall => ?_, record, hactive, by simpa [committedMark, committing] using h⟩
    obtain hcall | hcall := List.mem_append.mp hcall
    · exact hcalls call hcall
    · rw [List.mem_singleton.mp hcall]
      cases operation <;> exact hmarking
  | fail caller =>
    obtain ⟨call, hcall, rfl⟩ := Option.map_eq_some_iff.mp hstep
    refine ⟨fun other hother => ?_, record, hactive, by simpa [committedMark, committing] using h⟩
    obtain hother | rfl := List.mem_or_eq_of_mem_set hother
    · exact hcalls other hother
    · cases call <;> trivial
  | commit caller =>
    obtain ⟨call, hcall, rfl⟩ := Option.map_eq_some_iff.mp hstep
    have hkind := hcalls call (List.mem_of_getElem? hcall)
    have hcommitting : committing s (.commit caller) = some call := hcall
    cases call with
    | pending operation =>
      cases operation with
      | setCompleted id itemId completed =>
        obtain ⟨code, hrefused⟩ | ⟨hlisted, hmarked⟩ :=
          setCompletedTransaction_of_active hactive id itemId completed
        · have hnone : committedMark s (.commit caller) = [] := by
            simp only [committedMark, hcommitting, transact, hrefused]
          refine ⟨fun other hother => ?_, record, ?_, ?_⟩
          · obtain hother | rfl := List.mem_or_eq_of_mem_set hother
            · exact hcalls other hother
            · simp only [transact, hrefused]
              trivial
          · simp only [transact, hrefused]
            exact hactive
          · rwa [hnone, List.append_nil]
        · have hone : committedMark s (.commit caller) = [(itemId, completed)] := by
            simp only [committedMark, hcommitting, transact, hmarked]
          refine ⟨fun other hother => ?_, record.mark itemId completed, ?_, ?_⟩
          · obtain hother | rfl := List.mem_or_eq_of_mem_set hother
            · exact hcalls other hother
            · simp only [transact, hmarked]
              trivial
          · simp only [transact, hmarked]
            rfl
          · rw [hone]
            exact h.mark completed hlisted
      | getActive => exact hkind.elim
      | start => exact hkind.elim
      | finish => exact hkind.elim
      | delete => exact hkind.elim
      | clear => exact hkind.elim
    | settled answer =>
      refine ⟨fun other hother => ?_, record, hactive, ?_⟩
      · obtain hother | rfl := List.mem_or_eq_of_mem_set hother
        · exact hcalls other hother
        · trivial
      · simpa [committedMark, hcommitting] using h
    | removing => exact hkind.elim
    | finishing => exact hkind.elim

/-- A run of tabs that only mark items makes the marks it commits. -/
theorem markedBy_run (hcalls : ∀ call ∈ s.calls, IsMarkingCall call)
    (hmarking : ∀ e ∈ es, IsMarking e) (hactive : activeTrip s.store = some record)
    (h : MarkedBy first marks record) (hrun : tabs.run s es = some t) :
    ∃ after, activeTrip t.store = some after ∧
      MarkedBy first (marks ++ committedMarks s es) after := by
  induction es generalizing s record marks with
  | nil =>
    cases hrun
    exact ⟨record, hactive, by simpa [committedMarks] using h⟩
  | cons e es ih =>
    obtain ⟨next', hnext, hrest⟩ := Option.bind_eq_some_iff.mp hrun
    obtain ⟨hmarkingE, hmarkingEs⟩ := List.forall_mem_cons.mp hmarking
    obtain ⟨hcalls', after, hactive', hafter⟩ := markedBy_next hcalls hmarkingE hactive h hnext
    obtain ⟨last, hlast, hmarked⟩ := ih hcalls' hmarkingEs hactive' hafter hrest
    refine ⟨last, hlast, ?_⟩
    have hstep : next s e = some next' := hnext
    rwa [committedMarks, hstep, Option.elim_some, ← List.append_assoc]

/-! ### The order of the marks -/

/-- The active trip, if there is one, has its marks in checklist order. -/
def InOrder (store : Option StoredValue) : Prop :=
  ∀ record ∈ activeTrip store, record.completedItemIds.Sublist record.snapshot.checklistItemIds

/-- **Every record the repository writes** has its marks in checklist order, so that they are out of
order in no run that begins with an empty store. -/
theorem inOrder_run (h : InOrder s.store) (hrun : tabs.run s es = some t) : InOrder t.store := by
  induction es generalizing s with
  | nil => exact Option.some.inj hrun ▸ h
  | cons e es ih =>
    obtain ⟨u, hstep, hrest⟩ := Option.bind_eq_some_iff.mp hrun
    refine ih ?_ hrest
    rcases next_cases hstep with ⟨hstore, -⟩ | ⟨call, -, -, hstore, -⟩
    · rwa [hstore]
    · rw [hstore]
      intro record hrecord
      cases effect_transact call s.store with
      | keeps hout => exact h record (hout ▸ hrecord)
      | marks before itemId completed _ _ hout =>
        obtain rfl := Option.some.inj (hout.symm.trans hrecord)
        exact List.filter_sublist
      | starts snapshot _ _ hout =>
        obtain rfl := Option.some.inj (hout.symm.trans hrecord)
        exact List.nil_sublist _
      | deletes _ _ _ hout => simp [hout] at hrecord
      | clears _ hout => simp [hout] at hrecord

/-! ### All marks -/

/-- **No mark is lost.** When tabs only mark items of an active trip, then at every point of every
run, whatever the order of the commits, the trip is still there, with the snapshot it had; an item
is completed exactly when the last mark made says so, or, without one, when it was so at first; the
completed items are distinct items of the checklist; and they are in checklist order as soon as one
mark was made, or when they were so at first.

**Proof sketch.** Each transaction reads the record it replaces, so a step adds its own mark to
those made before, and induction over the run collects them. -/
theorem marks_are_last_committed {store : Option StoredValue}
    (hactive : activeTrip store = some first) (hmarking : ∀ e ∈ es, IsMarking e)
    (hrun : tabs.run ⟨store, []⟩ es = some t) :
    ∃ record, activeTrip t.store = some record ∧ record.snapshot = first.snapshot ∧
      (∀ itemId, itemId ∈ record.completedItemIds ↔
        (lastMark (committedMarks ⟨store, []⟩ es) itemId).getD
          (itemId ∈ first.completedItemIds) = true) ∧
      record.completedItemIds.Nodup ∧
      (∀ itemId ∈ record.completedItemIds, itemId ∈ first.snapshot.checklistItemIds) ∧
      (committedMarks ⟨store, []⟩ es ≠ [] ∨
          first.completedItemIds.Sublist first.snapshot.checklistItemIds →
        record.completedItemIds.Sublist first.snapshot.checklistItemIds) := by
  obtain ⟨record, hrecord, hmarked⟩ := markedBy_run (fun call hcall => absurd hcall (by simp))
    hmarking hactive (.refl first) hrun
  rw [List.nil_append] at hmarked
  exact ⟨record, hrecord, hmarked.snapshot, hmarked.completed, record.unique,
    fun itemId hitem => hmarked.snapshot ▸ record.listed itemId hitem, hmarked.ordered⟩

/-- A trip to buy milk and bread. -/
def breakfastTrip : TripSnapshot where
  id := js "tur"
  checklistItemIds := [js "melk", js "brød"]
  rest := js "plan"
  nonempty := by decide
  nodup := by decide

/-- Two tabs mark the bread, then the milk, and one of them unmarks the bread again. -/
def breakfastMarks : List Event :=
  [.call (.setCompleted (js "tur") (js "brød") true), .call (.setCompleted (js "tur") (js "melk") true),
    .call (.setCompleted (js "tur") (js "brød") false), .commit 0, .commit 1, .commit 2]

/-- The milk is marked in the end, and the bread is not. -/
theorem marks_are_last_committed_breakfast :
    ∃ t record, tabs.run ⟨some (.current (.fresh breakfastTrip)), []⟩ breakfastMarks = some t ∧
      activeTrip t.store = some record ∧ js "melk" ∈ record.completedItemIds ∧
      js "brød" ∉ record.completedItemIds := by
  have hrun : ∃ t, tabs.run ⟨some (.current (.fresh breakfastTrip)), []⟩ breakfastMarks = some t :=
    ⟨_, rfl⟩
  obtain ⟨t, hrun⟩ := hrun
  obtain ⟨record, hrecord, -, hcompleted, -⟩ := marks_are_last_committed
    (rfl : activeTrip (some (.current (.fresh breakfastTrip))) = some (.fresh breakfastTrip))
    (by simp [breakfastMarks, IsMarking]) hrun
  exact ⟨t, record, hrun, hrecord, (hcompleted _).mpr (by decide),
    fun h => absurd ((hcompleted _).mp h) (by decide)⟩

theorem inOrder_run_breakfast : ∃ t,
    tabs.run ⟨some (.current (.fresh breakfastTrip)), []⟩ breakfastMarks = some t ∧
      InOrder t.store := by
  have hrun : ∃ t, tabs.run ⟨some (.current (.fresh breakfastTrip)), []⟩ breakfastMarks = some t :=
    ⟨_, rfl⟩
  obtain ⟨t, hrun⟩ := hrun
  refine ⟨t, hrun, inOrder_run (fun record hrecord => ?_) hrun⟩
  cases hrecord
  exact List.nil_sublist _

/-- A stored trip whose marks are not in checklist order, as its schema allows. -/
def breakfastBackwards : StoredTrip where
  snapshot := breakfastTrip
  completedItemIds := [js "brød", js "melk"]
  unique := by decide
  listed := by decide

/-- A call for an item that is not of the trip commits, and leaves the marks out of order. -/
theorem not_in_order_after_refusal :
    ∃ t record, tabs.run ⟨some (.current breakfastBackwards), []⟩
        [.call (.setCompleted (js "tur") (js "egg") true), .commit 0] = some t ∧
      t.calls = [.settled (.error .invalid)] ∧ activeTrip t.store = some record ∧
      ¬ record.completedItemIds.Sublist record.snapshot.checklistItemIds :=
  ⟨⟨some (.current breakfastBackwards), [.settled (.error .invalid)]⟩, breakfastBackwards, rfl, rfl,
    rfl, by decide⟩

end Handleplan.TripStore
