import Handleplan.Db.ReviewDecisions
import Handleplan.Lib.Tables

/-!
# Review decisions are made at most once and on live evidence

Over every interleaving of renders and decisions, the unique constraints leave one action and one
offer for each candidate and one action for each render. That a render is live is tested before the
locks of the decision are waited for, so that the clock at which the decision acts may be later than
its expiry.

## Main definitions

* `ReviewDecisions.DecisionsAreSound` — decisions are made at most once and on live
  evidence.
* `ReviewDecisions.DecidesInTime` — the clock at which a decision acts is read before the
  render that it consumes expires.

## Main results

* `ReviewDecisions.decisionsAreSound_of_decidesInTime` — decisions are sound in every run
  in which they are made in time.
* `ReviewDecisions.not_decisionsAreSound_waiting` — an approval that acts after its
  render has expired, because it waits for a lock.
-/

namespace Handleplan.ReviewDecisions

open JsString Interaction Sessions Prog

/-! ### Histories -/

variable (h : ReviewHistory)

/-- The actions that a transaction has inserted. -/
def actionsOf : List ReviewActionRow := (rowsOf h).filterMap Row.action?

/-- The consumptions that a transaction has inserted. -/
def consumptionsOf : List EvidenceConsumption :=
  (rowsOf h).filterMap Row.consumption?

/-- The clock that a statement reads. -/
def clockOf : (query : Query) → Answer query → Option ℤ
  | .clockTimestamp _, now => some now
  | _, _ => none

/-- The clocks that a transaction has read. -/
def clocksOf : List ℤ :=
  h.filterMap fun event => clockOf event.query event.answer

/-- The render that a statement reads. -/
def selectedOf : (query : Query) → Answer query → Option EvidenceRender
  | .selectRender _, selected => selected
  | _, _ => none

/-- The renders that a transaction has read and locked. -/
def selectedRenders : List EvidenceRender :=
  h.filterMap fun event => selectedOf event.query event.answer

theorem actionsOf_append (h events : ReviewHistory) :
    actionsOf (h ++ events) = actionsOf h ++ actionsOf events := by
  simp [actionsOf, rowsOf]

theorem consumptionsOf_append (h events : ReviewHistory) :
    consumptionsOf (h ++ events) = consumptionsOf h ++ consumptionsOf events := by
  simp [consumptionsOf, rowsOf]

/-! ### Decisions -/

/-- An action is that of a request, for the first version of its candidate. -/
structure IsDecision (request : DecisionRequest) (action : ReviewActionRow) : Prop where
  candidateId : action.candidateId = request.candidateId
  actorId : action.actorId = request.actorId
  expectedVersion : action.expectedVersion = request.expectedVersion
  first : action.expectedVersion = 0
  action : action.action = request.action

/-- A render is consumed for an action: it was live at a clock before the one of the action. -/
structure Consumes (request : DecisionRequest) (h : ReviewHistory) (action : ReviewActionRow)
    (render : EvidenceRender) : Prop where
  live : ∃ before after, ∃ evidenceNow ∈ clocksOf before,
    h = before ++ ⟨.clockTimestamp .decisionNow, action.actedAt⟩ :: after ∧
      render ∈ selectedRenders before ∧ IsLive request evidenceNow render
  consumed : ∃ consumption ∈ consumptionsOf h,
    consumption.evidenceRenderId = render.id ∧ consumption.reviewActionId = action.id

/-- What a committed call has asked: a render recording inserts no action, a decision inserts its
action, and an approval consumes a render. -/
def Post : Call → ReviewHistory → Result → Prop
  | .record _, h, _ => actionsOf h = []
  | .decide request, h, _ => ∀ action ∈ actionsOf h, IsDecision request action ∧
      (action.action ≠ .reject → ∃ render, Consumes request h action render)

/-- **Decisions are made at most once and on live evidence.** -/
structure DecisionsAreSound (st : ReviewState) : Prop where
  /-- Each candidate gets at most one review action. -/
  oneAction : ((actions st).map fun action => action.candidateId).Nodup
  /-- Each candidate gets at most one approved offer. -/
  oneOffer : ((offers st).map fun offer => offer.candidateId).Nodup
  /-- Each render is consumed by at most one action, and each action consumes at most one. -/
  oneConsumption : ((consumptions st).map fun c => c.evidenceRenderId).Nodup ∧
    ((consumptions st).map fun c => c.reviewActionId).Nodup
  /-- Renders and actions are known by their ids. -/
  ids : ((renders st).map fun render => render.id).Nodup ∧
    ((actions st).map fun action => action.id).Nodup
  /-- Every action is one of a committed decision. -/
  decided : ∀ action ∈ actions st, ∃ t ∈ st.committed, ∃ request, t.call = .decide request ∧
    action ∈ actionsOf t.history
  /-- An approval acts while the render that it consumes is live, which the same actor and session
  recorded for the same version of the candidate. -/
  live : ∀ t ∈ st.committed, ∀ request, t.call = .decide request →
    ∀ action ∈ actionsOf t.history, action.action ≠ .reject →
      ∃ consumption ∈ consumptions st, consumption.reviewActionId = action.id ∧
        ∃ render ∈ renders st, render.id = consumption.evidenceRenderId ∧
          render.candidateId = action.candidateId ∧
          render.expectedVersion = action.expectedVersion ∧ render.actorId = action.actorId ∧
          action.actorId = request.actorId ∧
          render.reviewerSessionId = request.reviewerSessionId ∧
          render.renderedAt ≤ action.actedAt ∧ action.actedAt < render.expiresAt

/-! ### What the functions ask -/

section Programs

variable {may : ReviewHistory → Query → Prop} {h : ReviewHistory}

variable (hmay : ∀ h query, may h query)

include hmay

theorem safe_lockCandidateSource {candidateId : ℕ}
    {post : ReviewHistory → CandidateSource → Prop}
    (hpost : ∀ events source, rowsOf events = [] → post (h ++ events) source) :
    Safe may post h (lockCandidateSource candidateId) := by
  refine Safe.bind (Safe.query (hmay _ _) fun (candidate : Option CandidateSource) => ?_)
  refine Safe.bind (Safe.orFail fun source _ => ?_)
  refine Safe.bind (Safe.query (hmay _ _) fun (_ : Unit) => ?_)
  refine Safe.bind (Safe.query (hmay _ _) fun (found : Bool) => ?_)
  refine Safe.bind (Safe.require fun _ => ?_)
  have heq : h ++ [⟨.lockCandidate candidateId, candidate⟩] ++ [⟨.lockSource source.sourceId, ()⟩] ++
      [⟨.shareScope source.geographicScopeId, found⟩] =
      h ++ [⟨.lockCandidate candidateId, candidate⟩, ⟨.lockSource source.sourceId, ()⟩,
        ⟨.shareScope source.geographicScopeId, found⟩] := by simp
  exact heq ▸ hpost _ source rfl

theorem safe_reviewableCandidate {candidateId expectedVersion : ℕ} {source : CandidateSource}
    {now : ℤ} {post : ReviewHistory → ReviewCandidate → Prop}
    (hpost : ∀ events candidate, rowsOf events = [] → expectedVersion = 0 →
      post (h ++ events) candidate) :
    Safe may post h (reviewableCandidate candidateId expectedVersion source now) := by
  refine Safe.bind (Safe.query (hmay _ _) fun (version : ℕ) => ?_)
  refine Safe.bind (Safe.require fun hversion => ?_)
  refine Safe.bind (Safe.query (hmay _ _) fun (row : Option ReviewCandidate) => ?_)
  refine Safe.bind (Safe.orFail fun candidate _ => ?_)
  refine Safe.bind (Safe.require fun _ => ?_)
  have heq : h ++ [⟨.currentVersion candidateId now, version⟩] ++
      [⟨.candidateRow candidateId now, row⟩] =
      h ++ [⟨.currentVersion candidateId now, version⟩, ⟨.candidateRow candidateId now, row⟩] := by
    simp
  exact heq ▸ hpost _ candidate rfl (hversion.1.trans hversion.2)

variable {request : DecisionRequest}

/-- An approval inserts an offer, and neither inserts an action. -/
theorem safe_insertOfferOf {now : ℤ} {post : ReviewHistory → Option ℕ → Prop}
    (hpost : ∀ events offerId, actionsOf events = [] → post (h ++ events) offerId) :
    Safe may post h (insertOfferOf request now) := by
  unfold insertOfferOf
  split_ifs
  · have hnil := hpost [] none rfl
    rw [List.append_nil] at hnil
    exact hnil
  · refine Safe.bind (Safe.query (hmay _ _) fun (accepted : Bool) => ?_)
    refine Safe.bind (Safe.require fun _ => ?_)
    refine Safe.bind (Safe.query (hmay _ _) fun (inserted : Option ℕ) => ?_)
    refine Safe.bind (Safe.orFail fun id hinserted => ?_)
    obtain rfl : inserted = some id := hinserted
    have heq : h ++ [⟨.acceptDecision request.candidateId now, accepted⟩] ++
        [⟨.insertOffer ⟨request.candidateId, now⟩, some id⟩] =
        h ++ [⟨.acceptDecision request.candidateId now, accepted⟩,
          ⟨.insertOffer ⟨request.candidateId, now⟩, some id⟩] := by simp
    exact heq ▸ hpost _ (some id) rfl

/-- A decision reads the clock at which it acts and inserts one action. -/
theorem safe_privateReviewDecideV1 {evidenceAuthorized : Bool} {decisionBoundaryVersion : ℕ}
    {post : ReviewHistory → ReviewActionRow → Prop}
    (hpost : ∀ before after action, actionsOf before = [] → actionsOf after = [action] →
      IsDecision request action → post (h ++ (before ++ ⟨.clockTimestamp .decisionNow,
      action.actedAt⟩ :: after)) action) :
    Safe may post h (privateReviewDecideV1 request evidenceAuthorized decisionBoundaryVersion) := by
  refine Safe.bind (Safe.require fun _ => ?_)
  refine Safe.bind (safe_lockCandidateSource hmay fun before source hbefore => ?_)
  refine Safe.bind (Safe.query (hmay _ _) fun (now : ℤ) => ?_)
  refine Safe.bind (safe_reviewableCandidate hmay fun first _ hfirst hversion => ?_)
  refine Safe.bind (Safe.require fun _ => ?_)
  refine Safe.bind (safe_insertOfferOf hmay fun second offerId hsecond => ?_)
  refine Safe.bind (Safe.query (hmay _ _) fun (inserted : Option (ℕ × ℤ)) => ?_)
  refine Safe.bind (Safe.orFail fun generated hinserted => ?_)
  obtain rfl : inserted = some generated := hinserted
  obtain ⟨id, createdAt⟩ := generated
  have hactions : actionsOf (first ++ second ++ [⟨.insertAction
      ⟨request.candidateId, offerId, request.actorId, request.action, request.expectedVersion, now,
        decisionBoundaryVersion⟩, some (id, createdAt)⟩]) =
      [⟨⟨request.candidateId, offerId, request.actorId, request.action, request.expectedVersion, now,
        decisionBoundaryVersion⟩, id, createdAt⟩] := by
    rw [actionsOf_append, actionsOf_append, hsecond, actionsOf, hfirst]
    rfl
  have hpost := hpost before _ _ (by rw [actionsOf, hbefore]; rfl) hactions
    ⟨rfl, rfl, rfl, hversion, rfl⟩
  simp only [List.append_assoc, List.cons_append, List.nil_append] at hpost ⊢
  exact hpost

/-- The render that an approval goes on with was live at a clock before it was read. -/
theorem safe_liveRender {post : ReviewHistory → EvidenceRender → Prop}
    (hpost : ∀ events render, ∀ evidenceNow ∈ clocksOf events, rowsOf events = [] →
      render ∈ selectedRenders events → IsLive request evidenceNow render →
        post (h ++ events) render) :
    Safe may post h (liveRender request) := by
  refine Safe.bind (Safe.orFail fun proof _ => ?_)
  refine Safe.bind (Safe.query (hmay _ _) fun (now : ℤ) => ?_)
  refine Safe.bind (Safe.query (hmay _ _) fun (selected : Option EvidenceRender) => ?_)
  refine Safe.bind (Safe.orFail fun render hselected => ?_)
  obtain rfl : selected = some render := hselected
  refine Safe.bind (Safe.require fun hlive => ?_)
  refine Safe.bind (Safe.query (hmay _ _) fun (consumed : Bool) => ?_)
  refine Safe.bind (Safe.require fun _ => ?_)
  have hpost := hpost [⟨.clockTimestamp .evidenceNow, now⟩, ⟨.selectRender proof, some render⟩,
    ⟨.isConsumed render.id, consumed⟩] render now List.mem_cons_self rfl List.mem_cons_self hlive
  simp only [List.append_assoc, List.cons_append, List.nil_append] at hpost ⊢
  exact hpost

/-- The consumption of a render is inserted, and no action. -/
theorem safe_consume {render : EvidenceRender} {action : ReviewActionRow}
    {post : ReviewHistory → Unit → Prop}
    (hpost : ∀ events, actionsOf events = [] → (∃ consumption ∈ consumptionsOf events,
      consumption.evidenceRenderId = render.id ∧ consumption.reviewActionId = action.id) →
      post (h ++ events) ()) :
    Safe may post h (consume request render action) := by
  refine Safe.bind (Safe.query (hmay _ _) fun (now : ℤ) => ?_)
  refine Safe.bind (Safe.query (hmay _ _) fun (inserted : Option ℕ) => ?_)
  refine Safe.bind (Safe.orFail fun id hinserted => ?_)
  obtain rfl : inserted = some id := hinserted
  have hpost := hpost [⟨.clockTimestamp .consumedNow, now⟩,
    ⟨.insertConsumption ⟨render.id, action.id, request.candidateId, now⟩, some id⟩] rfl
    ⟨⟨⟨render.id, action.id, request.candidateId, now⟩, id⟩, List.mem_cons_self, rfl, rfl⟩
  simp only [List.append_assoc, List.cons_append, List.nil_append] at hpost ⊢
  exact hpost

/-- A decision asks what it may, and no more than it is called for. -/
theorem safe_privateReviewDecideV2 :
    Safe may (Post (.decide request)) [] (privateReviewDecideV2 request) := by
  refine Safe.bind (Safe.require fun _ => ?_)
  show Safe may _ _ (if _ then _ else _)
  split_ifs with haction
  · refine Safe.bind (safe_privateReviewDecideV1 hmay fun before after action hbefore hafter
      hdecision => ?_)
    intro other hother
    rw [List.nil_append, actionsOf_append, hbefore, List.nil_append] at hother
    obtain rfl := List.mem_singleton.mp (hafter ▸ hother)
    exact ⟨hdecision, fun hne => absurd (hdecision.action.trans haction) hne⟩
  · refine Safe.bind (safe_liveRender hmay fun first render evidenceNow hclock hrows hselected
      hlive => ?_)
    refine Safe.bind (safe_privateReviewDecideV1 hmay fun before after action hbefore hafter
      hdecision => ?_)
    refine Safe.bind (safe_consume hmay fun last hlast hconsumed => ?_)
    obtain ⟨consumption, hconsumption, hrender, haction'⟩ := hconsumed
    intro other hother
    have hfirst : actionsOf first = [] := by rw [actionsOf, hrows]; rfl
    rw [List.nil_append, actionsOf_append, actionsOf_append, actionsOf_append, hfirst, hbefore,
      hlast, List.nil_append, List.nil_append, List.append_nil] at hother
    obtain rfl := List.mem_singleton.mp (hafter ▸ hother)
    refine ⟨hdecision, fun _ => ⟨render, ?_, ?_⟩⟩
    · refine ⟨first ++ before, after ++ last, evidenceNow, ?_, by simp, ?_, hlive⟩
      · rw [clocksOf, List.filterMap_append]
        exact List.mem_append_left _ hclock
      · rw [selectedRenders, List.filterMap_append]
        exact List.mem_append_left _ hselected
    · rw [consumptionsOf_append]
      exact ⟨consumption, List.mem_append_right _ hconsumption, hrender, haction'⟩

/-- Recording a render asks what it may, and takes no action. -/
theorem safe_privateReviewRecordEvidenceRenderV1
    {reviewCropReference : ℕ → JsString → JsString → JsString} {request : RenderRequest} :
    Safe may (Post (.record request)) []
      (privateReviewRecordEvidenceRenderV1 reviewCropReference request) := by
  refine Safe.bind (Safe.require fun _ => ?_)
  refine Safe.bind (safe_lockCandidateSource hmay fun first source hfirst => ?_)
  refine Safe.bind (Safe.query (hmay _ _) fun (now : ℤ) => ?_)
  refine Safe.bind (Safe.require fun _ => ?_)
  refine Safe.bind (safe_reviewableCandidate hmay fun second candidate hsecond _ => ?_)
  refine Safe.bind (Safe.require fun _ => ?_)
  refine Safe.bind (Safe.query (hmay _ _) fun (inserted : Option ℕ) => ?_)
  refine Safe.bind (Safe.orFail fun id hinserted => ?_)
  obtain rfl : inserted = some id := hinserted
  show actionsOf _ = []
  simp only [actionsOf_append, List.nil_append]
  rw [actionsOf, hfirst, actionsOf, actionsOf, hsecond]
  rfl

end Programs

/-- **What a committed call has asked.** -/
theorem safe_program (reviewCropReference : ℕ → JsString → JsString → JsString) (call : Call) :
    Safe (fun _ _ => True) (Post call) [] ((database reviewCropReference).program call) := by
  cases call with
  | record request => exact safe_privateReviewRecordEvidenceRenderV1 fun _ _ => trivial
  | decide request => exact safe_privateReviewDecideV2 fun _ _ => trivial

/-! ### What the database answers -/

/-- A statement is answered with what was there: a clock that is not before the ones that were read,
and a render that is committed. -/
def IsTrue (st : ReviewState) (before : ReviewHistory) (event : ReviewEvent) : Prop :=
  (∀ now ∈ clockOf event.query event.answer, now ≤ st.clock ∧ ∀ t ∈ clocksOf before, t ≤ now) ∧
    ∀ render ∈ selectedOf event.query event.answer, render ∈ renders st

variable {st : ReviewState}

/-- Committed renders stay. -/
theorem mem_renders_of_extends {st' : ReviewState} (h : st.Extends st') {render : EvidenceRender}
    (hrender : render ∈ renders st) : render ∈ renders st' := by
  obtain ⟨later, hlater⟩ := h.committed
  rw [renders, committedRows, ← hlater, List.flatMap_append, List.filterMap_append]
  exact List.mem_append_left _ hrender

theorem IsTrue.extends {st' : ReviewState} {before : ReviewHistory} {event : ReviewEvent}
    (h : st.Extends st') (htrue : IsTrue st before event) : IsTrue st' before event :=
  ⟨fun now hnow => ⟨(htrue.1 now hnow).1.trans h.clock, (htrue.1 now hnow).2⟩,
    fun render hrender => mem_renders_of_extends h (htrue.2 render hrender)⟩

theorem le_clock_of_along {h : ReviewHistory} (hall : Along (IsTrue st) h) {t : ℤ}
    (ht : t ∈ clocksOf h) : t ≤ st.clock := by
  obtain ⟨event, hevent, hclock⟩ := List.mem_filterMap.mp ht
  obtain ⟨before, after, heq⟩ := List.append_of_mem hevent
  exact ((hall before event after heq).1 t hclock).1

/-- An answer that a statement may get is true. -/
theorem isTrue_of_admits {session : ℕ} {query : Query} {answer : Answer query} {h : ReviewHistory}
    (hadmits : Admits st session query answer) (hall : Along (IsTrue st) h) :
    IsTrue st h ⟨query, answer⟩ := by
  obtain ⟨-, hanswer⟩ := hadmits
  constructor
  · intro now hnow
    cases query with
    | clockTimestamp reading =>
      obtain rfl : answer = now := Option.some.inj hnow
      obtain rfl : answer = st.clock := hanswer
      exact ⟨le_refl _, fun t ht => le_clock_of_along hall ht⟩
    | _ => cases hnow
  · intro render hrender
    cases query with
    | selectRender proof =>
      obtain rfl : answer = some render := hrender
      exact List.mem_of_find?_eq_some (hanswer : some render = _).symm
    | _ => cases hrender

/-- A statement takes keys that nobody has. -/
theorem fresh_of_admits {session : ℕ} {query : Query} {answer : Answer query}
    (hadmits : Admits st session query answer) :
    Database.Fresh keys st (keys ⟨query, answer⟩) := by
  cases hrow : rowOf query answer with
  | none =>
    rw [keys, hrow]
    exact ⟨List.nodup_nil, fun k hk => by cases hk⟩
  | some row =>
    have hinserts : Inserts st session query answer := by
      obtain ⟨-, hanswer⟩ := hadmits
      cases query with
      | insertRender values => exact hanswer
      | insertOffer values => exact hanswer
      | insertAction values => exact hanswer.1
      | insertConsumption values => exact hanswer
      | _ => cases hrow
    rw [Inserts, hrow] at hinserts
    exact hinserts

/-! ### Unique rows -/

section Rows

variable {event : ReviewEvent}

variable {row : Row}

theorem primaryKey_mem_keys (h : rowOf event.query event.answer = some row) :
    row.primaryKey ∈ keys event := by
  rw [keys, h]
  exact List.mem_cons_self

/-- The unique constraints that a row is under. -/
def Row.constraints : Row → List UniqueKey
  | .render row => [.renderProof row.evidenceProofSha256]
  | .offer row => [.offerCandidate row.candidateId]
  | .action row => [.actionVersion row.candidateId row.expectedVersion]
  | .consumption row =>
    [.consumedRender row.evidenceRenderId, .consumingAction row.reviewActionId]

/-- The constraints that the row of a statement is under are those of the statement. -/
theorem constraintsOf_of_rowOf (h : rowOf event.query event.answer = some row) :
    constraintsOf event.query = row.constraints := by
  obtain ⟨query, answer⟩ := event
  cases query with
  | insertRender values =>
    obtain ⟨id, -, rfl⟩ := Option.map_eq_some_iff.mp h
    rfl
  | insertOffer values =>
    obtain ⟨id, -, rfl⟩ := Option.map_eq_some_iff.mp h
    rfl
  | insertAction values =>
    obtain ⟨generated, -, rfl⟩ := Option.map_eq_some_iff.mp h
    rfl
  | insertConsumption values =>
    obtain ⟨id, -, rfl⟩ := Option.map_eq_some_iff.mp h
    rfl
  | _ => cases h

theorem constraint_mem_keys (h : rowOf event.query event.answer = some row) {key : UniqueKey}
    (hkey : key ∈ row.constraints) : key ∈ keys event := by
  rw [keys, h]
  exact List.mem_cons_of_mem _ (constraintsOf_of_rowOf h ▸ hkey)

end Rows

variable {row : Row}

theorem eq_of_render? {r : EvidenceRender} (h : row.render? = some r) :
    row = .render r := by
  cases row <;> cases h
  rfl

theorem eq_of_offer? {r : ApprovedOffer} (h : row.offer? = some r) :
    row = .offer r := by
  cases row <;> cases h
  rfl

theorem eq_of_action? {r : ReviewActionRow} (h : row.action? = some r) :
    row = .action r := by
  cases row <;> cases h
  rfl

theorem eq_of_consumption? {r : EvidenceConsumption} (h : row.consumption? = some r) :
    row = .consumption r := by
  cases row <;> cases h
  rfl

/-- The action that a statement inserts is one of its transaction. -/
theorem mem_actionsOf {h : ReviewHistory} {event : ReviewEvent} {action : ReviewActionRow}
    (hevent : event ∈ h) (hrow : rowOf event.query event.answer = some (.action action)) :
    action ∈ actionsOf h :=
  List.mem_filterMap.mpr ⟨_, List.mem_filterMap.mpr ⟨event, hevent, hrow⟩, rfl⟩

section Tables

variable {st : ReviewState}

variable {τ : Type}

/-- **The rows of a table differ in a column** that gives each of them a key. -/
theorem nodup_table (hunique : Database.Unique keys st) {κ : Type} (table : Row → Option τ)
    (column : τ → κ) (key : κ → UniqueKey)
    (hkey : ∀ t ∈ st.committed, ∀ event ∈ t.history, ∀ row,
      rowOf event.query event.answer = some row →
        ∀ r, table row = some r → key (column r) ∈ keys event) :
    (((committedRows st).filterMap table).map column).Nodup := by
  have hrows : ((committedRows st).filterMap table).map column =
      (st.committed.flatMap fun t => t.history).filterMap fun event =>
        ((rowOf event.query event.answer).bind table).map column := by
    simp only [committedRows, rowsOf, List.filterMap_flatMap, List.map_flatMap,
      List.map_filterMap, List.filterMap_filterMap, Option.map_bind]
  have hkeys : Database.committedKeys keys st =
      (st.committed.flatMap fun t => t.history).flatMap keys := by
    rw [Database.committedKeys, List.flatMap_assoc]
    rfl
  rw [hrows]
  refine Tables.nodup_filterMap_of_nodup_flatMap key (hkeys ▸ hunique.committed)
    fun event hevent k hk => ?_
  obtain ⟨t, ht, hevent⟩ := List.mem_flatMap.mp hevent
  obtain ⟨r, hr, rfl⟩ := Option.map_eq_some_iff.mp hk
  obtain ⟨row, hrow, hr⟩ := Option.bind_eq_some_iff.mp hr
  exact hkey t ht event hevent row hrow r hr

/-- A committed row is one of a committed transaction. -/
theorem mem_table_iff {table : Row → Option τ} {r : τ} :
    r ∈ (committedRows st).filterMap table ↔
      ∃ t ∈ st.committed, r ∈ (rowsOf t.history).filterMap table := by
  rw [committedRows, List.filterMap_flatMap, List.mem_flatMap]

/-- The primary keys of a table differ. -/
theorem nodup_ids (hunique : Database.Unique keys st) (table : Row → Option τ) (number : τ → ℕ)
    (key : ℕ → UniqueKey) (hkey : ∀ row r, table row = some r → row.primaryKey = key (number r)) :
    (((committedRows st).filterMap table).map number).Nodup :=
  nodup_table hunique table number key fun _ _ _ _ _ hrow _ hr =>
    hkey _ _ hr ▸ primaryKey_mem_keys hrow

end Tables

/-! ### Decisions in time -/

/-- **A decision is made in time**: when the clock at which it acts is read, the render that it has
locked is not expired. -/
def DecidesInTime (st : ReviewState) : Step ℕ Call Query Answer → Prop
  | .proceeds session _ => ∀ t ∈ st.transaction session,
    t.rest.next? = some (.clockTimestamp .decisionNow) →
      ∀ render ∈ selectedRenders t.history, st.clock < render.expiresAt
  | _ => True

instance (st : ReviewState) : DecidablePred (DecidesInTime st)
  | .elapses _ => .isTrue trivial
  | .begins _ _ => .isTrue trivial
  | .aborts _ => .isTrue trivial
  | .proceeds session _ => inferInstanceAs (Decidable (∀ t ∈ st.transaction session, _ → _))

/-- The clock at which a decision acts is before the expiry of the renders read by then. -/
def IsTimely (before : ReviewHistory) (event : ReviewEvent) : Prop :=
  ∀ now : ℤ, event = ⟨.clockTimestamp .decisionNow, now⟩ →
    ∀ render ∈ selectedRenders before, now < render.expiresAt

variable {reviewCropReference : ℕ → JsString → JsString → JsString} {st : ReviewState}

theorem isTimely_of_decidesInTime {session : ℕ} {t : Transaction Call Query Answer ReviewError Result}
    {query : Query} {next : Answer query → Program Result} {answers : (query : Query) → Answer query}
    (ht : st.transaction session = some t) (hrest : t.rest = .ask query next)
    (hadmits : Admits st session query (answers query))
    (hallowed : DecidesInTime st (.proceeds session answers)) :
    IsTimely t.history ⟨query, answers query⟩ := by
  intro now heq render hrender
  cases heq
  have hnow : answers (.clockTimestamp .decisionNow) = st.clock := hadmits.2
  rw [hnow]
  exact hallowed t ht (by rw [hrest]; rfl) render hrender

/-- An action is one of a decision. -/
theorem Post.decision {t : Committed Call Query Answer Result}
    (hpost : Post t.call t.history t.result) {action : ReviewActionRow}
    (haction : action ∈ actionsOf t.history) :
    ∃ request, t.call = .decide request ∧ IsDecision request action ∧
      (action.action ≠ .reject → ∃ render, Consumes request t.history action render) := by
  obtain ⟨call, h, result⟩ := t
  cases call with
  | record request =>
    rw [show actionsOf h = [] from hpost] at haction
    cases haction
  | decide request => exact ⟨request, rfl, hpost action haction⟩

/-- The render of an approval that is made in time is committed and live when the approval acts. -/
theorem Consumes.live_at {request : DecisionRequest} {h : ReviewHistory} {action : ReviewActionRow}
    {render : EvidenceRender} (hconsumes : Consumes request h action render)
    (htrue : Along (IsTrue st) h) (htimely : Along IsTimely h) :
    render ∈ renders st ∧ IsLive request action.actedAt render := by
  obtain ⟨before, after, evidenceNow, hclock, heq, hselected, hlive⟩ := hconsumes.live
  obtain ⟨event, hevent, hrender⟩ := List.mem_filterMap.mp hselected
  obtain ⟨first, second, hsplit⟩ := List.append_of_mem hevent
  have hle : evidenceNow ≤ action.actedAt := ((htrue _ _ _ heq).1 action.actedAt rfl).2 _ hclock
  refine ⟨(htrue first event (second ++ ⟨.clockTimestamp .decisionNow, action.actedAt⟩ :: after)
    (by rw [heq, hsplit]; simp)).2 render hrender, ?_⟩
  exact { hlive with
    rendered := hlive.rendered.trans hle
    expires := htimely _ _ _ heq action.actedAt rfl render hselected }

/-- **Decisions are made at most once and on live evidence** in every run in which each is made in
time.

**Proof sketch.** A committed decision has asked what its program asks; the render that it consumes
was live at a clock that it read before the one at which it acts, and is not expired then. The
unique constraints do the rest, with the version of every action being the first. -/
theorem decisionsAreSound_of_decidesInTime
    (h : (database reviewCropReference).system.Reachable DecidesInTime st) :
    DecisionsAreSound st := by
  have hunique : Database.Unique keys st :=
    Database.unique_of_reachable (fun _ _ _ _ hadmits => fresh_of_admits hadmits) h
  obtain ⟨-, hpost⟩ := Database.safe_of_reachable (safe_program reviewCropReference) h
  obtain ⟨-, htrue⟩ := Database.along_of_reachable (F := IsTrue)
    (fun _ _ _ _ hextends htrue => htrue.extends hextends)
    (fun _ _ _ _ _ _ _ _ hadmits _ hall => isTrue_of_admits hadmits hall) h
  obtain ⟨-, htimely⟩ := Database.along_of_reachable (F := fun _ => IsTimely)
    (fun _ _ _ _ _ htimely => htimely)
    (fun _ _ _ _ _ _ ht hrest hadmits hallowed _ =>
      isTimely_of_decidesInTime ht hrest hadmits hallowed) h
  refine ⟨?_, ?_, ⟨?_, ?_⟩, ⟨?_, ?_⟩, ?_, ?_⟩
  · refine nodup_table hunique Row.action? _ (fun candidateId => .actionVersion candidateId 0) ?_
    intro t ht event hevent row hrow action haction
    obtain rfl := eq_of_action? haction
    obtain ⟨_, -, hdecision, -⟩ := (hpost t ht).decision (mem_actionsOf hevent hrow)
    exact constraint_mem_keys hrow (hdecision.first ▸ List.mem_cons_self)
  · refine nodup_table hunique Row.offer? _ .offerCandidate ?_
    intro t ht event hevent row hrow offer hoffer
    obtain rfl := eq_of_offer? hoffer
    exact constraint_mem_keys hrow List.mem_cons_self
  · refine nodup_table hunique Row.consumption? _ .consumedRender ?_
    intro t ht event hevent row hrow consumption hconsumption
    obtain rfl := eq_of_consumption? hconsumption
    exact constraint_mem_keys hrow List.mem_cons_self
  · refine nodup_table hunique Row.consumption? _ .consumingAction ?_
    intro t ht event hevent row hrow consumption hconsumption
    obtain rfl := eq_of_consumption? hconsumption
    exact constraint_mem_keys hrow (List.mem_cons_of_mem _ List.mem_cons_self)
  · exact nodup_ids hunique Row.render? _ .renderId fun row r hr => eq_of_render? hr ▸ rfl
  · exact nodup_ids hunique Row.action? _ .actionId fun row r hr => eq_of_action? hr ▸ rfl
  · intro action haction
    obtain ⟨t, ht, haction⟩ := mem_table_iff.mp haction
    obtain ⟨request, hcall, -, -⟩ := (hpost t ht).decision haction
    exact ⟨t, ht, request, hcall, haction⟩
  · intro t ht request hcall action haction hne
    obtain ⟨request', hcall', hdecision, hconsumes⟩ := (hpost t ht).decision haction
    obtain rfl := Call.decide.inj (hcall.symm.trans hcall')
    obtain ⟨render, hconsumes⟩ := hconsumes hne
    obtain ⟨hrender, hlive⟩ := hconsumes.live_at (htrue t ht) (htimely t ht)
    obtain ⟨consumption, hconsumption, hid, haction'⟩ := hconsumes.consumed
    refine ⟨consumption, mem_table_iff.mpr ⟨t, ht, hconsumption⟩, haction', render, hrender,
      hid.symm, hlive.candidateId.trans hdecision.candidateId.symm,
      hlive.expectedVersion.trans hdecision.expectedVersion.symm,
      hlive.actorId.trans hdecision.actorId.symm, hdecision.actorId, hlive.reviewerSessionId,
      hlive.rendered, hlive.expires⟩

/-! ### Runs on fixed events -/

/-- A digest of one repeated digit. -/
def digestOf (digit : UInt16) : JsString := List.replicate 64 digit

/-- A capture of a candidate as reviewers see it. -/
def catalogCandidate : ReviewCandidate where
  sourceId := js "bunnpris-tjek"
  captureChecksum := digestOf 48
  evidenceLocator := js "page-1"
  rightsClassification := .privateReview
  mimeType := js "image/png"
  byteLength := 1024

/-- A reviewer is shown the capture until an expiry. -/
def catalogRender (proof : UInt16) (expiresAt : ℤ) : RenderRequest where
  candidateId := 7
  expectedVersion := 0
  captureChecksum := digestOf 48
  cropReference := js "review-crop:" ++ digestOf 48
  presentation := js "full_capture"
  rightsClassification := .privateReview
  actorId := js "access:" ++ digestOf 49
  reviewerSessionId := js "access-session:" ++ digestOf 50
  evidenceProofSha256 := digestOf proof
  expiresAt := expiresAt

/-- The reviewer approves the candidate with the first render. -/
def catalogApproval : DecisionRequest where
  candidateId := 7
  expectedVersion := 0
  action := .approve
  actorId := js "access:" ++ digestOf 49
  reviewerSessionId := js "access-session:" ++ digestOf 50
  evidenceProofSha256 := some (digestOf 51)

/-- What the database answers at a clock, with the next id of a table. -/
def reply (now : ℤ) (id : ℕ) : (query : Query) → Answer query
  | .clockTimestamp _ => now
  | .lockCandidate _ => some (⟨js "bunnpris-tjek", 1⟩ : CandidateSource)
  | .lockSource _ => ()
  | .shareScope _ => true
  | .currentVersion _ _ => (0 : ℕ)
  | .candidateRow _ _ => some catalogCandidate
  | .selectRender _ => some (⟨renderOf (catalogRender 51 1782907320000000) catalogCandidate
      1782907200000000, 1⟩ : EvidenceRender)
  | .isConsumed _ => false
  | .acceptDecision _ _ => true
  | .insertRender _ => some id
  | .insertOffer _ => some id
  | .insertAction _ => some (id, now)
  | .insertConsumption _ => some id

/-- The database with a fixed digest of crops. -/
def catalogDatabase : Database ℕ Call Query Answer ReviewError Result :=
  database fun _ _ _ => js "review-crop:" ++ digestOf 48

/-- Nothing is decided yet. -/
def undecided : ReviewState where
  clock := 1782907200000000
  running := []
  committed := []

/-- A session goes on for some statements at a clock. -/
def proceeds (session : ℕ) (now : ℤ) (id : ℕ) (statements : ℕ) :
    List (Step ℕ Call Query Answer) :=
  List.replicate statements (.proceeds session (reply now id))

/-- A render that expires two minutes later is recorded. -/
def recordsRender : List (Step ℕ Call Query Answer) :=
  .begins 1 (.record (catalogRender 51 1782907320000000)) :: proceeds 1 1782907200000000 1 8

/-- The capture is approved a minute after it was shown. -/
def approvesInTime : List (Step ℕ Call Query Answer) :=
  recordsRender ++ [.elapses 60000000, .begins 1 (.decide catalogApproval)] ++
    proceeds 1 1782907260000000 1 15

/-- The capture is approved in time and the approval is sound. -/
theorem decisionsAreSound_approvesInTime :
    ∃ st, catalogDatabase.system.runWhere DecidesInTime undecided approvesInTime = some st ∧
      (actions st).length = 1 ∧ DecisionsAreSound st := by
  have hsome : ((catalogDatabase.system.runWhere DecidesInTime undecided approvesInTime).map
      fun st => (actions st).length) = some 1 := by decide +kernel
  obtain ⟨st, hst, hlength⟩ := Option.map_eq_some_iff.mp hsome
  have hinit : catalogDatabase.system.Reachable DecidesInTime undecided := .init ⟨rfl, rfl⟩
  exact ⟨st, hst, hlength, decisionsAreSound_of_decidesInTime (hinit.runWhere hst)⟩

/-- Another call holds the lock of the candidate while the render expires, and the approval, which
has tested the render before, goes on. -/
def approvesAfterExpiry : List (Step ℕ Call Query Answer) :=
  recordsRender ++ [.begins 2 (.record (catalogRender 52 1782907400000000))] ++
    proceeds 2 1782907200000000 2 1 ++ [.begins 1 (.decide catalogApproval)] ++
    proceeds 1 1782907200000000 1 3 ++ [.elapses 130000000] ++ proceeds 2 1782907330000000 2 7 ++
    proceeds 1 1782907330000000 1 12

/-- An action that is not a rejection acts when the render that it consumes is expired. -/
def ActsLate (st : ReviewState) : Prop :=
  ∃ action ∈ actions st, action.action ≠ .reject ∧ ∀ render ∈ renders st,
    ∀ consumption ∈ consumptions st, consumption.reviewActionId = action.id →
      render.id = consumption.evidenceRenderId → render.expiresAt ≤ action.actedAt

instance : DecidablePred ActsLate := fun st =>
  inferInstanceAs (Decidable (∃ action ∈ actions st, _ ∧ ∀ render ∈ renders st,
    ∀ consumption ∈ consumptions st, _ → _ → _))

/-- **An approval that acts after its render has expired**: it has tested the render before it waits
for the lock of the candidate.

**Proof sketch.** In the run the only action is an approval ten seconds after the expiry of the
render that it consumes. -/
theorem not_decisionsAreSound_waiting :
    ¬ ∀ st, catalogDatabase.system.Reachable (fun _ _ => True) st → DecisionsAreSound st := by
  intro hall
  have hrun : ((catalogDatabase.system.run undecided approvesAfterExpiry).map fun st =>
      decide (ActsLate st)) = some true := by decide +kernel
  obtain ⟨st, hst, hlate⟩ := Option.map_eq_some_iff.mp hrun
  obtain ⟨action, haction, hne, hlate⟩ := of_decide_eq_true hlate
  have hinit : catalogDatabase.system.Reachable (fun _ _ => True) undecided := .init ⟨rfl, rfl⟩
  have hsound := hall st (hinit.run hst)
  obtain ⟨t, ht, request, hcall, haction'⟩ := hsound.decided action haction
  obtain ⟨consumption, hconsumption, hid, render, hrender, hrenderId, -, -, -, -, -, -, hexpires⟩ :=
    hsound.live t ht request hcall action haction' hne
  exact absurd hexpires (not_lt.mpr (hlate render hrender consumption hconsumption hid hrenderId))

end Handleplan.ReviewDecisions
