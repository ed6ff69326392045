import Handleplan.Domain.OfferIngestionContracts
import Handleplan.Lib.Sessions

/-!
# Private review decisions

A reviewer is shown a capture, which records an evidence render, and then decides about the
candidate; an approval consumes the render. Both are functions of the database. Reviewers call them
in sessions of their own, so that the statements of different calls interleave.

## Main definitions

* `ReviewDecisions.Query`, `Answer` — the statements of the functions.
* `ReviewDecisions.privateReviewRecordEvidenceRenderV1` — an evidence render is recorded.
* `ReviewDecisions.privateReviewDecideV1`, `privateReviewDecideV2` — a decision.
* `ReviewDecisions.Admits` — how the tables, the locks and the clock answer a statement.
* `ReviewDecisions.database` — the functions over that database.

## Implementation notes

Times are microseconds, as `timestamptz` keeps them. The isolation level is `READ COMMITTED`: a
statement sees what is committed and what its own transaction has written. Whether a candidate is
reviewable, and whether a decision agrees with it and has a target, depends on tables that these
functions only read; those statements may get any answer. A call may be aborted at any statement,
which includes a deadlock, a lost connection and the checks of texts that are left out. Advisory
locks and row locks are released when a transaction ends.
-/

namespace Handleplan.ReviewDecisions

open JsString Interaction Sessions

/-! ### Requests and rows -/

/-- `action` of a review. -/
inductive ReviewAction where
  | approve | correctAndApprove | reject
  deriving DecidableEq

/-- The arguments of `private_review_record_evidence_render_v1`. -/
structure RenderRequest where
  candidateId : ℕ
  expectedVersion : ℕ
  captureChecksum : JsString
  cropReference : JsString
  presentation : JsString
  rightsClassification : RightsClassification
  actorId : JsString
  reviewerSessionId : JsString
  evidenceProofSha256 : JsString
  /-- In microseconds. -/
  expiresAt : ℤ

/-- The arguments of `private_review_decide_v2`, less what the decision says about the offer. -/
structure DecisionRequest where
  candidateId : ℕ
  expectedVersion : ℕ
  action : ReviewAction
  actorId : JsString
  reviewerSessionId : JsString
  evidenceProofSha256 : Option JsString

/-- The values of a row of `private_review_evidence_renders`. -/
structure RenderValues where
  candidateId : ℕ
  expectedVersion : ℕ
  captureChecksum : JsString
  cropReference : JsString
  presentation : JsString
  rightsClassification : RightsClassification
  mimeType : JsString
  byteLength : ℕ
  actorId : JsString
  reviewerSessionId : JsString
  evidenceProofSha256 : JsString
  /-- In microseconds, like `expiresAt`. -/
  renderedAt : ℤ
  expiresAt : ℤ
  deriving DecidableEq

/-- A row of `private_review_evidence_renders`. -/
structure EvidenceRender extends RenderValues where
  id : ℕ
  deriving DecidableEq

/-- The values of a row of `approved_offers` that bind it to its review. -/
structure OfferValues where
  candidateId : ℕ
  approvedAt : ℤ
  deriving DecidableEq

/-- A row of `approved_offers`. -/
structure ApprovedOffer extends OfferValues where
  id : ℕ

/-- The values of a row of `review_actions`. -/
structure ActionValues where
  candidateId : ℕ
  offerId : Option ℕ
  actorId : JsString
  action : ReviewAction
  expectedVersion : ℕ
  actedAt : ℤ
  decisionBoundaryVersion : ℕ
  deriving DecidableEq

/-- A row of `review_actions`. -/
structure ReviewActionRow extends ActionValues where
  id : ℕ
  createdAt : ℤ

/-- The values of a row of `private_review_evidence_consumptions`. -/
structure ConsumptionValues where
  evidenceRenderId : ℕ
  reviewActionId : ℕ
  candidateId : ℕ
  consumedAt : ℤ
  deriving DecidableEq

/-- A row of `private_review_evidence_consumptions`. -/
structure EvidenceConsumption extends ConsumptionValues where
  id : ℕ

/-- The source and the scope of the publication of a candidate. -/
structure CandidateSource where
  sourceId : JsString
  geographicScopeId : ℕ

/-- A row of `private_review_candidate_rows_v1`, the columns these functions read. -/
structure ReviewCandidate where
  sourceId : JsString
  captureChecksum : JsString
  evidenceLocator : JsString
  rightsClassification : RightsClassification
  mimeType : JsString
  byteLength : ℕ

/-! ### Statements -/

/-- Which reading of the clock is kept. -/
inductive ClockReading where
  /-- `v_render_now`. -/
  | renderNow
  /-- `v_decision_now` of `private_review_decide_v2`, before the render is read. -/
  | evidenceNow
  /-- `v_decision_now` of `private_review_decide_v1`, after the locks. -/
  | decisionNow
  /-- `v_decision_now` of `private_review_decide_v2`, after the decision. -/
  | consumedNow
  deriving DecidableEq

/-- The statements of the functions. -/
inductive Query where
  | clockTimestamp (reading : ClockReading)
  | lockCandidate (candidateId : ℕ)
  | lockSource (sourceId : JsString)
  | shareScope (geographicScopeId : ℕ)
  | currentVersion (candidateId : ℕ) (asOf : ℤ)
  | candidateRow (candidateId : ℕ) (asOf : ℤ)
  | selectRender (evidenceProofSha256 : JsString)
  | isConsumed (evidenceRenderId : ℕ)
  | acceptDecision (candidateId : ℕ) (asOf : ℤ)
  | insertRender (values : RenderValues)
  | insertOffer (values : OfferValues)
  | insertAction (values : ActionValues)
  | insertConsumption (values : ConsumptionValues)
  deriving DecidableEq

/-- What a statement answers; an insertion answers its generated values, and none when it violates a
unique constraint. -/
def Answer : Query → Type
  | .clockTimestamp _ => ℤ
  | .lockCandidate _ => Option CandidateSource
  | .lockSource _ => Unit
  | .shareScope _ => Bool
  | .currentVersion _ _ => ℕ
  | .candidateRow _ _ => Option ReviewCandidate
  | .selectRender _ => Option EvidenceRender
  | .isConsumed _ => Bool
  | .acceptDecision _ _ => Bool
  | .insertRender _ => Option ℕ
  | .insertOffer _ => Option ℕ
  | .insertAction _ => Option (ℕ × ℤ)
  | .insertConsumption _ => Option ℕ

/-- The conditions that the functions raise. -/
inductive ReviewError where
  | invalidEvidenceRender | invalidDecisionRequest | notFound | evidenceUnavailable
  | versionConflict | decisionMismatch | uniqueViolation

/-- The rows that the functions return. -/
inductive Result where
  | rendered (evidenceRenderId : ℕ) (renderedAt expiresAt : ℤ)
  | decided (actionId : ℕ) (offerId : Option ℕ) (newVersion : ℕ) (actedAt : ℤ)

/-- A function of the database. -/
abbrev Program := Prog Query Answer ReviewError

/-- One statement. -/
def ask (query : Query) : Program (Answer query) := Prog.query query

/-! ### Recording an evidence render -/

/-- The pattern of an actor or a session: a prefix and a digest. -/
def IsAccessIdentifier (lead : JsString) (s : JsString) : Prop :=
  s.take lead.length = lead ∧ Sha256Schema (s.drop lead.length)

instance (lead : JsString) : DecidablePred (IsAccessIdentifier lead) :=
  fun _ => inferInstanceAs (Decidable (_ ∧ _))

/-- The rights classifications under which a capture is shown. -/
def IsShown (rightsClassification : RightsClassification) : Prop :=
  rightsClassification ∈ [.privateReview, .publicDisplay]

/-- The media types of a complete image. -/
def IsImage (mimeType : JsString) : Prop :=
  mimeType ∈ [js "image/jpeg", js "image/png", js "image/webp"]

instance : DecidablePred IsShown := fun _ => inferInstanceAs (Decidable (_ ∈ _))

instance : DecidablePred IsImage := fun _ => inferInstanceAs (Decidable (_ ∈ _))

/-- The checks of the arguments of `private_review_record_evidence_render_v1`. -/
@[mk_iff] structure RenderRequestIsValid (request : RenderRequest) : Prop where
  candidateId : PositiveSafeInteger request.candidateId
  captureChecksum : Sha256Schema request.captureChecksum
  cropReference : IsAccessIdentifier (js "review-crop:") request.cropReference
  presentation : request.presentation = js "full_capture"
  rightsClassification : IsShown request.rightsClassification
  actorId : IsAccessIdentifier (js "access:") request.actorId
  reviewerSessionId : IsAccessIdentifier (js "access-session:") request.reviewerSessionId
  evidenceProofSha256 : Sha256Schema request.evidenceProofSha256
  expiresAt : request.expiresAt % 1000 = 0

instance : DecidablePred RenderRequestIsValid :=
  fun _ => decidable_of_iff' _ (renderRequestIsValid_iff _)

/-- The locks that both functions take first: the candidate, its source and its scope. -/
def lockCandidateSource (candidateId : ℕ) : Program CandidateSource := do
  let candidate : Option CandidateSource ← ask (.lockCandidate candidateId)
  let source ← Prog.orFail .notFound candidate
  let _ : Unit ← ask (.lockSource source.sourceId)
  let found : Bool ← ask (.shareScope source.geographicScopeId)
  Prog.require (found = true) .notFound
  pure source

/-- The candidate as reviewers see it, when its version is the expected one and the first. -/
def reviewableCandidate (candidateId expectedVersion : ℕ) (source : CandidateSource) (now : ℤ) :
    Program ReviewCandidate := do
  let version : ℕ ← ask (.currentVersion candidateId now)
  Prog.require (expectedVersion = version ∧ version = 0) .versionConflict
  let row : Option ReviewCandidate ← ask (.candidateRow candidateId now)
  let candidate ← Prog.orFail .notFound row
  Prog.require (candidate.sourceId = source.sourceId) .notFound
  pure candidate

section

variable (reviewCropReference : ℕ → JsString → JsString → JsString)

/-- Whether a render request describes the capture of its candidate. -/
def RendersCapture (request : RenderRequest) (candidate : ReviewCandidate) : Prop :=
  request.captureChecksum = candidate.captureChecksum ∧
    request.cropReference = reviewCropReference request.candidateId candidate.captureChecksum
      candidate.evidenceLocator ∧
    request.rightsClassification = candidate.rightsClassification ∧
    IsShown candidate.rightsClassification ∧ IsImage candidate.mimeType ∧
    1 ≤ candidate.byteLength ∧ candidate.byteLength ≤ 52428800

instance (request : RenderRequest) (candidate : ReviewCandidate) :
    Decidable (RendersCapture reviewCropReference request candidate) :=
  inferInstanceAs (Decidable (_ ∧ _ ∧ _ ∧ _ ∧ _ ∧ _ ∧ _))

/-- The row of a render of a candidate. -/
def renderOf (request : RenderRequest) (candidate : ReviewCandidate) (now : ℤ) :
    RenderValues where
  candidateId := request.candidateId
  expectedVersion := request.expectedVersion
  captureChecksum := request.captureChecksum
  cropReference := request.cropReference
  presentation := request.presentation
  rightsClassification := request.rightsClassification
  mimeType := candidate.mimeType
  byteLength := candidate.byteLength
  actorId := request.actorId
  reviewerSessionId := request.reviewerSessionId
  evidenceProofSha256 := request.evidenceProofSha256
  renderedAt := now
  expiresAt := request.expiresAt

/-- `private_review_record_evidence_render_v1`. -/
def privateReviewRecordEvidenceRenderV1 (request : RenderRequest) : Program Result := do
  Prog.require (RenderRequestIsValid request) .invalidEvidenceRender
  let source ← lockCandidateSource request.candidateId
  let now : ℤ ← ask (.clockTimestamp .renderNow)
  Prog.require (now < request.expiresAt ∧ request.expiresAt ≤ now + 125000000)
    .evidenceUnavailable
  let candidate ← reviewableCandidate request.candidateId request.expectedVersion source now
  Prog.require (RendersCapture reviewCropReference request candidate) .evidenceUnavailable
  let inserted : Option ℕ ← ask (.insertRender (renderOf request candidate now))
  let id ← Prog.orFail .evidenceUnavailable inserted
  pure (.rendered id now request.expiresAt)

end

/-! ### Deciding -/

/-- The checks of the arguments of `private_review_decide_v1`. -/
@[mk_iff] structure DecisionIsValid (request : DecisionRequest) : Prop where
  candidateId : PositiveSafeInteger request.candidateId
  actorId : IsAccessIdentifier (js "access:") request.actorId

/-- The checks of the arguments of `private_review_decide_v2`. -/
@[mk_iff] structure DecisionRequestIsValid (request : DecisionRequest) : Prop where
  actorId : IsAccessIdentifier (js "access:") request.actorId
  reviewerSessionId : IsAccessIdentifier (js "access-session:") request.reviewerSessionId
  reject : request.action = .reject → request.evidenceProofSha256 = none
  approve : request.action ≠ .reject → ∃ s ∈ request.evidenceProofSha256, Sha256Schema s

instance : DecidablePred DecisionIsValid := fun _ => decidable_of_iff' _ (decisionIsValid_iff _)

instance (request : DecisionRequest) :
    Decidable (∃ s ∈ request.evidenceProofSha256, Sha256Schema s) :=
  match request.evidenceProofSha256 with
  | none => isFalse (by simp)
  | some s => decidable_of_iff (Sha256Schema s) (by simp)

instance : DecidablePred DecisionRequestIsValid :=
  fun _ => decidable_of_iff' _ (decisionRequestIsValid_iff _)

variable (request : DecisionRequest)

/-- The offer of an approval, after the decision is compared with the candidate. -/
def insertOfferOf (now : ℤ) : Program (Option ℕ) :=
  if request.action = .reject then pure none
  else do
    let accepted : Bool ← ask (.acceptDecision request.candidateId now)
    Prog.require (accepted = true) .decisionMismatch
    let inserted : Option ℕ ← ask (.insertOffer ⟨request.candidateId, now⟩)
    let id ← Prog.orFail .uniqueViolation inserted
    pure (some id)

/-- `private_review_decide_v1`, under the transaction-local settings of its caller. -/
def privateReviewDecideV1 (evidenceAuthorized : Bool) (decisionBoundaryVersion : ℕ) :
    Program ReviewActionRow := do
  Prog.require (DecisionIsValid request) .invalidDecisionRequest
  let source ← lockCandidateSource request.candidateId
  let now : ℤ ← ask (.clockTimestamp .decisionNow)
  let _ ← reviewableCandidate request.candidateId request.expectedVersion source now
  Prog.require (request.action ≠ .reject → evidenceAuthorized = true) .evidenceUnavailable
  let offerId ← insertOfferOf request now
  let values : ActionValues :=
    { candidateId := request.candidateId
      offerId := offerId
      actorId := request.actorId
      action := request.action
      expectedVersion := request.expectedVersion
      actedAt := now
      decisionBoundaryVersion := decisionBoundaryVersion }
  let inserted : Option (ℕ × ℤ) ← ask (.insertAction values)
  let generated ← Prog.orFail .uniqueViolation inserted
  pure ⟨values, generated.1, generated.2⟩

/-- Whether a render is live evidence for a decision at a clock. -/
@[mk_iff] structure IsLive (request : DecisionRequest) (now : ℤ) (render : EvidenceRender) :
    Prop where
  candidateId : render.candidateId = request.candidateId
  expectedVersion : render.expectedVersion = request.expectedVersion
  actorId : render.actorId = request.actorId
  reviewerSessionId : render.reviewerSessionId = request.reviewerSessionId
  presentation : render.presentation = js "full_capture"
  mimeType : IsImage render.mimeType
  rightsClassification : IsShown render.rightsClassification
  rendered : render.renderedAt ≤ now
  expires : now < render.expiresAt

instance (request : DecisionRequest) (now : ℤ) : DecidablePred (IsLive request now) :=
  fun _ => decidable_of_iff' _ (isLive_iff _ _ _)

/-- The render that an approval consumes: it is live when the clock is read, which is before the
render is locked. -/
def liveRender : Program EvidenceRender := do
  let proof ← Prog.orFail .invalidDecisionRequest request.evidenceProofSha256
  let now : ℤ ← ask (.clockTimestamp .evidenceNow)
  let selected : Option EvidenceRender ← ask (.selectRender proof)
  let render ← Prog.orFail .evidenceUnavailable selected
  Prog.require (IsLive request now render) .evidenceUnavailable
  let consumed : Bool ← ask (.isConsumed render.id)
  Prog.require (consumed = false) .evidenceUnavailable
  pure render

/-- The consumption of a render by an action. -/
def consume (render : EvidenceRender) (action : ReviewActionRow) :
    Program Unit := do
  let now : ℤ ← ask (.clockTimestamp .consumedNow)
  let inserted : Option ℕ ←
    ask (.insertConsumption ⟨render.id, action.id, request.candidateId, now⟩)
  let _ ← Prog.orFail .uniqueViolation inserted
  pure ()

/-- `private_review_decide_v2`. -/
def privateReviewDecideV2 : Program Result := do
  Prog.require (DecisionRequestIsValid request) .invalidDecisionRequest
  if request.action = .reject then
    let action ← privateReviewDecideV1 request false 2
    pure (.decided action.id action.offerId 1 action.actedAt)
  else
    let render ← liveRender request
    let action ← privateReviewDecideV1 request true 2
    consume request render action
    pure (.decided action.id action.offerId 1 action.actedAt)

/-! ### Tables -/

/-- A row that a statement has inserted. -/
inductive Row where
  | render (render : EvidenceRender)
  | offer (offer : ApprovedOffer)
  | action (action : ReviewActionRow)
  | consumption (consumption : EvidenceConsumption)

/-- The row that a statement inserts. -/
def rowOf : (query : Query) → Answer query → Option Row
  | .insertRender values, inserted =>
    Option.map (fun id : ℕ => .render ⟨values, id⟩) inserted
  | .insertOffer values, inserted =>
    Option.map (fun id : ℕ => .offer ⟨values, id⟩) inserted
  | .insertAction values, inserted =>
    Option.map (fun generated : ℕ × ℤ => .action ⟨values, generated.1, generated.2⟩) inserted
  | .insertConsumption values, inserted =>
    Option.map (fun id : ℕ => .consumption ⟨values, id⟩) inserted
  | _, _ => none

/-- `private_review_evidence_renders`. -/
def Row.render? : Row → Option EvidenceRender
  | .render row => some row
  | _ => none

/-- `approved_offers`. -/
def Row.offer? : Row → Option ApprovedOffer
  | .offer row => some row
  | _ => none

/-- `review_actions`. -/
def Row.action? : Row → Option ReviewActionRow
  | .action row => some row
  | _ => none

/-- `private_review_evidence_consumptions`. -/
def Row.consumption? : Row → Option EvidenceConsumption
  | .consumption row => some row
  | _ => none

/-- A statement and its answer. -/
abbrev ReviewEvent := Event Query Answer

/-- What a transaction has asked and was answered. -/
abbrev ReviewHistory := History Query Answer

/-- The rows that a transaction has inserted. -/
def rowsOf (h : ReviewHistory) : List Row := h.filterMap fun event => rowOf event.query event.answer

/-- The calls of the functions. -/
inductive Call where
  | record (request : RenderRequest)
  | decide (request : DecisionRequest)

/-- The state of the database and its sessions. -/
abbrev ReviewState := State ℕ Call Query Answer ReviewError Result

variable (st : ReviewState)

/-- The rows that are committed. -/
def committedRows : List Row := st.committed.flatMap fun t => rowsOf t.history

/-- The committed renders. -/
def renders : List EvidenceRender := (committedRows st).filterMap Row.render?

/-- The committed offers. -/
def offers : List ApprovedOffer := (committedRows st).filterMap Row.offer?

/-- The committed actions. -/
def actions : List ReviewActionRow := (committedRows st).filterMap Row.action?

/-- The committed consumptions. -/
def consumptions : List EvidenceConsumption :=
  (committedRows st).filterMap Row.consumption?

/-! ### Constraints and locks -/

/-- What must be unique: primary keys, and the unique constraints of the tables. -/
inductive UniqueKey where
  | renderId (id : ℕ)
  | renderProof (evidenceProofSha256 : JsString)
  | offerId (id : ℕ)
  | offerCandidate (candidateId : ℕ)
  | actionId (id : ℕ)
  | actionVersion (candidateId expectedVersion : ℕ)
  | consumptionId (id : ℕ)
  | consumedRender (evidenceRenderId : ℕ)
  | consumingAction (reviewActionId : ℕ)
  deriving DecidableEq

/-- The unique constraints that an insertion is checked against. -/
def constraintsOf : Query → List UniqueKey
  | .insertRender values => [.renderProof values.evidenceProofSha256]
  | .insertOffer values => [.offerCandidate values.candidateId]
  | .insertAction values => [.actionVersion values.candidateId values.expectedVersion]
  | .insertConsumption values =>
    [.consumedRender values.evidenceRenderId, .consumingAction values.reviewActionId]
  | _ => []

/-- The primary key of a row. -/
def Row.primaryKey : Row → UniqueKey
  | .render row => .renderId row.id
  | .offer row => .offerId row.id
  | .action row => .actionId row.id
  | .consumption row => .consumptionId row.id

/-- The keys that a statement takes. -/
def keys (event : ReviewEvent) : List UniqueKey :=
  match rowOf event.query event.answer with
  | some row => row.primaryKey :: constraintsOf event.query
  | none => []

/-- What a transaction may hold to its end. -/
inductive Lock where
  | candidate (candidateId : ℕ)
  | source (sourceId : JsString)
  | render (evidenceRenderId : ℕ)
  deriving DecidableEq

/-- The locks that a statement takes. -/
def locksOf : (query : Query) → Answer query → List Lock
  | .lockCandidate candidateId, candidate =>
    ((candidate : Option CandidateSource).map fun _ => Lock.candidate candidateId).toList
  | .lockSource sourceId, _ => [.source sourceId]
  | .selectRender _, selected =>
    ((selected : Option EvidenceRender).map fun render => Lock.render render.id).toList
  | _, _ => []

/-- Whether no other session holds a lock. -/
def IsFree (st : ReviewState) (session : ℕ) (lock : Lock) : Prop :=
  ∀ p ∈ st.running, p.1 ≠ session →
    ∀ event ∈ p.2.history, lock ∉ locksOf event.query event.answer

instance (st : ReviewState) (session : ℕ) (lock : Lock) : Decidable (IsFree st session lock) :=
  inferInstanceAs (Decidable (∀ p ∈ _, _ → ∀ event ∈ _, _))

/-- The version of a candidate after the actions that were created by a clock. -/
def currentVersionOf (actions : List ReviewActionRow) (candidateId : ℕ) (asOf : ℤ) : ℕ :=
  match ((actions.filter fun action =>
      action.candidateId = candidateId ∧ action.createdAt ≤ asOf).map
        fun action => action.expectedVersion).max? with
  | some expectedVersion => expectedVersion + 1
  | none => 0

/-- The rows that a session sees: what is committed, and what it has inserted itself. -/
def visibleRows (st : ReviewState) (session : ℕ) : List Row :=
  committedRows st ++
    (st.running.filter fun p => p.1 = session).flatMap fun p => rowsOf p.2.history

/-- The keys that an insertion of a session collides with. -/
def visibleKeys (st : ReviewState) (session : ℕ) : List UniqueKey :=
  Database.committedKeys keys st ++
    (st.running.filter fun p => p.1 = session).flatMap fun p => Database.keysOf keys p.2.history

/-- Whether an insertion gets its answer. One that repeats a key fails; one that repeats a key of a
transaction under way waits for its end. -/
def Inserts (st : ReviewState) (session : ℕ) (query : Query) (answer : Answer query) : Prop :=
  if (rowOf query answer).isSome then Database.Fresh keys st (keys ⟨query, answer⟩)
  else ∃ key ∈ constraintsOf query, key ∈ visibleKeys st session

instance (st : ReviewState) (ks : List UniqueKey) : Decidable (Database.Fresh keys st ks) :=
  inferInstanceAs (Decidable (_ ∧ ∀ k ∈ ks, _ ∧ ∀ p ∈ st.running, _))

instance (st : ReviewState) (session : ℕ) (query : Query) (answer : Answer query) :
    Decidable (Inserts st session query answer) :=
  inferInstanceAs (Decidable (if (rowOf query answer).isSome then _ else
    ∃ key ∈ constraintsOf query, key ∈ visibleKeys st session))

/-- Whether an action is created at a clock: a trigger stamps it after the locks are taken. -/
def IsCreatedAt (now : ℤ) (inserted : Option (ℕ × ℤ)) : Prop :=
  ∀ generated ∈ inserted, generated.2 = now

instance (now : ℤ) : DecidablePred (IsCreatedAt now) :=
  fun inserted => inferInstanceAs (Decidable (∀ generated ∈ inserted, _))

/-- Whether the tables and the clock give a statement its answer. -/
def IsAnswer (st : ReviewState) (session : ℕ) : (query : Query) → Answer query → Prop
  | .clockTimestamp _, now => @Eq ℤ now st.clock
  | .currentVersion candidateId asOf, version =>
    @Eq ℕ version
      (currentVersionOf ((visibleRows st session).filterMap Row.action?) candidateId asOf)
  | .selectRender proof, selected =>
    @Eq (Option EvidenceRender) selected
      ((renders st).find? fun render => render.evidenceProofSha256 = proof)
  | .isConsumed evidenceRenderId, consumed =>
    @Eq Bool consumed
      (((visibleRows st session).filterMap Row.consumption?).any fun consumption =>
        consumption.evidenceRenderId = evidenceRenderId)
  | .insertRender values, inserted => Inserts st session (.insertRender values) inserted
  | .insertOffer values, inserted => Inserts st session (.insertOffer values) inserted
  | .insertAction values, inserted =>
    Inserts st session (.insertAction values) inserted ∧ IsCreatedAt st.clock inserted
  | .insertConsumption values, inserted => Inserts st session (.insertConsumption values) inserted
  | .lockCandidate _, _ => True
  | .lockSource _, _ => True
  | .shareScope _, _ => True
  | .candidateRow _ _, _ => True
  | .acceptDecision _ _, _ => True

instance (st : ReviewState) (session : ℕ) (query : Query) (answer : Answer query) :
    Decidable (IsAnswer st session query answer) :=
  match query, answer with
  | .clockTimestamp _, now => (inferInstance : DecidableEq ℤ) now _
  | .currentVersion _ _, version => (inferInstance : DecidableEq ℕ) version _
  | .selectRender _, selected => (inferInstance : DecidableEq (Option EvidenceRender)) selected _
  | .isConsumed _, consumed => (inferInstance : DecidableEq Bool) consumed _
  | .insertRender _, _ => inferInstanceAs (Decidable (Inserts _ _ _ _))
  | .insertOffer _, _ => inferInstanceAs (Decidable (Inserts _ _ _ _))
  | .insertAction _, inserted =>
    @instDecidableAnd _ _ inferInstance
      ((inferInstance : DecidablePred (IsCreatedAt st.clock)) inserted)
  | .insertConsumption _, _ => inferInstanceAs (Decidable (Inserts _ _ _ _))
  | .lockCandidate _, _ => .isTrue trivial
  | .lockSource _, _ => .isTrue trivial
  | .shareScope _, _ => .isTrue trivial
  | .candidateRow _ _, _ => .isTrue trivial
  | .acceptDecision _ _, _ => .isTrue trivial

/-- Whether a statement of a session gets an answer: the locks it takes are free, and the answer is
what the database holds. -/
def Admits (st : ReviewState) (session : ℕ) (query : Query) (answer : Answer query) : Prop :=
  (∀ lock ∈ locksOf query answer, IsFree st session lock) ∧ IsAnswer st session query answer

instance (st : ReviewState) (session : ℕ) (query : Query) (answer : Answer query) :
    Decidable (Admits st session query answer) :=
  inferInstanceAs (Decidable (_ ∧ _))

/-- The database, with the functions reviewers may call. -/
def database (reviewCropReference : ℕ → JsString → JsString → JsString) :
    Database ℕ Call Query Answer ReviewError Result where
  program
    | .record request => privateReviewRecordEvidenceRenderV1 reviewCropReference request
    | .decide request => privateReviewDecideV2 request
  Admits := Admits
  decidableAdmits := fun _ _ _ _ => inferInstance

end Handleplan.ReviewDecisions
