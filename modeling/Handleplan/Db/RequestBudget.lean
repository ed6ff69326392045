import Handleplan.Lib.JsString
import Handleplan.Lib.RowLocks
import Handleplan.Lib.SlidingWindow

/-!
# Request budgets

Processes claim requests of a provider, or of a public route, before they make them. A claim is a
transaction that takes the advisory lock of its bucket, deletes the events that have left the
window, counts the others, and inserts an event when there are fewer than the limit. `acquire`
claims until it is granted a request, waits in between, and ends when its deadline aborts it.

## Main definitions

* `RequestBudget.Policy` — the limit and the window of a bucket.
* `RequestBudget.claim`, `claimPublic` — the two functions that claim.
* `RequestBudget.database` — the functions over the two tables of events.
* `RequestBudget.acquire` — claims, timers and signals.

## Implementation notes

Times are microseconds, as `timestamptz` keeps them. A statement that reads the clock for each row
begins with a reading of its own, and is answered by rows that were right at some moment between the
two. Both tables are one, whose rows are those of a bucket. Processes of one provider are configured
alike. Aborting a transaction stands for cancelled statements and failures of the connection.
-/

namespace Handleplan.RequestBudget

open Interaction Sessions RowLocks JsString

/-! ### Options -/

/-- `ProviderRequestBudgetOptions`. -/
structure ProviderRequestBudgetOptions where
  providerKey : JsString
  limit : ℕ
  windowMs : ℕ
  maxWaitMs : ℕ

/-- `MAX_LIMIT`. -/
def maxLimit : ℕ := 10000

/-- `MAX_DURATION_MS`. -/
def maxDurationMs : ℕ := 86400000

/-- Whether a code unit is a lowercase letter. -/
def IsLowercase (u : UInt16) : Prop := 97 ≤ u.toNat ∧ u.toNat ≤ 122

/-- Whether a code unit may follow the first of a provider key. -/
def IsKeyUnit (u : UInt16) : Prop :=
  IsLowercase u ∨ (48 ≤ u.toNat ∧ u.toNat ≤ 57) ∨ u.toNat = 95 ∨ u.toNat = 45

instance : DecidablePred IsLowercase := fun _ => inferInstanceAs (Decidable (_ ∧ _))

instance : DecidablePred IsKeyUnit := fun _ => inferInstanceAs (Decidable (_ ∨ _ ∨ _ ∨ _))

/-- Whether a text is a lowercase provider identifier of 1-64 characters. -/
def IsProviderKey (providerKey : JsString) : Prop :=
  (∃ first ∈ providerKey.head?, IsLowercase first) ∧ (∀ u ∈ providerKey.tail, IsKeyUnit u) ∧
    providerKey.length ≤ 64

instance : DecidablePred IsProviderKey := fun _ => inferInstanceAs (Decidable (_ ∧ _ ∧ _))

/-- What the constructor of `PostgresProviderRequestBudget` demands. -/
structure ProviderRequestBudgetOptions.Valid (options : ProviderRequestBudgetOptions) : Prop where
  providerKey : IsProviderKey options.providerKey
  limit : 1 ≤ options.limit ∧ options.limit ≤ maxLimit
  windowMs : 1 ≤ options.windowMs ∧ options.windowMs ≤ maxDurationMs
  maxWaitMs : 1 ≤ options.maxWaitMs ∧ options.maxWaitMs ≤ maxDurationMs

/-- `PostgresProviderRequestBudget`, as it is constructed. -/
structure ProviderRequestBudget where
  options : ProviderRequestBudgetOptions
  valid : options.Valid

/-! ### Policies -/

/-- What is limited: the requests of a provider, or of a public route. -/
inductive Bucket where
  | provider (providerKey : JsString)
  | route (routeKey : JsString)
  deriving DecidableEq

/-- How many claims a bucket grants within a window, and in which unit, up to which maximum, it
tells when to retry. -/
structure Policy where
  limit : ℕ
  window : ℤ
  unit : ℤ
  maximum : ℤ
  limit_pos : 1 ≤ limit
  unit_pos : 0 < unit
  maximum_pos : 1 ≤ maximum
  window_le : window ≤ maximum * unit

/-- A millisecond in microseconds. -/
def millisecond : ℤ := 1000

/-- A second in microseconds. -/
def second : ℤ := 1000000

theorem milliseconds_le {windowMs maximumMs : ℕ} (h : windowMs ≤ maximumMs) :
    (windowMs * millisecond : ℤ) ≤ maximumMs * millisecond :=
  Int.mul_le_mul_of_nonneg_right (Int.ofNat_le.mpr h) (by decide)

/-- The policy of a provider. -/
def ProviderRequestBudget.policy (budget : ProviderRequestBudget) : Policy where
  limit := budget.options.limit
  window := budget.options.windowMs * millisecond
  unit := millisecond
  maximum := maxDurationMs
  limit_pos := budget.valid.limit.1
  unit_pos := by decide
  maximum_pos := by decide
  window_le := milliseconds_le budget.valid.windowMs.2

/-- The limits that are compiled into `claim_public_api_request_budget`. -/
def routeLimits : List (JsString × ℕ) :=
  [(js "discovery-impact", 120), (js "discovery-search", 300), (js "locations-current", 120),
    (js "locations-search", 60), (js "plan-candidates", 180), (js "plans", 120),
    (js "plans-travel", 60), (js "products-search", 300), (js "source-status", 120)]

/-- A limit for a minute. -/
def perMinute (limit : ℕ) (limit_pos : 1 ≤ limit) : Policy where
  limit := limit
  window := 60 * second
  unit := second
  maximum := 60
  limit_pos := limit_pos
  unit_pos := by decide
  maximum_pos := by decide
  window_le := le_refl _

/-- The policy of a route, unless its key is not supported. -/
def routePolicy? (routeKey : JsString) : Option Policy :=
  (routeLimits.find? fun entry => entry.1 = routeKey).bind fun entry =>
    if h : 1 ≤ entry.2 then some (perMinute entry.2 h) else none

/-- How the processes of each provider are configured. -/
abbrev Configuration := JsString → ProviderRequestBudget

/-- The policy of a bucket. -/
def policyOf (configured : Configuration) : Bucket → Option Policy
  | .provider providerKey => some (configured providerKey).policy
  | .route routeKey => routePolicy? routeKey

/-! ### Statements -/

/-- The events of a bucket that a statement has left, and when it ended. -/
structure Pruned where
  kept : List ℤ
  endedAt : ℤ

/-- The number of events of a bucket, and the first of them. -/
structure BudgetState where
  attemptCount : ℕ
  oldestClaim : Option ℤ
  deriving DecidableEq

/-- A statement of the functions. -/
inductive Query where
  | advisoryLock (bucket : Bucket)
  | tryAdvisoryLock (bucket : Bucket)
  | clockTimestamp
  | deleteExpired (bucket : Bucket) (window startedAt : ℤ)
  | selectState (bucket : Bucket)
  | insertEvent (bucket : Bucket)

/-- The answer of a statement; that of an insert is the default of `claimed_at`. -/
def Answer : Query → Type
  | .advisoryLock _ => Unit
  | .tryAdvisoryLock _ => Bool
  | .clockTimestamp => ℤ
  | .deleteExpired _ _ _ => Pruned
  | .selectState _ => BudgetState
  | .insertEvent _ => ℤ

/-- The errors of a claim. -/
inductive ClaimError where
  | unsupportedRoute | inconsistentState

/-- `RequestBudgetClaim`, and what `claim_public_api_request_budget` returns. -/
structure RequestBudgetClaim where
  acquired : Bool
  retryAfter : ℤ

/-- A program over the tables. -/
abbrev BudgetProg := Prog Query Answer ClaimError

/-- One statement. -/
def ask (query : Query) : BudgetProg (Answer query) := Prog.query query

/-- `ceil` of a quotient. -/
def ceilDiv (numerator denominator : ℤ) : ℤ := -((-numerator) / denominator)

/-- `least(maximum, greatest(1, ceil(..)))`, where `greatest` leaves out what is null. -/
def retryAfter (policy : Policy) (oldestClaim : Option ℤ) (now : ℤ) : ℤ :=
  min policy.maximum <| match oldestClaim with
    | none => 1
    | some oldest => max 1 (ceilDiv (oldest + policy.window - now) policy.unit)

/-! ### Functions -/

/-- The two statements after the lock. -/
def pruneAndCount (bucket : Bucket) (policy : Policy) : BudgetProg BudgetState := do
  let startedAt : ℤ ← ask .clockTimestamp
  let _ ← ask (.deleteExpired bucket policy.window startedAt)
  ask (.selectState bucket)

/-- The insert of a claim that is granted. -/
def grant (bucket : Bucket) : BudgetProg RequestBudgetClaim := do
  let _ ← ask (.insertEvent bucket)
  return ⟨true, 0⟩

/-- `PostgresProviderRequestBudget.claim`. -/
def claim (providerKey : JsString) (policy : Policy) : BudgetProg RequestBudgetClaim := do
  ask (.advisoryLock (.provider providerKey))
  let state ← pruneAndCount (.provider providerKey) policy
  let now : ℤ ← ask .clockTimestamp
  if state.attemptCount < policy.limit then
    grant (.provider providerKey)
  else
    pure ⟨false, retryAfter policy state.oldestClaim now⟩

/-- `claim_public_api_request_budget`. -/
def claimPublic (routeKey : JsString) : BudgetProg RequestBudgetClaim := do
  let policy ← Prog.orFail .unsupportedRoute (routePolicy? routeKey)
  let isLocked : Bool ← ask (.tryAdvisoryLock (.route routeKey))
  if isLocked then
    let state ← pruneAndCount (.route routeKey) policy
    if state.attemptCount < policy.limit then
      grant (.route routeKey)
    else
      let oldestClaim ← Prog.orFail .inconsistentState state.oldestClaim
      let now : ℤ ← ask .clockTimestamp
      pure ⟨false, retryAfter policy (some oldestClaim) now⟩
  else
    -- contention fails closed immediately
    pure ⟨false, 1⟩

/-! ### Events of a bucket -/

/-- A history of a session. -/
abbrev BudgetHistory := History Query Answer

/-- What one statement does to the events of a bucket. -/
def applyEvent (bucket : Bucket) (rows : List ℤ) : Event Query Answer → List ℤ
  | ⟨.deleteExpired other _ _, pruned⟩ =>
    if other = bucket then Pruned.kept pruned else rows
  | ⟨.insertEvent other, claimedAt⟩ =>
    if other = bucket then rows ++ [show ℤ from claimedAt] else rows
  | _ => rows

/-- The events of a bucket that are there after what was asked. -/
def rowsOf (bucket : Bucket) (log : BudgetHistory) : List ℤ := log.foldl (applyEvent bucket) []

/-- The event of a bucket that a statement inserts. -/
def inserted (bucket : Bucket) : Event Query Answer → Option ℤ
  | ⟨.insertEvent other, claimedAt⟩ => if other = bucket then some claimedAt else none
  | _ => none

/-- The claims of a bucket that were granted, by their events. -/
def grantsOf (bucket : Bucket) (log : BudgetHistory) : List ℤ := log.filterMap (inserted bucket)

/-- What `pruneAndCount` selects of rows. -/
def stateOf (rows : List ℤ) : BudgetState where
  attemptCount := rows.length
  oldestClaim := rows.min?

/-! ### Locks and answers -/

/-- `hashtextextended`, with the seed of the kind of bucket. -/
abbrev KeyHash := Bucket → ℤ

/-- The locks that a statement takes. -/
def locksOf (hash : KeyHash) : (query : Query) → Answer query → List (ℤ × Mode)
  | .advisoryLock bucket, _ => [(hash bucket, .update)]
  | .tryAdvisoryLock bucket, isLocked => bif isLocked then [(hash bucket, .update)] else []
  | _, _ => []

/-- The advisory locks of the statements. -/
def access (hash : KeyHash) : Access Query Answer ℤ Unit where
  locks event := locksOf hash event.query event.answer
  writes _ := []
  locked _ _ hw := nomatch hw

/-- A call of one of the functions. -/
inductive Call where
  | provider (providerKey : JsString)
  | route (routeKey : JsString)

/-- The bucket that a call claims. -/
def Call.bucket : Call → Bucket
  | .provider providerKey => .provider providerKey
  | .route routeKey => .route routeKey

/-- A state of the sessions. -/
abbrev BudgetDatabaseState := State ℕ Call Query Answer ClaimError RequestBudgetClaim

/-- A committed claim. -/
abbrev CommittedClaim := Committed Call Query Answer RequestBudgetClaim

/-- What committed claims have asked, in order. -/
def logOf (committed : List CommittedClaim) : BudgetHistory :=
  committed.flatMap fun t => t.history

/-- What a session has asked so far. -/
def historyOf (st : BudgetDatabaseState) (session : ℕ) : BudgetHistory :=
  ((st.transaction session).map fun t => t.history).getD []

/-- The events of a bucket that a session sees. -/
def rowsSeen (st : BudgetDatabaseState) (session : ℕ) (bucket : Bucket) : List ℤ :=
  rowsOf bucket (logOf st.committed ++ historyOf st session)

/-- Whether what is left of rows may be: all that are in the window when the statement ends, and
none that had left it when it began. -/
def IsPruned (rows : List ℤ) (window startedAt : ℤ) (pruned : Pruned) : Prop :=
  (SlidingWindow.after (pruned.endedAt - window) rows).Sublist pruned.kept ∧
    pruned.kept.Sublist (SlidingWindow.after (startedAt - window) rows)

instance (rows : List ℤ) (window startedAt : ℤ) : DecidablePred (IsPruned rows window startedAt) :=
  fun _ => inferInstanceAs (Decidable (_ ∧ _))

section Hash

variable (hash : KeyHash)

/-- Whether the tables, the locks and the clock give a statement its answer. -/
def IsAnswer (st : BudgetDatabaseState) (session : ℕ) : (query : Query) → Answer query → Prop
  | .advisoryLock _, _ => True
  | .tryAdvisoryLock bucket, isLocked =>
    @Eq Bool isLocked (decide ((access hash).IsFree st session (hash bucket) .update))
  | .clockTimestamp, reading => @Eq ℤ reading st.clock
  | .deleteExpired bucket window startedAt, pruned =>
    Pruned.endedAt pruned = st.clock ∧ IsPruned (rowsSeen st session bucket) window startedAt pruned
  | .selectState bucket, state => @Eq BudgetState state (stateOf (rowsSeen st session bucket))
  | .insertEvent _, claimedAt => @Eq ℤ claimedAt st.clock

instance (st : BudgetDatabaseState) (session : ℕ) (query : Query) (answer : Answer query) :
    Decidable (IsAnswer hash st session query answer) :=
  match query, answer with
  | .advisoryLock _, _ => .isTrue trivial
  | .tryAdvisoryLock _, isLocked => (inferInstance : DecidableEq Bool) isLocked _
  | .clockTimestamp, reading => (inferInstance : DecidableEq ℤ) reading _
  | .deleteExpired bucket window startedAt, pruned =>
    @instDecidableAnd _ _ ((inferInstance : DecidableEq ℤ) (Pruned.endedAt pruned) _)
      ((inferInstance : DecidablePred
        (IsPruned (rowsSeen st session bucket) window startedAt)) pruned)
  | .selectState _, state => (inferInstance : DecidableEq BudgetState) state _
  | .insertEvent _, claimedAt => (inferInstance : DecidableEq ℤ) claimedAt _

/-- Whether a statement of a session gets an answer: the locks it takes are free, and the answer is
what the session sees. -/
def Admits (st : BudgetDatabaseState) (session : ℕ) (query : Query) (answer : Answer query) : Prop :=
  (∀ lock ∈ locksOf hash query answer, (access hash).IsFree st session lock.1 lock.2) ∧
    IsAnswer hash st session query answer

instance (st : BudgetDatabaseState) (session : ℕ) (query : Query) (answer : Answer query) :
    Decidable (Admits hash st session query answer) :=
  inferInstanceAs (Decidable ((∀ lock ∈ _, _) ∧ _))

/-- The database, with the functions over it. -/
def database (configured : Configuration) :
    Database ℕ Call Query Answer ClaimError RequestBudgetClaim where
  program
    | .provider providerKey => claim providerKey (configured providerKey).policy
    | .route routeKey => claimPublic routeKey
  Admits := Admits hash
  decidableAdmits := fun _ _ _ _ => inferInstance

end Hash

/-! ### Acquiring -/

/-- What happens to one claim of `acquire`: its outcome, unless it throws, how long it takes by
itself, how long it takes to end once it is aborted, and how late the timer of the wait after it
is. -/
structure Attempt where
  outcome : Option RequestBudgetClaim
  lasts : ℕ
  ending : ℕ
  oversleep : ℕ

/-- How `acquire` fails: the codes of `ProviderRequestBudgetError`, and the other errors. -/
inductive AcquireError where
  | cancelled | maxWaitExceeded | invalidRetryDelay | claimFailed

/-- How `acquire` ends: when, after how many claims, and whether it fails. -/
structure Acquisition where
  endsAt : ℕ
  claims : ℕ
  outcome : Except AcquireError Unit

/-- When a claim ends that begins before the signal is aborted. -/
def Attempt.endsAt (attempt : Attempt) (abortsAt now : ℕ) : ℕ :=
  min (now + attempt.lasts) (abortsAt + attempt.ending)

/-- The outcome of a claim, unless it has ended because it was aborted. -/
def Attempt.outcome? (attempt : Attempt) (abortsAt now : ℕ) : Option RequestBudgetClaim :=
  if now + attempt.lasts ≤ abortsAt + attempt.ending then attempt.outcome else none

/-- Milliseconds in microseconds. -/
def milliseconds (durationMs : ℕ) : ℕ := 1000 * durationMs

/-- `acquireWithinBudget`, from a moment on, after so many claims and waits. -/
def acquireWithinBudget (maxWaitMs : ℕ) (attempts : ℕ → Attempt) (abortsAt now waitedMs claims : ℕ) :
    Acquisition :=
  if abortsAt ≤ now then ⟨now, claims, .error .cancelled⟩
  else
    let attempt := attempts claims
    let ended := attempt.endsAt abortsAt now
    match attempt.outcome? abortsAt now with
    | none =>
      ⟨ended, claims + 1, .error (if abortsAt ≤ ended then .cancelled else .claimFailed)⟩
    | some claim =>
      if claim.acquired then ⟨ended, claims + 1, .ok ()⟩
      else if hretry : claim.retryAfter < 1 then ⟨ended, claims + 1, .error .invalidRetryDelay⟩
      else if hremaining : maxWaitMs ≤ waitedMs then
        ⟨ended, claims + 1, .error .maxWaitExceeded⟩
      else
        let delayMs := min claim.retryAfter.toNat (maxWaitMs - waitedMs)
        let woken := ended + milliseconds delayMs + attempt.oversleep
        -- the wait ends at once when the signal is aborted
        if woken < abortsAt then
          acquireWithinBudget maxWaitMs attempts abortsAt woken (waitedMs + delayMs) (claims + 1)
        else ⟨max ended abortsAt, claims + 1, .error .cancelled⟩
  termination_by maxWaitMs - waitedMs
  decreasing_by omega

/-- `acquire`, where the signal of the caller is aborted at a moment, or never. -/
def acquire (budget : ProviderRequestBudget) (attempts : ℕ → Attempt) (abortedAt : Option ℕ) :
    Acquisition :=
  let deadline := milliseconds budget.options.maxWaitMs
  let isCancelled (now : ℕ) : Bool := abortedAt.any fun moment => moment ≤ now
  if isCancelled 0 then ⟨0, 0, .error .cancelled⟩
  else
    let abortsAt := abortedAt.elim deadline fun moment => min moment deadline
    let acquisition :=
      acquireWithinBudget budget.options.maxWaitMs attempts abortsAt 0 0 0
    { acquisition with
      outcome :=
        if isCancelled acquisition.endsAt then .error .cancelled
        else if deadline ≤ acquisition.endsAt then .error .maxWaitExceeded
        else acquisition.outcome }

end Handleplan.RequestBudget
