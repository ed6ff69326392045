import Handleplan.Lib.JsString
import Handleplan.Lib.RowLocks

/-!
# Worker leases

A worker holds a lease for a while, under a generation: the clock at which it was acquired.
Acquiring, renewing and releasing a lease are transactions of their own, one at a time for each key.
A guarded transaction looks the lease up when it begins, and locks it before it commits.

## Main definitions

* `WorkerLease.LeaseVersion` — a version of the row of a lease.
* `WorkerLease.claimLease`, `renewLease`, `releaseLease`, `verifyFence` — the functions.
* `WorkerLease.access` — the locks and the writes of the statements.
* `WorkerLease.database` — the functions over the table.

## Implementation notes

Times are microseconds, as `timestamptz` keeps them. Every reading of the clock is later than those
before it. A statement reads the clock first and then waits for its locks, so that `clock_timestamp`
is a statement of its own here; a statement that waited for a row evaluates its condition again when
the row has changed, and by a clock of then or by the one it has read. A version carries what it was
written for. The token of a fence is the identity it decodes to, and aborting stands for
cancellation, timeouts and failures of the connection.
-/

namespace Handleplan.WorkerLease

open Interaction Sessions RowLocks JsString

/-! ### Leases -/

/-- `WorkerLeaseAcquireInput`. -/
structure LeaseInput where
  leaseKey : JsString
  ownerId : JsString
  ttlMs : ℕ

/-- `LeaseIdentity`. -/
structure LeaseIdentity where
  generation : ℤ
  leaseKey : JsString
  ownerId : JsString

/-- A row of `worker_leases`, without its key. -/
structure LeaseRow where
  ownerId : JsString
  acquiredAt : ℤ
  expiresAt : ℤ
  heartbeatAt : ℤ

/-- A version of a row: as it was claimed or renewed, or that it was deleted. -/
inductive LeaseVersion where
  | claimed (row : LeaseRow)
  | renewed (row : LeaseRow)
  | deleted (identity : LeaseIdentity)

/-- The row of a version, unless it was deleted. -/
def LeaseVersion.row? : LeaseVersion → Option LeaseRow
  | .claimed row => some row
  | .renewed row => some row
  | .deleted _ => none

/-- Whether a row is that of an identity. -/
def LeaseRow.Is (row : LeaseRow) (identity : LeaseIdentity) : Prop :=
  row.ownerId = identity.ownerId ∧ row.acquiredAt = identity.generation

instance (row : LeaseRow) (identity : LeaseIdentity) : Decidable (row.Is identity) :=
  inferInstanceAs (Decidable (_ ∧ _))

/-- `requireBoundedIdentity`. -/
def BoundedIdentity (maximum : ℕ) (value : JsString) : Prop :=
  1 ≤ value.length ∧ value.length ≤ maximum ∧ 1 ≤ (trim value).length

instance (maximum : ℕ) : DecidablePred (BoundedIdentity maximum) :=
  fun _ => inferInstanceAs (Decidable (_ ∧ _ ∧ _))

/-- `normalizeAcquireInput`: what it demands. -/
def NormalizedLeaseInput (input : LeaseInput) : Prop :=
  BoundedIdentity 120 input.leaseKey ∧ BoundedIdentity 160 input.ownerId ∧
    3 ≤ input.ttlMs ∧ input.ttlMs ≤ 86400000

instance : DecidablePred NormalizedLeaseInput := fun _ => inferInstanceAs (Decidable (_ ∧ _ ∧ _ ∧ _))

/-! ### Statements -/

/-- A statement of the functions. -/
inductive Query where
  | advisoryLock (leaseKey : JsString)
  | clockTimestamp
  | claim (input : LeaseInput) (acquiredAt : ℤ)
  | renew (identity : LeaseIdentity) (ttlMs : ℕ) (heartbeatAt : ℤ)
  | release (identity : LeaseIdentity)
  | selectFence (identity : LeaseIdentity) (now : ℤ) (lockForCommit : Bool)
  /-- Any statement of the callback of a guarded transaction. -/
  | callback

/-- The answer of a statement: whether a row was claimed, renewed, released or found. -/
def Answer : Query → Type
  | .advisoryLock _ => Unit
  | .clockTimestamp => ℤ
  | .claim _ _ => Bool
  | .renew _ _ _ => Bool
  | .release _ => Bool
  | .selectFence _ _ _ => Bool
  | .callback => Bool

/-- `WorkerLeaseErrorCode`, and the errors of an invalid input and of a callback. -/
inductive LeaseError where
  | invalidInput | staleFence | callbackFailed

/-- What a transaction returns. -/
inductive LeaseResult where
  | acquired (generation : Option ℤ)
  | renewed (isRenewed : Bool)
  | released (isReleased : Bool)
  | committed
  deriving DecidableEq

/-- A program over the table. -/
abbrev LeaseProg := Prog Query Answer LeaseError

/-- One statement. -/
def ask (query : Query) : LeaseProg (Answer query) := Prog.query query

/-- `interval '1 millisecond'`, in microseconds, as often as given. -/
def milliseconds (ttlMs : ℕ) : ℤ := 1000 * ttlMs

/-- The row that a claim inserts or updates to. -/
def claimedRow (input : LeaseInput) (acquiredAt : ℤ) : LeaseRow where
  ownerId := input.ownerId
  acquiredAt := acquiredAt
  expiresAt := acquiredAt + milliseconds input.ttlMs
  heartbeatAt := acquiredAt

variable (identity : LeaseIdentity)

/-- The row that a renewal updates to. -/
def renewedRow (ttlMs : ℕ) (heartbeatAt : ℤ) : LeaseRow where
  ownerId := identity.ownerId
  acquiredAt := identity.generation
  expiresAt := heartbeatAt + milliseconds ttlMs
  heartbeatAt := heartbeatAt

/-! ### Functions -/

/-- `claimLease`. -/
def claimLease (input : LeaseInput) : LeaseProg LeaseResult := do
  Prog.require (NormalizedLeaseInput input) .invalidInput
  ask (.advisoryLock input.leaseKey)
  let acquiredAt : ℤ ← ask .clockTimestamp
  let isClaimed : Bool ← ask (.claim input acquiredAt)
  return .acquired (bif isClaimed then some acquiredAt else none)

/-- `renewLease`. -/
def renewLease (ttlMs : ℕ) : LeaseProg LeaseResult := do
  ask (.advisoryLock identity.leaseKey)
  let heartbeatAt : ℤ ← ask .clockTimestamp
  let isRenewed : Bool ← ask (.renew identity ttlMs heartbeatAt)
  return .renewed isRenewed

/-- `releaseLease`. -/
def releaseLease : LeaseProg LeaseResult := do
  ask (.advisoryLock identity.leaseKey)
  let isReleased : Bool ← ask (.release identity)
  return .released isReleased

/-- `verifyFence`, with `lockCurrentFence`. -/
def verifyFence (token : Option LeaseIdentity) (expectedLeaseKey : JsString)
    (lockForCommit : Bool) : LeaseProg Unit := do
  let identity ← Prog.orFail .staleFence token
  Prog.require (identity.leaseKey = expectedLeaseKey) .staleFence
  let now : ℤ ← ask .clockTimestamp
  let isCurrent : Bool ← ask (.selectFence identity now lockForCommit)
  Prog.require (isCurrent = true) .staleFence

/-- A callback that asks a number of statements. -/
def callback : ℕ → LeaseProg Unit
  | 0 => pure ()
  | statements + 1 => do
    let isDone : Bool ← ask .callback
    Prog.require (isDone = true) .callbackFailed
    callback statements

/-- A guarded transaction: a callback between the two verifications of its fence. -/
def guarded (token : Option LeaseIdentity) (expectedLeaseKey : JsString) (statements : ℕ) :
    LeaseProg LeaseResult := do
  verifyFence token expectedLeaseKey false
  callback statements
  verifyFence token expectedLeaseKey true
  return .committed

/-- A call of one of the functions. -/
inductive Call where
  | acquire (input : LeaseInput)
  | renew (identity : LeaseIdentity) (ttlMs : ℕ)
  | release (identity : LeaseIdentity)
  | guarded (token : Option LeaseIdentity) (expectedLeaseKey : JsString) (statements : ℕ)

/-! ### Locks and versions -/

/-- What is locked: the number that a key is hashed to, or the row of a key. -/
inductive LockKey where
  | advisory (hash : ℤ)
  | row (leaseKey : JsString)
  deriving DecidableEq

/-- `hashtextextended`. -/
abbrev KeyHash := JsString → ℤ

/-- The locks that a statement takes; one that finds no row takes none, but for a claim, which locks
the row it conflicts with or inserts. -/
def locksOf (hash : KeyHash) : (query : Query) → Answer query → List (LockKey × Mode)
  | .advisoryLock leaseKey, _ => [(.advisory (hash leaseKey), .update)]
  | .claim input _, _ => [(.row input.leaseKey, .noKeyUpdate)]
  | .renew identity _ _, isRenewed =>
    bif isRenewed then [(.row identity.leaseKey, .noKeyUpdate)] else []
  | .release identity, isReleased =>
    bif isReleased then [(.row identity.leaseKey, .update)] else []
  | .selectFence identity _ lockForCommit, isCurrent =>
    bif and lockForCommit isCurrent then [(.row identity.leaseKey, .update)] else []
  | _, _ => []

/-- The versions that a statement writes. -/
def writesOf : (query : Query) → Answer query → List (LockKey × LeaseVersion)
  | .claim input acquiredAt, isClaimed =>
    bif isClaimed then [(.row input.leaseKey, .claimed (claimedRow input acquiredAt))] else []
  | .renew identity ttlMs heartbeatAt, isRenewed =>
    bif isRenewed then
      [(.row identity.leaseKey, .renewed (renewedRow identity ttlMs heartbeatAt))]
    else []
  | .release identity, isReleased =>
    bif isReleased then [(.row identity.leaseKey, .deleted identity)] else []
  | _, _ => []

/-- What a statement writes, it locks. -/
theorem locked (hash : KeyHash) (query : Query) (answer : Answer query) :
    ∀ w ∈ writesOf query answer, ∃ mode : Mode, mode.Writes ∧
      (w.1, mode) ∈ locksOf hash query answer := by
  intro w hw
  cases query with
  | claim input acquiredAt =>
    change Bool at answer
    cases answer with
    | false => cases hw
    | true =>
      obtain rfl := List.mem_singleton.mp hw
      exact ⟨.noKeyUpdate, .inl rfl, List.mem_cons_self⟩
  | renew identity ttlMs heartbeatAt =>
    change Bool at answer
    cases answer with
    | false => cases hw
    | true =>
      obtain rfl := List.mem_singleton.mp hw
      exact ⟨.noKeyUpdate, .inl rfl, List.mem_cons_self⟩
  | release identity =>
    change Bool at answer
    cases answer with
    | false => cases hw
    | true =>
      obtain rfl := List.mem_singleton.mp hw
      exact ⟨.update, .inr rfl, List.mem_cons_self⟩
  | _ => cases hw

/-- The locks and the writes of the statements. -/
def access (hash : KeyHash) : Access Query Answer LockKey LeaseVersion where
  locks event := locksOf hash event.query event.answer
  writes event := writesOf event.query event.answer
  locked event := locked hash event.query event.answer

/-! ### Answers -/

/-- A history of a session. -/
abbrev LeaseHistory := History Query Answer

/-- A state of the sessions. -/
abbrev LeaseState := State ℕ Call Query Answer LeaseError LeaseResult

/-- The versions of rows. -/
abbrev Writes := List (LockKey × LeaseVersion)

/-- The row of a lease as it is now. -/
def currentLease (versions : List LeaseVersion) : Option LeaseRow :=
  versions.getLast?.bind LeaseVersion.row?

variable (writes : Writes)

/-- The row of a key among versions of all rows. -/
def leaseOf (leaseKey : JsString) : Option LeaseRow :=
  currentLease (Access.versions writes (.row leaseKey))

/-- The readings of the clock in a history. -/
def readingsOf (h : LeaseHistory) : List ℤ :=
  h.filterMap fun event =>
    match event with
    | ⟨.clockTimestamp, reading⟩ => some reading
    | _ => none

/-- Whether a session now reads a later clock than any session before. -/
def IsLatestReading (st : LeaseState) : Prop :=
  (∀ t ∈ st.committed, ∀ reading ∈ readingsOf t.history, reading < st.clock) ∧
    ∀ p ∈ st.running, ∀ reading ∈ readingsOf p.2.history, reading < st.clock

instance (st : LeaseState) : Decidable (IsLatestReading st) :=
  inferInstanceAs (Decidable ((∀ t ∈ _, ∀ reading ∈ _, _) ∧ ∀ p ∈ _, ∀ reading ∈ _, _))

/-- Whether the row of an identity is there and has not expired at a clock. -/
def IsCurrent (identity : LeaseIdentity) (now : ℤ) : Prop :=
  ∃ row ∈ leaseOf writes identity.leaseKey, row.Is identity ∧ now < row.expiresAt

/-- Whether the row of an identity is there. -/
def IsThere (identity : LeaseIdentity) : Prop :=
  ∃ row ∈ leaseOf writes identity.leaseKey, row.Is identity

/-- Whether a key has no row, or one that has expired at a clock. -/
def IsClaimable (leaseKey : JsString) (now : ℤ) : Prop :=
  ∀ row ∈ leaseOf writes leaseKey, row.expiresAt ≤ now

instance (writes : Writes) (identity : LeaseIdentity) (now : ℤ) :
    Decidable (IsCurrent writes identity now) := inferInstanceAs (Decidable (∃ _ ∈ _, _))

instance (writes : Writes) (identity : LeaseIdentity) : Decidable (IsThere writes identity) :=
  inferInstanceAs (Decidable (∃ _ ∈ _, _))

instance (writes : Writes) (leaseKey : JsString) (now : ℤ) :
    Decidable (IsClaimable writes leaseKey now) := inferInstanceAs (Decidable (∀ _ ∈ _, _))

/-- Whether a fence may be found or not: found by the clock that was read, missed by that or by the
clock at which the row was locked. -/
def IsFenceAnswer (clock : ℤ) (identity : LeaseIdentity) (now : ℤ) (isCurrent : Bool) : Prop :=
  bif isCurrent then IsCurrent writes identity now else ¬ IsCurrent writes identity clock

instance (writes : Writes) (clock : ℤ) (identity : LeaseIdentity) (now : ℤ) :
    DecidablePred (IsFenceAnswer writes clock identity now)
  | true => inferInstanceAs (Decidable (IsCurrent _ _ _))
  | false => inferInstanceAs (Decidable (¬ IsCurrent _ _ _))

/-- Whether the table and the clock give a statement its answer. -/
def IsAnswer (st : LeaseState) (writes : Writes) : (query : Query) → Answer query → Prop
  | .clockTimestamp, reading => @Eq ℤ reading st.clock ∧ IsLatestReading st
  | .claim input acquiredAt, isClaimed =>
    @Eq Bool isClaimed (decide (IsClaimable writes input.leaseKey acquiredAt))
  | .renew identity _ heartbeatAt, isRenewed =>
    @Eq Bool isRenewed (decide (IsCurrent writes identity heartbeatAt))
  | .release identity, isReleased => @Eq Bool isReleased (decide (IsThere writes identity))
  | .selectFence identity now _, isCurrent => IsFenceAnswer writes st.clock identity now isCurrent
  | .advisoryLock _, _ => True
  | .callback, _ => True

instance (st : LeaseState) (writes : Writes) (query : Query) (answer : Answer query) :
    Decidable (IsAnswer st writes query answer) :=
  match query, answer with
  | .clockTimestamp, reading =>
    @instDecidableAnd _ _ ((inferInstance : DecidableEq ℤ) reading _) inferInstance
  | .claim _ _, isClaimed => (inferInstance : DecidableEq Bool) isClaimed _
  | .renew _ _ _, isRenewed => (inferInstance : DecidableEq Bool) isRenewed _
  | .release _, isReleased => (inferInstance : DecidableEq Bool) isReleased _
  | .selectFence identity now _, isCurrent =>
    (inferInstance : DecidablePred (IsFenceAnswer writes st.clock identity now)) isCurrent
  | .advisoryLock _, _ => .isTrue trivial
  | .callback, _ => .isTrue trivial

section Hash

variable (hash : KeyHash)

/-- What a session has asked so far. -/
def historyOf (st : LeaseState) (session : ℕ) : LeaseHistory :=
  ((st.transaction session).map fun t => t.history).getD []

/-- The versions of rows that a session sees. -/
def viewOf (st : LeaseState) (session : ℕ) : Writes :=
  (access hash).view st.committed (historyOf st session)

/-- Whether a statement of a session gets an answer: the locks it takes are free, and the answer is
what the session sees. -/
def Admits (st : LeaseState) (session : ℕ) (query : Query) (answer : Answer query) : Prop :=
  (∀ lock ∈ locksOf hash query answer, (access hash).IsFree st session lock.1 lock.2) ∧
    IsAnswer st (viewOf hash st session) query answer

instance (st : LeaseState) (session : ℕ) (query : Query) (answer : Answer query) :
    Decidable (Admits hash st session query answer) :=
  inferInstanceAs (Decidable ((∀ lock ∈ _, _) ∧ _))

/-- The database, with the functions over it. -/
def database : Database ℕ Call Query Answer LeaseError LeaseResult where
  program
    | .acquire input => claimLease input
    | .renew identity ttlMs => renewLease identity ttlMs
    | .release identity => releaseLease identity
    | .guarded token expectedLeaseKey statements => guarded token expectedLeaseKey statements
  Admits := Admits hash
  decidableAdmits := fun _ _ _ _ => inferInstance

end Hash

end Handleplan.WorkerLease
