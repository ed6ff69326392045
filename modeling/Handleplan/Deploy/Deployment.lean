import Handleplan.Lib.JsString
import Handleplan.Lib.Transitions

/-!
# Deployments

A deploy publishes a candidate as pending, with the lease of a watchdog that will reject it after its
deadline, and commits it. Resolvers verify, accept, reject or retire one pending tuple; an
explicit rollback commits an older revision. All of them hold the deployment-operation lock, so that
each is one step.

## Main definitions

* `Deployment.DeploymentState` — the state files, and the containers.
* `Deployment.accept`, `retire`, `reject` — the actions of the resolver.
* `Deployment.deploy`, `rollback` — the other operations.
* `Deployment.system` — the operations in any order, with a log of what has succeeded.

## Implementation notes

A script that does not get the lock does nothing, and a watchdog is a `retire` and a `reject` at any
time. What docker, git and the checks of files answer is given with an operation, and so is which of
its changes of the state files succeed; a signal is an answer that fails. A state file is changed
whole or not at all, so that only a malformed record is kept apart, and the deployment state, which
is several files, as one of them: what is left when its replacement stops is the subject of
`StateFiles`. The steps of a deploy before it publishes its tuple are one answer, with the containers
that it leaves.
-/

namespace Handleplan.Deployment

open JsString Transitions

/-! ### Records -/

/-- A revision with its image: what is committed. -/
structure Commit where
  revision : JsString
  imageId : JsString
  deriving DecidableEq

/-- The seven fields of a pending deployment, without its version. -/
structure PendingTuple where
  revision : JsString
  imageId : JsString
  previousRevision : JsString
  previousImageId : JsString
  deadline : ℕ
  token : JsString
  deriving DecidableEq

/-- The candidate of a tuple. -/
def PendingTuple.candidate (t : PendingTuple) : Commit := ⟨t.revision, t.imageId⟩

/-- The predecessor of a tuple. -/
def PendingTuple.previous (t : PendingTuple) : Commit := ⟨t.previousRevision, t.previousImageId⟩

/-- The record `pending-deployment` or `accepted-deployment`. -/
inductive Record where
  | absent | malformed
  | valid (t : PendingTuple)
  deriving DecidableEq

/-- A container of an application runtime: of `review`, `operations`, `worker` or `app`. -/
structure Container where
  id : JsString
  service : JsString
  commit : Commit
  deriving DecidableEq

/-- The state files, and the containers of the application. -/
structure DeploymentState where
  committed : Commit
  highWater : JsString
  verified : JsString → Option JsString
  pending : Record
  accepted : Record
  leases : List PendingTuple
  containers : List Container

/-- Which changes of the state files succeed. -/
structure Files where
  /-- `record_accepted_deployment_state` -/
  recordsAccepted : Bool
  /-- `record_immutable_deployment_state` -/
  recordsState : Bool
  /-- `clear_pending_deployment_state` -/
  clearsPending : Bool
  /-- `clear_pending_watchdog_lease` -/
  clearsLease : Bool

/-- Whether a text has a length and lowercase hexadecimal digits only. -/
def IsHex (length : ℕ) (s : JsString) : Prop :=
  s.length = length ∧ ∀ u ∈ s, (48 ≤ u ∧ u ≤ 57) ∨ (97 ≤ u ∧ u ≤ 102)

instance (length : ℕ) : DecidablePred (IsHex length) := fun _ => inferInstanceAs (Decidable (_ ∧ _))

/-- `valid_deployment_image_id`. -/
def ValidImageId (s : JsString) : Prop := s.take 7 = js "sha256:" ∧ IsHex 64 (s.drop 7)

instance : DecidablePred ValidImageId := fun _ => inferInstanceAs (Decidable (_ ∧ _))

/-- The checks of the arguments of the resolver. -/
@[mk_iff] structure ValidTuple (t : PendingTuple) : Prop where
  revision : IsHex 40 t.revision
  imageId : ValidImageId t.imageId
  token : IsHex 64 t.token
  previousRevision : IsHex 40 t.previousRevision
  previousImageId : ValidImageId t.previousImageId
  deadline : 1 ≤ t.deadline ∧ t.deadline < 10 ^ 12
  distinct : t.revision ≠ t.previousRevision

instance : DecidablePred ValidTuple := fun _ => decidable_of_iff' _ (validTuple_iff _)

/-- `first_deployment_sentinel_revision`. -/
def sentinelRevision : JsString := List.replicate 40 48

/-- `is_first_deployment_sentinel`. -/
def sentinel : Commit where
  revision := sentinelRevision
  imageId := js "sha256:" ++ List.replicate 64 48

/-! ### Checks and changes of the state -/

namespace DeploymentState

variable (st : DeploymentState) (t : PendingTuple)

/-- `current_matches`. -/
def CurrentMatches (commit : Commit) : Prop :=
  st.committed = commit ∧ st.verified commit.revision = some commit.imageId

instance (commit : Commit) : Decidable (st.CurrentMatches commit) :=
  inferInstanceAs (Decidable (_ ∧ _))

/-- The candidate is committed, and owns the high-water mark. -/
def IsCurrent : Prop := st.CurrentMatches t.candidate ∧ st.highWater = t.revision

instance : Decidable (st.IsCurrent t) := inferInstanceAs (Decidable (_ ∧ _))

/-- `clear_pending_watchdog_lease`. -/
def clearLease : DeploymentState := { st with leases := st.leases.filter fun lease => lease ≠ t }

/-- What a resolver leaves when it exits: a watchdog clears its own lease, unless that fails. -/
def exit (ownsLease : Bool) (files : Files) : DeploymentState :=
  if ownsLease && files.clearsLease then st.clearLease t else st

/-- `clear_pending_deployment_state`, unless that fails. -/
def clearPending (files : Files) : DeploymentState :=
  if files.clearsPending then { st with pending := .absent } else st

end DeploymentState

/-- What docker answers while containers are removed. -/
structure Closing where
  answers : Bool
  removes : Container → Bool

/-- What a rejection is answered. -/
structure Docker where
  /-- The checks of the controls, of the environment, and of the images. -/
  ready : Bool
  first : Closing
  second : Closing
  /-- The containers of the predecessor that are started, and whether they are verified. -/
  started : List Container
  verified : Bool
  files : Files

/-- The containers that are left when those of some commits are removed. -/
def remaining (closing : Closing) (commits : List Commit) (containers : List Container) :
    List Container :=
  containers.filter fun c => ¬ (c.commit ∈ commits ∧ closing.removes c)

/-- `close_application_runtimes`: what it leaves. -/
def closeApplicationRuntimes (closing : Closing) (t : PendingTuple) (st : DeploymentState) :
    DeploymentState :=
  { st with containers := remaining closing [t.candidate, t.previous] st.containers }

/-- `remove_uncommitted_candidate_runtimes`: what it leaves. -/
def removeUncommittedCandidateRuntimes (closing : Closing) (t : PendingTuple) (st : DeploymentState) :
    DeploymentState :=
  { st with containers := remaining closing [t.candidate] st.containers }

/-! ### The resolver -/

/-- How an operation ends. -/
inductive Status where
  | succeeded
  /-- `retire` while the tuple is pending. -/
  | stillPending
  /-- `reject` of an accepted tuple. -/
  | alreadyAccepted
  /-- A deploy that has published its tuple, and fails. -/
  | withdrawn
  | failed
  deriving DecidableEq

/-- `verify_pending_deployment`. -/
def verify (t : PendingTuple) (now : ℕ) (st : DeploymentState) : Status :=
  if st.pending = .valid t ∧ t ∈ st.leases ∧ (now + 120 ≤ t.deadline ∧ t.deadline ≤ now + 900) ∧
      st.IsCurrent t then .succeeded
  else .failed

/-- `accept_pending_deployment`, before there is an accepted record of the tuple. -/
def acceptPending (t : PendingTuple) (now : ℕ) (files : Files) (st : DeploymentState) :
    Status × DeploymentState :=
  if st.pending = .valid t ∧ t ∈ st.leases ∧ now ≤ t.deadline ∧ st.IsCurrent t then
    if files.recordsAccepted = false then (.failed, st)
    else
      (if files.clearsPending then .succeeded else .failed,
        { st with accepted := .valid t }.clearPending files)
  else (.failed, st)

/-- `accept_pending_deployment`. -/
def accept (t : PendingTuple) (now : ℕ) (files : Files) (st : DeploymentState) :
    Status × DeploymentState :=
  match st.accepted with
  | .absent => acceptPending t now files st
  | .malformed => (.failed, st)
  | .valid a =>
    if a ≠ t then acceptPending t now files st
    else if ¬ st.IsCurrent t then (.failed, st)
    else if st.pending = .absent then (.succeeded, st)
    else if st.pending = .valid t then
      (if files.clearsPending then .succeeded else .failed, st.clearPending files)
    else (.failed, st)

/-- `retire_accepted_pending_watchdog`, before the tuple is accepted. -/
def retirePending (t : PendingTuple) (st : DeploymentState) : Status × DeploymentState :=
  if st.pending = .valid t then (.stillPending, st) else (.failed, st)

/-- `retire_accepted_pending_watchdog`: it runs without `set -e`, and goes on after a change that
fails. -/
def retire (t : PendingTuple) (files : Files) (st : DeploymentState) : Status × DeploymentState :=
  if t ∉ st.leases then (.failed, st)
  else
    match st.accepted with
    | .absent => retirePending t st
    | .malformed => (.failed, st)
    | .valid a =>
      if a ≠ t then retirePending t st
      else if st.pending = .absent then (.succeeded, st.exit t true files)
      else if st.pending = .valid t ∧ st.IsCurrent t then
        (.succeeded, (st.clearPending files).exit t true files)
      else (.failed, st)

variable (ownsLease : Bool)

variable (t : PendingTuple)

variable (docker : Docker)

variable (st : DeploymentState)

/-- `close_after_capability_loss`. -/
def closeAfterCapabilityLoss :
    Status × DeploymentState :=
  if st.CurrentMatches t.previous then
    (.failed, (removeUncommittedCandidateRuntimes docker.first t st).exit t ownsLease docker.files)
  else if st.IsCurrent t then
    (.failed, (closeApplicationRuntimes docker.first t st).exit t ownsLease docker.files)
  else (.failed, st.exit t ownsLease docker.files)

/-- `reject_pending_deployment` of an accepted tuple. -/
def rejectAccepted (files : Files) (st : DeploymentState) :
    Status × DeploymentState :=
  let status :=
    if ownsLease ∧ (t ∉ st.leases ∨ files.clearsLease = false) then .failed else .alreadyAccepted
  if ¬ st.IsCurrent t then (.failed, st.exit t ownsLease files)
  else if st.pending = .absent then (status, st.exit t ownsLease files)
  else if st.pending = .valid t then
    (if files.clearsPending then status else .failed,
      (st.clearPending files).exit t ownsLease files)
  else (.failed, st.exit t ownsLease files)

/-- The commit of a rejection: the predecessor is recorded, and the tuple is no longer pending. -/
def commitRejection :
    Status × DeploymentState :=
  let files := docker.files
  let recorded := { st with committed := t.previous }
  if files.recordsState = false then
    (.failed, (closeApplicationRuntimes docker.second t st).exit t ownsLease files)
  else if files.clearsPending = false then
    (.failed, (closeApplicationRuntimes docker.second t recorded).exit t ownsLease files)
  else if ownsLease ∧ (t ∉ st.leases ∨ files.clearsLease = false) then
    (.failed, closeApplicationRuntimes docker.second t (recorded.clearPending files))
  else (.succeeded, (recorded.clearPending files).exit t ownsLease files)

/-- A rejection after the capability has been checked. -/
def finishRejection :
    Status × DeploymentState :=
  let closed := closeApplicationRuntimes docker.first t st
  if docker.ready = false ∨ st.verified t.previousRevision ≠ some t.previousImageId then
    (.failed, closed.exit t ownsLease docker.files)
  else if docker.first.answers = false ∨ closed.containers ≠ [] then
    (.failed, (closeApplicationRuntimes docker.second t closed).exit t ownsLease docker.files)
  else if t.previous = sentinel then commitRejection ownsLease t docker closed
  else
    let started := { closed with containers := docker.started }
    if docker.verified then commitRejection ownsLease t docker started
    else
      (.failed, (closeApplicationRuntimes docker.second t started).exit t ownsLease docker.files)

/-- `reject_pending_deployment` of the pending tuple. -/
def rejectPending :
    Status × DeploymentState :=
  if st.CurrentMatches t.previous then
    if st.highWater = t.previousRevision ∨ st.highWater = t.revision then
      finishRejection ownsLease t docker st
    else (.failed, (closeApplicationRuntimes docker.first t st).exit t ownsLease docker.files)
  else if st.CurrentMatches t.candidate then
    if st.highWater = t.revision then finishRejection ownsLease t docker st
    else (.failed, (closeApplicationRuntimes docker.first t st).exit t ownsLease docker.files)
  else (.failed, st.exit t ownsLease docker.files)

/-- `reject_pending_deployment`, before there is an accepted record of the tuple. -/
def rejectUnaccepted :
    Status × DeploymentState :=
  match st.pending with
  | .absent => closeAfterCapabilityLoss ownsLease t docker st
  | .malformed => closeAfterCapabilityLoss ownsLease t docker st
  | .valid p =>
    if p ≠ t then (.failed, st.exit t ownsLease docker.files)
    else rejectPending ownsLease t docker st

/-- `reject_pending_deployment`: of a runner, or of a watchdog that owns its lease. -/
def reject :
    Status × DeploymentState :=
  match st.accepted with
  | .absent => rejectUnaccepted ownsLease t docker st
  | .malformed => closeAfterCapabilityLoss ownsLease t docker st
  | .valid a =>
    if a ≠ t then rejectUnaccepted ownsLease t docker st
    else rejectAccepted ownsLease t docker.files st

/-! ### Deploy and rollback -/

/-- The commits of a repository, of which git says truthfully which is an ancestor of which: the
sentinel is none of them. -/
structure Repository where
  IsAncestor : JsString → JsString → Prop
  decidable : DecidableRel IsAncestor
  trans : ∀ {a b c}, IsAncestor a b → IsAncestor b c → IsAncestor a c
  antisymm : ∀ {a b}, IsAncestor a b → IsAncestor b a → a = b
  sentinel : ∀ a, ¬ IsAncestor a sentinelRevision

instance (git : Repository) : DecidableRel git.IsAncestor := git.decidable

variable (git : Repository)

/-- The checks of the ancestry of a deploy. -/
def AncestryAccepted (t : PendingTuple) (main : JsString) (st : DeploymentState) : Prop :=
  git.IsAncestor t.revision main ∧
    (t.previous ≠ sentinel →
      git.IsAncestor t.previousRevision main ∧ git.IsAncestor st.highWater main ∧
        git.IsAncestor t.previousRevision st.highWater ∧ git.IsAncestor st.highWater t.revision)

instance (t : PendingTuple) (main : JsString) (st : DeploymentState) :
    Decidable (AncestryAccepted git t main st) :=
  inferInstanceAs (Decidable (_ ∧ (_ → _)))

/-- The checks of a deploy. -/
@[mk_iff] structure DeployAccepted (t : PendingTuple) (now : ℕ) (main : JsString)
    (st : DeploymentState) : Prop where
  tuple : ValidTuple t
  deadline : t.deadline = now + 900
  current : st.CurrentMatches t.previous
  pending : st.pending = .absent
  capacity : st.leases.length < 4
  verified : ∀ imageId ∈ st.verified t.revision, imageId = t.imageId
  ancestry : AncestryAccepted git t main st

instance (t : PendingTuple) (now : ℕ) (main : JsString) (st : DeploymentState) :
    Decidable (DeployAccepted git t now main st) :=
  decidable_of_iff' _ (deployAccepted_iff _ _ _ _ _)

/-- How far a deploy comes that has published its tuple. -/
inductive Progress where
  /-- There is no lease. -/
  | published
  /-- The watchdog is not launched. -/
  | leased
  | launched
  /-- The image of the candidate is recorded as verified. -/
  | verified
  | committed
  deriving DecidableEq

/-- What happens when a deploy exits that has not committed. -/
structure Cleanup where
  /-- `cleanup_failed_candidate_runtime` -/
  removesCandidate : Bool
  files : Files

/-- How a deploy goes on after its checks, with the containers that it leaves. -/
inductive DeployEnd where
  /-- It fails before the tuple is published. -/
  | refuses (containers : List Container)
  | publishes (progress : Progress) (cleanup : Cleanup) (containers : List Container)

/-- `cleanup_on_exit` of a deploy that has published its tuple: the tuple is no longer pending, but
stays so where the candidate cannot be removed, or the lease of a watchdog that is not launched. -/
def cleanupOnExit (t : PendingTuple) (progress : Progress) (cleanup : Cleanup)
    (st : DeploymentState) : DeploymentState :=
  if cleanup.removesCandidate = false then st
  else if progress = .leased then
    if cleanup.files.clearsLease then (st.clearLease t).clearPending cleanup.files else st
  else st.clearPending cleanup.files

/-- A deploy that has published its tuple, and fails. -/
def withdraw (t : PendingTuple) (progress : Progress) (cleanup : Cleanup) (st : DeploymentState) :
    Status × DeploymentState :=
  (.withdrawn, cleanupOnExit t progress cleanup st)

/-- The deploy of a tuple. -/
def deploy (t : PendingTuple) (now : ℕ) (main : JsString) (ending : DeployEnd)
    (st : DeploymentState) : Status × DeploymentState :=
  if ¬ DeployAccepted git t now main st then (.failed, st)
  else
    match ending with
    | .refuses containers => (.failed, { st with containers := containers })
    | .publishes progress cleanup containers =>
      let published := { st with pending := .valid t, containers := containers }
      let leased := { published with leases := st.leases ++ [t] }
      let verified :=
        { leased with verified := Function.update st.verified t.revision (some t.imageId) }
      -- The lease is not written where there is one of the same token.
      if ∃ lease ∈ st.leases, lease.token = t.token then withdraw t .published cleanup published
      else
        match progress with
        | .published => withdraw t .published cleanup published
        | .leased => withdraw t .leased cleanup leased
        | .launched => withdraw t .launched cleanup leased
        | .verified => withdraw t .verified cleanup verified
        | .committed =>
          (.succeeded, { verified with committed := t.candidate, highWater := t.revision })

/-- The checks of an explicit rollback. -/
@[mk_iff] structure RollbackAccepted (target expectedCurrent main : JsString) (st : DeploymentState) :
    Prop where
  revision : IsHex 40 target
  pending : st.pending = .absent
  current : st.CurrentMatches st.committed ∧ st.committed.revision = expectedCurrent
  distinct : target ≠ st.committed.revision
  onMain : git.IsAncestor target main ∧ git.IsAncestor st.committed.revision main ∧
    git.IsAncestor st.highWater main
  ancestor : git.IsAncestor target st.committed.revision
  highWater : git.IsAncestor st.committed.revision st.highWater

instance (target expectedCurrent main : JsString) (st : DeploymentState) :
    Decidable (RollbackAccepted git target expectedCurrent main st) :=
  decidable_of_iff' _ (rollbackAccepted_iff _ _ _ _ _)

/-- An explicit rollback, with the containers that it leaves, and whether they are verified. -/
def rollback (target expectedCurrent main : JsString) (verified : Bool) (containers : List Container)
    (st : DeploymentState) : Status × DeploymentState :=
  match st.verified target with
  | none => (.failed, st)
  | some imageId =>
    if ¬ RollbackAccepted git target expectedCurrent main st then (.failed, st)
    else if verified = false then (.failed, { st with containers := containers })
    else (.succeeded, { st with committed := ⟨target, imageId⟩, containers := containers })

/-! ### Runs -/

/-- An action of the resolver. -/
inductive ResolverAction where
  | verify (now : ℕ)
  | accept (now : ℕ) (files : Files)
  | retire (files : Files)
  | reject (ownsLease : Bool) (docker : Docker)

/-- An operation under the lock. -/
inductive Operation where
  | deploy (t : PendingTuple) (now : ℕ) (main : JsString) (ending : DeployEnd)
  | resolve (t : PendingTuple) (action : ResolverAction)
  | rollback (target expectedCurrent main : JsString) (verified : Bool) (containers : List Container)

/-- An action of the resolver for a tuple. -/
def ResolverAction.perform (action : ResolverAction) (t : PendingTuple) (st : DeploymentState) :
    Status × DeploymentState :=
  if ¬ ValidTuple t then (.failed, st)
  else
    match action with
    | .verify now => (Deployment.verify t now st, st)
    | .accept now files => Deployment.accept t now files st
    | .retire files => Deployment.retire t files st
    | .reject ownsLease docker => Deployment.reject ownsLease t docker st

/-- What an operation does. -/
def Operation.perform (operation : Operation) (st : DeploymentState) : Status × DeploymentState :=
  match operation with
  | .deploy t now main ending => Deployment.deploy git t now main ending st
  | .resolve t action => action.perform t st
  | .rollback target expectedCurrent main verified containers =>
    Deployment.rollback git target expectedCurrent main verified containers st

/-- What has succeeded: a tuple has been published, accepted or rejected. -/
inductive Entry where
  | published (t : PendingTuple)
  | accepted (t : PendingTuple)
  | rejected (t : PendingTuple)
  deriving DecidableEq

/-- What an operation that ends so adds to the log. -/
def Operation.entries : Operation → Status → List Entry
  | .deploy t _ _ _, .succeeded => [.published t]
  | .deploy t _ _ _, .withdrawn => [.published t]
  | .resolve t (.accept _ _), .succeeded => [.accepted t]
  | .resolve t (.reject _ _), .succeeded => [.rejected t]
  | _, _ => []

/-- A run: the state it has reached, what has succeeded, and the high-water marks there have
been. -/
structure Run where
  state : DeploymentState
  log : List Entry
  highWaters : List JsString

/-- The next run. -/
def Run.perform (run : Run) (operation : Operation) : Run :=
  let result := operation.perform git run.state
  { state := result.2
    log := run.log ++ operation.entries result.1
    highWaters := run.highWaters ++ [result.2.highWater] }

/-- The state of a baseline: a verified commit, or the sentinel. -/
structure Run.IsInitial (run : Run) : Prop where
  verified : run.state.verified run.state.committed.revision = some run.state.committed.imageId
  highWater : run.state.highWater = run.state.committed.revision
  pending : run.state.pending = .absent
  accepted : run.state.accepted = .absent
  leases : run.state.leases = []
  log : run.log = []
  highWaters : run.highWaters = [run.state.highWater]

/-- The operations, in any order. -/
def system : System Run Operation where
  init := Run.IsInitial
  step run operation := some (run.perform git operation)

end Handleplan.Deployment
