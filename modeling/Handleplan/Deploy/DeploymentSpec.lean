import Handleplan.Deploy.Deployment

/-!
# Accepted deployments

What an action of the resolver can change is stated once, of any state. From it, and from what a
deploy and a rollback check, an invariant of all runs follows: a pending tuple is the latest one
that has been published, and a committed deployment that owns the high-water mark is that of the
accepted record.

## Main definitions

* `Deployment.ChangesItsOwn` — what an action of the resolver can change.
* `Deployment.Run.Sound` — the invariant of all runs.
* `Deployment.DeploymentsHold` — what holds of a run.

## Main results

* `Deployment.Effect.changesItsOwn` — an action changes only what is of its tuple.
* `Deployment.sound_of_reachable` — every run is sound.
* `Deployment.keepsRuntimes_of_sound` — the runtimes of an accepted deployment are kept.
* `Deployment.neverRegresses_of_reachable` — the high-water mark does not go back.
* `Deployment.deployments_hold` — an accepted deployment stays accepted.
-/

namespace Handleplan.Deployment

open JsString Transitions

/-! ### What an action of the resolver does -/

section Resolver

variable {t : PendingTuple} {st st' : DeploymentState}

/-- What changes the containers, and the lease of a tuple, only. -/
structure IsCleanup (t : PendingTuple) (st st' : DeploymentState) : Prop where
  pending : st'.pending = st.pending
  accepted : st'.accepted = st.accepted
  committed : st'.committed = st.committed
  highWater : st'.highWater = st.highWater
  verified : st'.verified = st.verified
  leases : st'.leases = st.leases ∨ st'.leases = (st.clearLease t).leases

theorem isCleanup_containers (t : PendingTuple) (st : DeploymentState) (containers : List Container) :
    IsCleanup t st { st with containers := containers } :=
  ⟨rfl, rfl, rfl, rfl, rfl, .inl rfl⟩

/-- Exiting with other containers is a cleanup. -/
theorem isCleanup_exit (t : PendingTuple) (st : DeploymentState) (ownsLease : Bool) (files : Files)
    (containers : List Container) :
    IsCleanup t st (({ st with containers := containers }).exit t ownsLease files) := by
  unfold DeploymentState.exit
  split_ifs
  · exact ⟨rfl, rfl, rfl, rfl, rfl, .inr rfl⟩
  · exact ⟨rfl, rfl, rfl, rfl, rfl, .inl rfl⟩

/-- The tuple has the accepted record. -/
def acceptedState (t : PendingTuple) (pending : Record) (st : DeploymentState) : DeploymentState :=
  { st with accepted := .valid t, pending := pending }

/-- The predecessor of the tuple is committed. -/
def rejectedState (t : PendingTuple) (pending : Record) (st : DeploymentState) : DeploymentState :=
  { st with committed := t.previous, pending := pending }

/-- **What an action for a tuple does**, with what it adds to the log. Where a change of a file fails,
it adds nothing, and the pending record may be left. -/
inductive Effect (t : PendingTuple) (st : DeploymentState) : List Entry → DeploymentState → Prop
  | keeps {st' : DeploymentState} (hcleanup : IsCleanup t st st') : Effect t st [] st'
  | accepts {entries : List Entry} {pending : Record} {st' : DeploymentState}
      (hbefore : st.pending = .valid t ∨ st.accepted = .valid t ∧ st.pending = .absent)
      (hcurrent : st.IsCurrent t) (hentries : ∀ entry ∈ entries, entry = .accepted t)
      (hpending : pending = .absent ∨ entries = [] ∧ pending = st.pending)
      (hcleanup : IsCleanup t (acceptedState t pending st) st') : Effect t st entries st'
  | rejects {entries : List Entry} {pending : Record} {st' : DeploymentState}
      (haccepted : st.accepted ≠ .valid t) (hbefore : st.pending = .valid t)
      (hcommitted : st.committed = t.candidate ∨ st.committed = t.previous)
      (hentries : ∀ entry ∈ entries, entry = .rejected t)
      (hpending : pending = .absent ∨ entries = [] ∧ pending = st.pending)
      (hcleanup : IsCleanup t (rejectedState t pending st) st') : Effect t st entries st'

/-- The committed deployment of an accepted tuple is no longer pending, unless that fails. -/
theorem effect_clearPending {entries : List Entry} {files : Files} (ownsLease : Bool)
    (haccepted : st.accepted = .valid t) (hpending : st.pending = .valid t)
    (hcurrent : st.IsCurrent t)
    (hentries : ∀ entry ∈ entries, entry = .accepted t)
    (hfails : files.clearsPending = false → entries = []) :
    Effect t st entries ((st.clearPending files).exit t ownsLease files) := by
  have hstate : ∀ pending, { st with pending := pending } = acceptedState t pending st := by
    intro pending
    rw [acceptedState, ← haccepted]
  unfold DeploymentState.clearPending
  split_ifs with hclears
  · rw [hstate]
    exact .accepts (.inl hpending) hcurrent hentries (.inl rfl)
      (isCleanup_exit t (acceptedState t .absent st) ownsLease files st.containers)
  · refine .accepts (.inl hpending) hcurrent hentries
      (.inr ⟨hfails (Bool.eq_false_iff.mpr hclears), rfl⟩) ?_
    rw [← hstate]
    exact isCleanup_exit t st ownsLease files st.containers

/-- What `accept` does before there is an accepted record of the tuple. -/
theorem effect_acceptPending (now : ℕ) (files : Files) :
    Effect t st ((Operation.resolve t (.accept now files)).entries (acceptPending t now files st).1)
      (acceptPending t now files st).2 := by
  unfold acceptPending DeploymentState.clearPending
  split_ifs with h hrecords hclears
  · exact .keeps (isCleanup_containers t st _)
  · exact .accepts (.inl h.1) h.2.2.2 (fun entry h => List.mem_singleton.mp h) (.inl rfl)
      (isCleanup_containers t (acceptedState t .absent st) st.containers)
  · exact .accepts (.inl h.1) h.2.2.2 (fun entry h => absurd h List.not_mem_nil) (.inr ⟨rfl, rfl⟩)
      (isCleanup_containers t (acceptedState t st.pending st) st.containers)
  · exact .keeps (isCleanup_containers t st _)

/-- What `accept` does. -/
theorem effect_accept (now : ℕ) (files : Files) :
    Effect t st ((Operation.resolve t (.accept now files)).entries (accept t now files st).1)
      (accept t now files st).2 := by
  have hkeeps : Effect t st [] st := .keeps (isCleanup_containers t st _)
  have hpending : Effect t st _ _ := effect_acceptPending now files
  unfold accept
  cases haccepted : st.accepted with
  | absent => exact hpending
  | malformed => exact hkeeps
  | valid a =>
    dsimp only
    by_cases ha : a = t
    · rw [if_neg (not_not.mpr ha)]
      rw [ha] at haccepted
      have hentries : ∀ entry ∈ [Entry.accepted t], entry = .accepted t :=
        fun entry h => List.mem_singleton.mp h
      by_cases hcurrent : st.IsCurrent t
      · rw [if_neg (not_not.mpr hcurrent)]
        by_cases habsent : st.pending = .absent
        · rw [if_pos habsent]
          exact .accepts (.inr ⟨haccepted, habsent⟩) hcurrent hentries (.inl rfl)
            ⟨habsent, haccepted, rfl, rfl, rfl, .inl rfl⟩
        · rw [if_neg habsent]
          by_cases hvalid : st.pending = .valid t
          · rw [if_pos hvalid]
            refine effect_clearPending false haccepted hvalid hcurrent ?_ ?_
            · dsimp only
              split_ifs
              · exact hentries
              · exact fun entry h => absurd h List.not_mem_nil
            · intro hclears
              dsimp only
              rw [hclears]
              rfl
          · rw [if_neg hvalid]
            exact hkeeps
      · rw [if_pos hcurrent]
        exact hkeeps
    · rw [if_pos ha]
      exact hpending

/-- What `retire` does. -/
theorem effect_retire (files : Files) : Effect t st [] (retire t files st).2 := by
  have hkeeps : Effect t st [] st := .keeps (isCleanup_containers t st _)
  have hpending : Effect t st [] (retirePending t st).2 := by
    unfold retirePending
    split_ifs
    · exact hkeeps
    · exact hkeeps
  unfold retire
  by_cases hlease : t ∈ st.leases
  · rw [if_neg (not_not.mpr hlease)]
    cases haccepted : st.accepted with
    | absent => exact hpending
    | malformed => exact hkeeps
    | valid a =>
      dsimp only
      by_cases ha : a = t
      · rw [if_neg (not_not.mpr ha)]
        rw [ha] at haccepted
        by_cases habsent : st.pending = .absent
        · rw [if_pos habsent]
          exact .keeps (isCleanup_exit t st true files st.containers)
        · rw [if_neg habsent]
          by_cases hvalid : st.pending = .valid t ∧ st.IsCurrent t
          · rw [if_pos hvalid]
            exact effect_clearPending true haccepted hvalid.1 hvalid.2
              (fun entry h => absurd h List.not_mem_nil) fun _ => rfl
          · rw [if_neg hvalid]
            exact hkeeps
      · rw [if_pos ha]
        exact hpending
  · rw [if_pos hlease]
    exact hkeeps

/-- A rejection does not succeed, and changes only the containers and the lease. -/
def FailsClean (t : PendingTuple) (st : DeploymentState) (result : Status × DeploymentState) : Prop :=
  result.1 ≠ .succeeded ∧ IsCleanup t st result.2

variable {docker : Docker} {c : Container}

theorem entries_reject {ownsLease : Bool} {status : Status} (h : status ≠ .succeeded) :
    (Operation.resolve t (.reject ownsLease docker)).entries status = [] := by
  cases status with
  | succeeded => exact absurd rfl h
  | stillPending => rfl
  | alreadyAccepted => rfl
  | withdrawn => rfl
  | failed => rfl

theorem FailsClean.effect {ownsLease : Bool} {result : Status × DeploymentState}
    (h : FailsClean t st result) :
    Effect t st ((Operation.resolve t (.reject ownsLease docker)).entries result.1) result.2 := by
  rw [entries_reject h.1]
  exact .keeps h.2

theorem failsClean_exit (t : PendingTuple) (st : DeploymentState) (ownsLease : Bool) (files : Files)
    (containers : List Container) :
    FailsClean t st (.failed, ({ st with containers := containers }).exit t ownsLease files) :=
  ⟨fun h => (by cases h), isCleanup_exit t st ownsLease files containers⟩

variable (ownsLease : Bool)

/-- A loss of the capability closes runtimes only. -/
theorem failsClean_closeAfterCapabilityLoss (docker : Docker) :
    FailsClean t st (closeAfterCapabilityLoss ownsLease t docker st) := by
  unfold closeAfterCapabilityLoss
  split_ifs
  · exact failsClean_exit t st ownsLease _ _
  · exact failsClean_exit t st ownsLease _ _
  · exact failsClean_exit t st ownsLease _ _

/-- What `commitRejection` does, with other containers. -/
theorem effect_commitRejection (docker : Docker) (containers : List Container)
    (haccepted : st.accepted ≠ .valid t) (hpending : st.pending = .valid t)
    (hcommitted : st.committed = t.candidate ∨ st.committed = t.previous) :
    Effect t st ((Operation.resolve t (.reject ownsLease docker)).entries
        (commitRejection ownsLease t docker { st with containers := containers }).1)
      (commitRejection ownsLease t docker { st with containers := containers }).2 := by
  have hnone : ∀ entry ∈ ([] : List Entry), entry = .rejected t :=
    fun entry h => absurd h List.not_mem_nil
  unfold commitRejection DeploymentState.clearPending
  dsimp only
  split_ifs with hstate hclears hlease hpending'
  · exact (failsClean_exit t st ownsLease _ _).effect
  · exact .rejects haccepted hpending hcommitted hnone (.inr ⟨rfl, rfl⟩)
      (isCleanup_exit t (rejectedState t st.pending st) ownsLease _ _)
  · exact .rejects haccepted hpending hcommitted hnone (.inl rfl)
      (isCleanup_containers t (rejectedState t .absent st) _)
  · exact absurd (Bool.eq_false_iff.mpr hpending') hclears
  · exact .rejects haccepted hpending hcommitted (fun entry h => List.mem_singleton.mp h) (.inl rfl)
      (isCleanup_exit t (rejectedState t .absent st) ownsLease _ containers)
  · exact absurd (Bool.eq_false_iff.mpr ‹_›) hclears

/-- What `finishRejection` does. -/
theorem effect_finishRejection (docker : Docker) (haccepted : st.accepted ≠ .valid t)
    (hpending : st.pending = .valid t)
    (hcommitted : st.committed = t.candidate ∨ st.committed = t.previous) :
    Effect t st ((Operation.resolve t (.reject ownsLease docker)).entries
        (finishRejection ownsLease t docker st).1)
      (finishRejection ownsLease t docker st).2 := by
  unfold finishRejection
  dsimp only
  split_ifs
  · exact (failsClean_exit t st ownsLease _ _).effect
  · exact (failsClean_exit t st ownsLease _ _).effect
  · exact effect_commitRejection ownsLease docker _ haccepted hpending hcommitted
  · exact effect_commitRejection ownsLease docker _ haccepted hpending hcommitted
  · exact (failsClean_exit t st ownsLease _ _).effect

/-- What `rejectAccepted` does. -/
theorem effect_rejectAccepted (docker : Docker) (haccepted : st.accepted = .valid t) :
    Effect t st ((Operation.resolve t (.reject ownsLease docker)).entries
        (rejectAccepted ownsLease t docker.files st).1) (rejectAccepted ownsLease t docker.files st).2 := by
  have hfails : Effect t st ((Operation.resolve t (.reject ownsLease docker)).entries .failed)
      (st.exit t ownsLease docker.files) := (failsClean_exit t st ownsLease _ st.containers).effect
  have hstatus : (if ownsLease ∧ (t ∉ st.leases ∨ docker.files.clearsLease = false)
      then Status.failed else .alreadyAccepted) ≠ .succeeded := by
    split_ifs <;> exact fun h => (by cases h)
  unfold rejectAccepted
  dsimp only
  by_cases hcurrent : st.IsCurrent t
  · rw [if_neg (not_not.mpr hcurrent)]
    by_cases habsent : st.pending = .absent
    · rw [if_pos habsent]
      exact FailsClean.effect ⟨hstatus, isCleanup_exit t st ownsLease _ st.containers⟩
    · rw [if_neg habsent]
      by_cases hvalid : st.pending = .valid t
      · have hends : (if docker.files.clearsPending then (if ownsLease ∧ (t ∉ st.leases ∨
            docker.files.clearsLease = false) then Status.failed else .alreadyAccepted)
            else .failed) ≠ .succeeded := by
          split_ifs <;> exact fun h => (by cases h)
        rw [if_pos hvalid, entries_reject hends]
        exact effect_clearPending ownsLease haccepted hvalid hcurrent
          (fun entry h => absurd h List.not_mem_nil) fun _ => rfl
      · rw [if_neg hvalid]
        exact hfails
  · rw [if_pos hcurrent]
    exact hfails

/-- What `reject` does. -/
theorem effect_reject (docker : Docker) :
    Effect t st ((Operation.resolve t (.reject ownsLease docker)).entries
        (reject ownsLease t docker st).1)
      (reject ownsLease t docker st).2 := by
  have hloss : Effect t st
      ((Operation.resolve t (.reject ownsLease docker)).entries
        (closeAfterCapabilityLoss ownsLease t docker st).1)
      (closeAfterCapabilityLoss ownsLease t docker st).2 :=
    (failsClean_closeAfterCapabilityLoss ownsLease docker).effect
  have hunaccepted : st.accepted ≠ .valid t →
      Effect t st ((Operation.resolve t (.reject ownsLease docker)).entries
        (rejectUnaccepted ownsLease t docker st).1) (rejectUnaccepted ownsLease t docker st).2 := by
    intro haccepted
    unfold rejectUnaccepted
    cases hpending : st.pending with
    | absent => exact hloss
    | malformed => exact hloss
    | valid p =>
      dsimp only
      by_cases hp : p = t
      · rw [if_neg (not_not.mpr hp)]
        rw [hp] at hpending
        unfold rejectPending
        split_ifs with hprevious hmark hcandidate hmark
        · exact effect_finishRejection ownsLease docker haccepted hpending (.inr hprevious.1)
        · exact (failsClean_exit t st ownsLease _ _).effect
        · exact effect_finishRejection ownsLease docker haccepted hpending (.inl hcandidate.1)
        · exact (failsClean_exit t st ownsLease _ _).effect
        · exact (failsClean_exit t st ownsLease _ _).effect
      · rw [if_pos hp]
        exact (failsClean_exit t st ownsLease _ _).effect
  unfold reject
  cases haccepted : st.accepted with
  | absent => exact hunaccepted (by rw [haccepted]; exact fun h => (by cases h))
  | malformed => exact hloss
  | valid a =>
    dsimp only
    by_cases ha : a = t
    · rw [if_neg (not_not.mpr ha)]
      rw [ha] at haccepted
      exact effect_rejectAccepted ownsLease docker haccepted
    · rw [if_pos ha]
      exact hunaccepted (by rw [haccepted]; exact fun h => ha (Record.valid.inj h))

/-- **What an action does.** -/
theorem effect_perform (action : ResolverAction) :
    Effect t st ((Operation.resolve t action).entries (action.perform t st).1)
      (action.perform t st).2 := by
  unfold ResolverAction.perform
  by_cases hvalid : ValidTuple t
  · rw [if_neg (not_not.mpr hvalid)]
    cases action with
    | verify now => exact .keeps (isCleanup_containers t st _)
    | accept now files => exact effect_accept now files
    | retire files => exact effect_retire files
    | reject ownsLease docker => exact effect_reject ownsLease docker
  · rw [if_pos hvalid]
    cases action <;> exact .keeps (isCleanup_containers t st _)

/-- **What an action for a tuple can change**: the records where the tuple is pending, what is
committed where it is the deployment of the tuple, and the lease of the tuple. -/
structure ChangesItsOwn (t : PendingTuple) (st st' : DeploymentState) : Prop where
  pending : st'.pending = st.pending ∨ st.pending = .valid t ∧ st'.pending = .absent
  accepted : st'.accepted = st.accepted ∨ st.pending = .valid t ∧ st'.accepted = .valid t
  committed : st'.committed = st.committed ∨ st.pending = .valid t ∧ st'.committed = t.previous ∧
    (st.committed = t.candidate ∨ st.committed = t.previous)
  highWater : st'.highWater = st.highWater
  verified : st'.verified = st.verified
  leases : st'.leases = st.leases ∨ st'.leases = (st.clearLease t).leases

theorem IsCleanup.changesItsOwn (h : IsCleanup t st st') : ChangesItsOwn t st st' where
  pending := .inl h.pending
  accepted := .inl h.accepted
  committed := .inl h.committed
  highWater := h.highWater
  verified := h.verified
  leases := h.leases

/-- An action changes only what is of its tuple. -/
theorem Effect.changesItsOwn {entries : List Entry} (h : Effect t st entries st') :
    ChangesItsOwn t st st' := by
  cases h with
  | keeps hcleanup => exact hcleanup.changesItsOwn
  | accepts hbefore hcurrent hentries hpending hcleanup =>
    refine ⟨?_, ?_, .inl hcleanup.committed, hcleanup.highWater, hcleanup.verified,
      hcleanup.leases⟩
    · rcases hpending with rfl | ⟨-, rfl⟩
      · rcases hbefore with hbefore | ⟨-, habsent⟩
        · exact .inr ⟨hbefore, hcleanup.pending⟩
        · exact .inl (hcleanup.pending.trans habsent.symm)
      · exact .inl hcleanup.pending
    · rcases hbefore with hbefore | ⟨haccepted, -⟩
      · exact .inr ⟨hbefore, hcleanup.accepted⟩
      · exact .inl (hcleanup.accepted.trans haccepted.symm)
  | rejects haccepted hbefore hcommitted hentries hpending hcleanup =>
    refine ⟨?_, .inl hcleanup.accepted, .inr ⟨hbefore, hcleanup.committed, hcommitted⟩,
      hcleanup.highWater, hcleanup.verified, hcleanup.leases⟩
    rcases hpending with rfl | ⟨-, rfl⟩
    · exact .inr ⟨hbefore, hcleanup.pending⟩
    · exact .inl hcleanup.pending

/-! ### The containers -/

/-- The containers of a commit that is not among those removed remain. -/
theorem mem_remaining {closing : Closing} {commits : List Commit} {containers : List Container}
    (hc : c ∈ containers) (hcommit : c.commit ∉ commits) :
    c ∈ remaining closing commits containers :=
  List.mem_filter.mpr ⟨hc, decide_eq_true fun h => hcommit h.1⟩

theorem containers_exit (ownsLease : Bool) (files : Files) :
    (st.exit t ownsLease files).containers = st.containers := by
  unfold DeploymentState.exit
  split_ifs <;> rfl

theorem containers_clearPending (files : Files) :
    (st.clearPending files).containers = st.containers := by
  unfold DeploymentState.clearPending
  split_ifs <;> rfl

theorem containers_accept (now : ℕ) (files : Files) :
    (accept t now files st).2.containers = st.containers := by
  have hpending : (acceptPending t now files st).2.containers = st.containers := by
    unfold acceptPending
    split_ifs
    · rfl
    · exact containers_clearPending files
    · exact containers_clearPending files
    · rfl
  unfold accept
  split
  · exact hpending
  · rfl
  · split_ifs <;> first | exact hpending | rfl | exact containers_clearPending files

/-- Retiring leaves the containers. -/
theorem containers_retire (files : Files) : (retire t files st).2.containers = st.containers := by
  have hpending : (retirePending t st).2.containers = st.containers := by
    unfold retirePending
    split_ifs <;> rfl
  unfold retire
  by_cases hlease : t ∈ st.leases
  · rw [if_neg (not_not.mpr hlease)]
    split
    · exact hpending
    · rfl
    · split_ifs
      · exact hpending
      · exact containers_exit true files
      · exact (containers_exit true files).trans (containers_clearPending files)
      · rfl
  · rw [if_pos hlease]

/-- A rejection of an accepted tuple leaves the containers. -/
theorem containers_rejectAccepted (ownsLease : Bool) (files : Files) :
    (rejectAccepted ownsLease t files st).2.containers = st.containers := by
  unfold rejectAccepted
  dsimp only
  split_ifs
  all_goals
    first
    | exact containers_exit ownsLease files
    | exact (containers_exit ownsLease files).trans (containers_clearPending files)

/-- A loss of the capability leaves the containers of the committed deployment, unless that is the
candidate, which owns the high-water mark. -/
theorem mem_containers_closeAfterCapabilityLoss (ownsLease : Bool) (hvalid : ValidTuple t)
    (hc : c ∈ st.containers) (hcommit : c.commit = st.committed) (hnot : ¬ st.IsCurrent t) :
    c ∈ (closeAfterCapabilityLoss ownsLease t docker st).2.containers := by
  unfold closeAfterCapabilityLoss
  by_cases hprevious : st.CurrentMatches t.previous
  · rw [if_pos hprevious, containers_exit]
    refine mem_remaining hc fun hmem => ?_
    rw [hcommit, hprevious.1, List.mem_singleton] at hmem
    exact hvalid.distinct (congrArg Commit.revision hmem).symm
  · rw [if_neg hprevious, if_neg hnot, containers_exit]
    exact hc

/-- **The containers of the committed deployment are kept** by an action for a tuple that is
accepted, or is not pending, and is not the deployment that owns the high-water mark unless another
tuple is pending. -/
theorem mem_containers_perform (action : ResolverAction) (hc : c ∈ st.containers)
    (hcommit : c.commit = st.committed) (hrecord : st.accepted ≠ .malformed)
    (hnot : st.accepted = .valid t ∨ st.pending ≠ .valid t ∧ (st.IsCurrent t → ∃ p, st.pending = .valid p)) :
    c ∈ (action.perform t st).2.containers := by
  unfold ResolverAction.perform
  by_cases hvalid : ValidTuple t
  · rw [if_neg (not_not.mpr hvalid)]
    cases action with
    | verify now => exact hc
    | accept now files =>
      rw [show (accept t now files st).2.containers = st.containers from containers_accept now files]
      exact hc
    | retire files =>
      rw [show (retire t files st).2.containers = st.containers from containers_retire files]
      exact hc
    | reject ownsLease docker =>
      show c ∈ (reject ownsLease t docker st).2.containers
      rcases hnot with haccepted | ⟨hpending, hcurrent⟩
      · unfold reject
        rw [haccepted]
        dsimp only
        rw [if_neg (not_not.mpr rfl), containers_rejectAccepted]
        exact hc
      · have hloss : (∀ p, st.pending ≠ .valid p) →
            c ∈ (closeAfterCapabilityLoss ownsLease t docker st).2.containers :=
          fun hnone => mem_containers_closeAfterCapabilityLoss ownsLease hvalid hc hcommit
            fun h => (hcurrent h).elim hnone
        have hunaccepted : c ∈ (rejectUnaccepted ownsLease t docker st).2.containers := by
          unfold rejectUnaccepted
          split
          · next habsent => exact hloss fun p hp => (by rw [habsent] at hp; cases hp)
          · next hmalformed => exact hloss fun p hp => (by rw [hmalformed] at hp; cases hp)
          · next p hp =>
            rw [if_pos (fun h => hpending (by rw [hp, h])), containers_exit]
            exact hc
        unfold reject
        split
        · exact hunaccepted
        · next hmalformed => exact absurd hmalformed hrecord
        · split_ifs
          · exact hunaccepted
          · rw [containers_rejectAccepted]
            exact hc
  · rw [if_pos hvalid]
    exact hc

end Resolver

/-! ### What a deploy and a rollback do -/

section Operations

variable {git : Repository} {t : PendingTuple} {st st' : DeploymentState}

/-- What changes neither the records nor what is committed. -/
structure KeepsRecords (st st' : DeploymentState) : Prop where
  pending : st'.pending = st.pending
  accepted : st'.accepted = st.accepted
  committed : st'.committed = st.committed
  highWater : st'.highWater = st.highWater

/-- **What a deploy does**, with what it adds to the log. -/
inductive DeployEffect (git : Repository) (t : PendingTuple) (st : DeploymentState) :
    List Entry → DeploymentState → Prop
  | keeps {st' : DeploymentState} (hkeeps : KeepsRecords st st') : DeployEffect git t st [] st'
  /-- The tuple is published, and may be withdrawn, left pending, or committed. -/
  | publishes {st' : DeploymentState} {main : JsString} {now : ℕ}
      (haccepted : DeployAccepted git t now main st) (hrecord : st'.accepted = st.accepted)
      (hpending : st'.pending = .absent ∨ st'.pending = .valid t)
      (hcommitted : st'.committed = st.committed ∧ st'.highWater = st.highWater ∨
        st'.pending = .valid t ∧ st'.committed = t.candidate ∧ st'.highWater = t.revision) :
      DeployEffect git t st [.published t] st'

/-- What a deploy leaves that has published its tuple, and fails. -/
theorem deployEffect_withdraw {now : ℕ} {main : JsString} {leases : List PendingTuple}
    {verified : JsString → Option JsString} {containers : List Container} (progress : Progress)
    (cleanup : Cleanup) (haccepted : DeployAccepted git t now main st) :
    DeployEffect git t st [.published t]
      (withdraw t progress cleanup { st with
        pending := .valid t, leases := leases, verified := verified, containers := containers }).2 := by
  unfold withdraw cleanupOnExit DeploymentState.clearPending
  split_ifs <;>
    first
    | exact .publishes haccepted rfl (.inl rfl) (.inl ⟨rfl, rfl⟩)
    | exact .publishes haccepted rfl (.inr rfl) (.inl ⟨rfl, rfl⟩)

/-- **What a deploy does.** -/
theorem deployEffect_deploy (now : ℕ) (main : JsString) (ending : DeployEnd) :
    DeployEffect git t st
      ((Operation.deploy t now main ending).entries (deploy git t now main ending st).1)
      (deploy git t now main ending st).2 := by
  unfold deploy
  by_cases haccepted : DeployAccepted git t now main st
  · rw [if_neg (not_not.mpr haccepted)]
    cases ending with
    | refuses containers => exact .keeps ⟨rfl, rfl, rfl, rfl⟩
    | publishes progress cleanup containers =>
      dsimp only
      by_cases htoken : ∃ lease ∈ st.leases, lease.token = t.token
      · rw [if_pos htoken]
        exact deployEffect_withdraw .published cleanup haccepted
      · rw [if_neg htoken]
        cases progress with
        | published => exact deployEffect_withdraw .published cleanup haccepted
        | leased => exact deployEffect_withdraw .leased cleanup haccepted
        | launched => exact deployEffect_withdraw .launched cleanup haccepted
        | verified => exact deployEffect_withdraw .verified cleanup haccepted
        | committed => exact .publishes haccepted rfl (.inr rfl) (.inr ⟨rfl, rfl, rfl⟩)
  · rw [if_pos haccepted]
    exact .keeps ⟨rfl, rfl, rfl, rfl⟩

/-- **What a rollback does**: it commits an older revision, under the same high-water mark. -/
inductive RollbackEffect (git : Repository) (st : DeploymentState) : DeploymentState → Prop
  | keeps {st' : DeploymentState} (hkeeps : KeepsRecords st st') : RollbackEffect git st st'
  | commits {st' : DeploymentState} {target expectedCurrent main : JsString}
      (haccepted : RollbackAccepted git target expectedCurrent main st)
      (hpending : st'.pending = st.pending) (hrecord : st'.accepted = st.accepted)
      (hcommitted : st'.committed.revision = target) (hmark : st'.highWater = st.highWater) :
      RollbackEffect git st st'

theorem rollbackEffect_rollback (target expectedCurrent main : JsString) (verified : Bool)
    (containers : List Container) :
    RollbackEffect git st (rollback git target expectedCurrent main verified containers st).2 := by
  unfold rollback
  cases st.verified target with
  | none => exact .keeps ⟨rfl, rfl, rfl, rfl⟩
  | some imageId =>
    dsimp only
    by_cases haccepted : RollbackAccepted git target expectedCurrent main st
    · rw [if_neg (not_not.mpr haccepted)]
      split_ifs
      · exact .keeps ⟨rfl, rfl, rfl, rfl⟩
      · exact .commits haccepted rfl rfl rfl rfl
    · rw [if_pos haccepted]
      exact .keeps ⟨rfl, rfl, rfl, rfl⟩

end Operations

/-! ### The invariant -/

/-- The tuples that have been published, in order. -/
def publishedIn (log : List Entry) : List PendingTuple :=
  log.filterMap fun
    | .published t => some t
    | _ => none

theorem publishedIn_append (log entries : List Entry) :
    publishedIn (log ++ entries) = publishedIn log ++ publishedIn entries :=
  List.filterMap_append

/-- A decision publishes nothing. -/
theorem publishedIn_append_of_eq {log entries : List Entry} {decision : Entry}
    (hdecision : ∀ t, decision ≠ .published t) (h : ∀ entry ∈ entries, entry = decision) :
    publishedIn (log ++ entries) = publishedIn log := by
  rw [publishedIn_append]
  refine List.append_right_eq_self.mpr (List.filterMap_eq_nil_iff.mpr fun entry hentry => ?_)
  rw [h entry hentry]
  cases decision with
  | published t => exact absurd rfl (hdecision t)
  | accepted t => rfl
  | rejected t => rfl

theorem mem_publishedIn {log : List Entry} {t : PendingTuple} :
    t ∈ publishedIn log ↔ .published t ∈ log := by
  unfold publishedIn
  rw [List.mem_filterMap]
  constructor
  · rintro ⟨entry, hentry, heq⟩
    cases entry with
    | published t' =>
      cases heq
      exact hentry
    | accepted t' => cases heq
    | rejected t' => cases heq
  · exact fun h => ⟨_, h, rfl⟩

/-- What holds of a pending tuple: it is the last one published, and it is committed or follows what
is committed. -/
structure IsPending (run : Run) (t : PendingTuple) : Prop where
  last : (publishedIn run.log).getLast? = some t
  committed : run.state.committed = t.candidate ∧ run.state.highWater = t.revision ∨
    run.state.committed = t.previous
  distinct : t.revision ≠ t.previousRevision
  undecided : .accepted t ∉ run.log ∧ .rejected t ∉ run.log

/-- **The invariant of all runs.** -/
structure Run.Sound (run : Run) : Prop where
  wellFormed : run.state.pending ≠ .malformed ∧ run.state.accepted ≠ .malformed
  nodup : (publishedIn run.log).Nodup
  pending : ∀ t, run.state.pending = .valid t → IsPending run t
  accepted : ∀ t, run.state.accepted = .valid t → t ∈ publishedIn run.log ∧ .rejected t ∉ run.log
  decided : ∀ t, .accepted t ∈ run.log → t ∈ publishedIn run.log ∧ .rejected t ∉ run.log
  rejected : ∀ t, .rejected t ∈ run.log → t ∈ publishedIn run.log
  current : (∀ t, run.state.pending = .valid t → run.state.committed ≠ t.candidate) →
    run.state.highWater = run.state.committed.revision →
    (∀ t, .accepted t ∉ run.log) ∨
      ∃ a, run.state.accepted = .valid a ∧ a.candidate = run.state.committed

/-- The invariant holds at first. -/
theorem sound_of_isInitial {run : Run} (h : run.IsInitial) : run.Sound where
  wellFormed := by
    rw [h.pending, h.accepted]
    exact ⟨fun h => (by cases h), fun h => (by cases h)⟩
  nodup := by
    rw [h.log]
    exact List.nodup_nil
  pending t ht := by
    rw [h.pending] at ht
    cases ht
  accepted t ht := by
    rw [h.accepted] at ht
    cases ht
  decided t ht := by
    rw [h.log] at ht
    cases ht
  rejected t ht := by
    rw [h.log] at ht
    cases ht
  current _ _ := by
    rw [h.log]
    exact .inl fun t ht => (by cases ht)

section Sound

variable {git : Repository} {run run' : Run} {t : PendingTuple}

/-- What keeps the records, and logs nothing new, keeps the invariant. -/
theorem Run.Sound.keeps (h : run.Sound) (hkeeps : KeepsRecords run.state run'.state)
    (hlog : ∀ entry, entry ∈ run'.log ↔ entry ∈ run.log)
    (hpublished : publishedIn run'.log = publishedIn run.log) : run'.Sound where
  wellFormed := by
    rw [hkeeps.pending, hkeeps.accepted]
    exact h.wellFormed
  nodup := hpublished ▸ h.nodup
  pending t ht := by
    obtain ⟨hlast, hcommitted, hdistinct, hundecided⟩ := h.pending t (hkeeps.pending ▸ ht)
    refine ⟨hpublished ▸ hlast, ?_, hdistinct, fun hmem => hundecided.1 ((hlog _).mp hmem),
      fun hmem => hundecided.2 ((hlog _).mp hmem)⟩
    rw [hkeeps.committed, hkeeps.highWater]
    exact hcommitted
  accepted t ht := by
    obtain ⟨hmem, hnot⟩ := h.accepted t (hkeeps.accepted ▸ ht)
    exact ⟨hpublished ▸ hmem, fun hrejected => hnot ((hlog _).mp hrejected)⟩
  decided t ht := by
    obtain ⟨hmem, hnot⟩ := h.decided t ((hlog _).mp ht)
    exact ⟨hpublished ▸ hmem, fun hrejected => hnot ((hlog _).mp hrejected)⟩
  rejected t ht := hpublished ▸ h.rejected t ((hlog _).mp ht)
  current hpending hmark := by
    rw [hkeeps.pending, hkeeps.committed] at hpending
    rw [hkeeps.highWater, hkeeps.committed] at hmark
    rw [hkeeps.accepted, hkeeps.committed]
    rcases h.current hpending hmark with hnone | hrecord
    · exact .inl fun t ht => hnone t ((hlog _).mp ht)
    · exact .inr hrecord

theorem IsCleanup.keepsRecords {st st' : DeploymentState} (h : IsCleanup t st st') :
    KeepsRecords st st' :=
  ⟨h.pending, h.accepted, h.committed, h.highWater⟩

/-- The candidate of a pending tuple is not its predecessor. -/
theorem IsPending.previous_ne (h : IsPending run t) : t.previous ≠ t.candidate :=
  fun heq => h.distinct (congrArg Commit.revision heq).symm

/-- A tuple that is pending, or has the accepted record, has been published and not rejected. -/
theorem Run.Sound.published_of_before (h : run.Sound)
    (hbefore : run.state.pending = .valid t ∨
      run.state.accepted = .valid t ∧ run.state.pending = .absent) :
    t ∈ publishedIn run.log ∧ .rejected t ∉ run.log := by
  rcases hbefore with hpending | ⟨haccepted, -⟩
  · have hispending := h.pending t hpending
    exact ⟨List.mem_of_getLast? hispending.last, hispending.undecided.2⟩
  · exact h.accepted t haccepted

variable {entries : List Entry}

/-- An acceptance keeps the invariant.

**Proof sketch.** Where the tuple is left pending, nothing is logged, and it is the committed
deployment. Otherwise nothing is pending, and the accepted record is that of the committed
deployment. -/
theorem Run.Sound.accepts (h : run.Sound) {pending : Record}
    (hbefore : run.state.pending = .valid t ∨ run.state.accepted = .valid t ∧ run.state.pending = .absent)
    (hcurrent : run.state.IsCurrent t) (hentries : ∀ entry ∈ entries, entry = .accepted t)
    (hpending : pending = .absent ∨ entries = [] ∧ pending = run.state.pending)
    (hcleanup : IsCleanup t (acceptedState t pending run.state) run'.state)
    (hlog : run'.log = run.log ++ entries) : run'.Sound := by
  have hmem : ∀ entry, entry ∈ run'.log → entry ∈ run.log ∨ entry = .accepted t := by
    intro entry hentry
    rw [hlog, List.mem_append] at hentry
    exact hentry.imp_right (hentries entry)
  have hrejected : ∀ p, .rejected p ∈ run'.log → .rejected p ∈ run.log :=
    fun p hp => (hmem _ hp).resolve_right fun heq => (by cases heq)
  have hpublished : publishedIn run'.log = publishedIn run.log :=
    hlog ▸ publishedIn_append_of_eq (by simp) hentries
  have hbefore' := h.published_of_before hbefore
  have hcommitted : run'.state.committed = t.candidate := hcleanup.committed.trans hcurrent.1.1
  have hleft : ∀ p, run'.state.pending = .valid p → entries = [] ∧ run.state.pending = .valid p := by
    intro p hp
    rw [hcleanup.pending] at hp
    rcases hpending with rfl | ⟨hnone, rfl⟩
    · cases hp
    · exact ⟨hnone, hp⟩
  exact {
    wellFormed := by
      rw [hcleanup.pending, hcleanup.accepted]
      refine ⟨?_, fun h => (by cases h)⟩
      rcases hpending with rfl | ⟨-, rfl⟩
      · exact fun h => (by cases h)
      · exact h.wellFormed.1
    nodup := hpublished ▸ h.nodup
    pending := by
      intro p hp
      obtain ⟨hnone, hold⟩ := hleft p hp
      obtain ⟨hlast, hstate, hdistinct, hundecided⟩ := h.pending p hold
      rw [hnone, List.append_nil] at hlog
      refine ⟨hpublished ▸ hlast, ?_, hdistinct, hlog ▸ hundecided⟩
      rw [hcleanup.committed, hcleanup.highWater]
      exact hstate
    accepted := by
      intro p hp
      rw [hcleanup.accepted] at hp
      obtain rfl := Record.valid.inj hp
      exact ⟨hpublished ▸ hbefore'.1, fun hmem => hbefore'.2 (hrejected _ hmem)⟩
    decided := by
      intro p hp
      rw [hpublished]
      have hin : p ∈ publishedIn run.log ∧ .rejected p ∉ run.log := by
        rcases hmem _ hp with hold | hnew
        · exact h.decided p hold
        · obtain rfl := Entry.accepted.inj hnew
          exact hbefore'
      exact ⟨hin.1, fun hmem => hin.2 (hrejected p hmem)⟩
    rejected := fun p hp => hpublished ▸ h.rejected p (hrejected p hp)
    current := fun _ _ => .inr ⟨t, hcleanup.accepted, hcommitted.symm⟩ }

/-- A rejection keeps the invariant.

**Proof sketch.** The predecessor is committed afterwards. It owns the high-water mark only where the
candidate has never been committed; the accepted record is then what it was before. -/
theorem Run.Sound.rejects (h : run.Sound) {pending : Record}
    (haccepted : run.state.accepted ≠ .valid t) (hbefore : run.state.pending = .valid t)
    (hentries : ∀ entry ∈ entries, entry = .rejected t)
    (hpending : pending = .absent ∨ entries = [] ∧ pending = run.state.pending)
    (hcleanup : IsCleanup t (rejectedState t pending run.state) run'.state)
    (hlog : run'.log = run.log ++ entries) : run'.Sound := by
  have hmem : ∀ entry, entry ∈ run'.log → entry ∈ run.log ∨ entry = .rejected t := by
    intro entry hentry
    rw [hlog, List.mem_append] at hentry
    exact hentry.imp_right (hentries entry)
  have hkept : ∀ p, .accepted p ∈ run'.log → .accepted p ∈ run.log :=
    fun p hp => (hmem _ hp).resolve_right fun heq => (by cases heq)
  have hpublished : publishedIn run'.log = publishedIn run.log :=
    hlog ▸ publishedIn_append_of_eq (by simp) hentries
  have hispending := h.pending t hbefore
  have hrejected : ∀ p, .rejected p ∉ run.log → p ≠ t → .rejected p ∉ run'.log := by
    intro p hnot hne hp
    rcases hmem _ hp with hold | hnew
    · exact hnot hold
    · exact hne (Entry.rejected.inj hnew)
  have hcommitted : run'.state.committed = t.previous := hcleanup.committed
  exact {
    wellFormed := by
      rw [hcleanup.pending, hcleanup.accepted]
      refine ⟨?_, h.wellFormed.2⟩
      rcases hpending with rfl | ⟨-, rfl⟩
      · exact fun h => (by cases h)
      · exact h.wellFormed.1
    nodup := hpublished ▸ h.nodup
    pending := by
      intro p hp
      rw [hcleanup.pending] at hp
      rcases hpending with rfl | ⟨hnone, rfl⟩
      · cases hp
      · obtain rfl := Record.valid.inj (hbefore.symm.trans hp)
        rw [hnone, List.append_nil] at hlog
        exact ⟨hpublished ▸ hispending.last, .inr hcommitted, hispending.distinct,
          hlog ▸ hispending.undecided⟩
    accepted := by
      intro p hp
      rw [hcleanup.accepted] at hp
      obtain ⟨hin, hnot⟩ := h.accepted p hp
      exact ⟨hpublished ▸ hin, hrejected p hnot fun heq => haccepted (heq ▸ hp)⟩
    decided := by
      intro p hp
      obtain ⟨hin, hnot⟩ := h.decided p (hkept p hp)
      exact ⟨hpublished ▸ hin,
        hrejected p hnot fun heq => hispending.undecided.1 (heq ▸ hkept p hp)⟩
    rejected := by
      intro p hp
      rw [hpublished]
      rcases hmem _ hp with hold | hnew
      · exact h.rejected p hold
      · obtain rfl := Entry.rejected.inj hnew
        exact List.mem_of_getLast? hispending.last
    current := by
      intro _ hmark
      rw [hcleanup.highWater, hcommitted] at hmark
      rw [hcleanup.accepted, hcommitted]
      rcases hispending.committed with ⟨-, hcandidate⟩ | hprevious
      · exact absurd (hcandidate.symm.trans hmark) hispending.distinct
      · have hnot : ∀ p, run.state.pending = .valid p → run.state.committed ≠ p.candidate := by
          intro p hp
          obtain rfl := Record.valid.inj (hbefore.symm.trans hp)
          rw [hprevious]
          exact hispending.previous_ne
        rw [← hprevious] at hmark ⊢
        exact (h.current hnot hmark).imp_left fun hnone p hp => hnone p (hkept p hp) }

/-- An action of the resolver keeps the invariant. -/
theorem Run.Sound.resolve (h : run.Sound) (heffect : Effect t run.state entries run'.state)
    (hlog : run'.log = run.log ++ entries) :
    run'.Sound := by
  cases heffect with
  | keeps hcleanup =>
    rw [List.append_nil] at hlog
    exact h.keeps hcleanup.keepsRecords (fun entry => by rw [hlog]) (by rw [hlog])
  | accepts hbefore hcurrent hentries hpending hcleanup =>
    exact h.accepts hbefore hcurrent hentries hpending hcleanup hlog
  | rejects haccepted hbefore hcommitted hentries hpending hcleanup =>
    exact h.rejects haccepted hbefore hentries hpending hcleanup hlog

/-- A deploy of a tuple of its own keeps the invariant. -/
theorem Run.Sound.deploy (h : run.Sound) (hfresh : .published t ∉ run.log)
    (heffect : DeployEffect git t run.state entries run'.state)
    (hlog : run'.log = run.log ++ entries) :
    run'.Sound := by
  cases heffect with
  | keeps hkeeps =>
    rw [List.append_nil] at hlog
    exact h.keeps hkeeps (fun entry => by rw [hlog]) (by rw [hlog])
  | publishes hchecks hrecord hpending hcommitted =>
    have hpublished : publishedIn run'.log = publishedIn run.log ++ [t] := by
      rw [hlog, publishedIn_append]
      rfl
    have hold : ∀ entry, (∀ p, entry ≠ .published p) → (entry ∈ run'.log ↔ entry ∈ run.log) := by
      intro entry hentry
      rw [hlog, List.mem_append, List.mem_singleton]
      exact or_iff_left (hentry t)
    have hnew : t ∉ publishedIn run.log := fun hmem => hfresh (mem_publishedIn.mp hmem)
    have haccepted : ∀ p, .accepted p ∈ run'.log ↔ .accepted p ∈ run.log :=
      fun p => hold _ fun q heq => (by cases heq)
    have hrejected : ∀ p, .rejected p ∈ run'.log ↔ .rejected p ∈ run.log :=
      fun p => hold _ fun q heq => (by cases heq)
    exact {
      wellFormed := by
        rw [hrecord]
        refine ⟨?_, h.wellFormed.2⟩
        rcases hpending with hp | hp <;> exact fun h => (by rw [hp] at h; cases h)
      nodup := hpublished ▸
        h.nodup.append (List.nodup_singleton t) (List.disjoint_singleton.mpr hnew)
      pending := by
        intro p hp
        rcases hpending with habsent | hvalid
        · rw [habsent] at hp
          cases hp
        obtain rfl := Record.valid.inj (hvalid.symm.trans hp)
        refine ⟨by rw [hpublished, List.getLast?_concat], ?_, hchecks.tuple.distinct, fun hmem => ?_,
          fun hmem => ?_⟩
        · exact hcommitted.symm.imp And.right fun hsame => hsame.1.trans hchecks.current.1
        · exact hnew (h.decided _ ((haccepted _).mp hmem)).1
        · exact hnew (h.rejected _ ((hrejected _).mp hmem))
      accepted := by
        intro p hp
        obtain ⟨hin, hnot⟩ := h.accepted p (hrecord ▸ hp)
        rw [hpublished, hrejected]
        exact ⟨List.mem_append_left _ hin, hnot⟩
      decided := by
        intro p hp
        obtain ⟨hin, hnot⟩ := h.decided p ((haccepted p).mp hp)
        rw [hpublished, hrejected]
        exact ⟨List.mem_append_left _ hin, hnot⟩
      rejected := by
        intro p hp
        rw [hpublished]
        exact List.mem_append_left _ (h.rejected p ((hrejected p).mp hp))
      current := by
        intro hnot hmark
        rcases hcommitted with ⟨hcommitted, hsame⟩ | ⟨hvalid, hcandidate, -⟩
        · rw [hsame, hcommitted] at hmark
          rw [hrecord, hcommitted]
          have habsent : ∀ p, run.state.pending = .valid p → run.state.committed ≠ p.candidate := by
            intro p hp
            rw [hchecks.pending] at hp
            cases hp
          exact (h.current habsent hmark).imp_left fun hnone p hp => hnone p ((haccepted p).mp hp)
        · exact absurd hcandidate (hnot t hvalid) }

/-- A rollback keeps the invariant: it leaves the high-water mark. -/
theorem Run.Sound.rollback (h : run.Sound) (heffect : RollbackEffect git run.state run'.state)
    (hlog : run'.log = run.log) : run'.Sound := by
  cases heffect with
  | keeps hkeeps => exact h.keeps hkeeps (fun entry => by rw [hlog]) (by rw [hlog])
  | commits hchecks hpending hrecord hcommitted hmark =>
    exact {
      wellFormed := by
        rw [hpending, hrecord]
        exact h.wellFormed
      nodup := hlog ▸ h.nodup
      pending := by
        intro p hp
        rw [hpending, hchecks.pending] at hp
        cases hp
      accepted := fun p hp => hlog ▸ h.accepted p (hrecord ▸ hp)
      decided := hlog ▸ h.decided
      rejected := hlog ▸ h.rejected
      current := by
        intro _ hmark'
        -- The target would be the high-water mark, and so a descendant of what is committed.
        have htarget := hchecks.highWater
        rw [← hmark, hmark', hcommitted] at htarget
        exact absurd (git.antisymm hchecks.ancestor htarget) hchecks.distinct }

/-- The operations of runs in which each deploy publishes a tuple of its own. -/
def OwnTuples (run : Run) : Operation → Prop
  | .deploy t _ _ _ => .published t ∉ run.log
  | _ => True

instance (run : Run) : DecidablePred (OwnTuples run)
  | .deploy _ _ _ _ => inferInstanceAs (Decidable (_ ∉ _))
  | .resolve _ _ => .isTrue trivial
  | .rollback _ _ _ _ _ => .isTrue trivial

/-- Each operation keeps the invariant. -/
theorem Run.Sound.perform (h : run.Sound) {operation : Operation} (hown : OwnTuples run operation) :
    (run.perform git operation).Sound := by
  cases operation with
  | deploy t now main ending =>
    exact h.deploy hown (deployEffect_deploy now main ending) rfl
  | resolve t action => exact h.resolve (effect_perform action) rfl
  | rollback target expectedCurrent main verified containers =>
    exact h.rollback (rollbackEffect_rollback target expectedCurrent main verified containers)
      (List.append_nil _)

/-- **Every run is sound.** -/
theorem sound_of_reachable (h : (system git).Reachable OwnTuples run) : run.Sound :=
  h.invariant (I := Run.Sound) (fun _ hinit => sound_of_isInitial hinit)
    fun _ _ _ hsound hown hstep => by
      cases hstep
      exact hsound.perform hown

end Sound

/-! ### Accepted deployments -/

/-- A tuple is another one, or was published before it. -/
def IsNoNewer (log : List Entry) (t a : PendingTuple) : Prop :=
  ∃ before after, publishedIn log = before ++ a :: after ∧ (t = a ∨ t ∈ before)

/-- The accepted record is not that of another tuple with the same revision and image. -/
def OwnsRecord (st : DeploymentState) (t : PendingTuple) : Prop :=
  ∀ a, st.accepted = .valid a → a.candidate = t.candidate → a = t

/-- The revisions of which none is followed by a proper ancestor. -/
def NeverRegresses (git : Repository) (highWaters : List JsString) : Prop :=
  highWaters.Pairwise fun earlier later => git.IsAncestor later earlier → later = earlier

instance (git : Repository) : DecidablePred (NeverRegresses git) :=
  fun _ => inferInstanceAs (Decidable (List.Pairwise _ _))

/-- **What holds of a run**: no tuple is accepted and rejected, an action of the resolver changes
only what is of its tuple, and the runtimes of the committed deployment, once accepted, are not
closed for a tuple that is no newer. -/
structure DeploymentsHold (run : Run) : Prop where
  exclusive : ∀ t, ¬ (.accepted t ∈ run.log ∧ .rejected t ∈ run.log)
  changesItsOwn : ∀ t (action : ResolverAction),
    ChangesItsOwn t run.state (action.perform t run.state).2
  keepsRuntimes : ∀ t a (action : ResolverAction), .accepted a ∈ run.log →
    run.state.committed = a.candidate → IsNoNewer run.log t a → OwnsRecord run.state t →
    ∀ c ∈ run.state.containers, c.commit = a.candidate →
      c ∈ (action.perform t run.state).2.containers

section Hold

variable {git : Repository} {run : Run} {t a : PendingTuple}

/-- A tuple that is no newer than an accepted one is not pending. -/
theorem Run.Sound.pending_ne (h : run.Sound) (haccepted : .accepted a ∈ run.log)
    (hnewer : IsNoNewer run.log t a) : run.state.pending ≠ .valid t := by
  intro hpending
  obtain ⟨before, after, hlog, heq | hmem⟩ := hnewer
  · exact (h.pending t hpending).undecided.1 (heq ▸ haccepted)
  · -- It is the last one that has been published, and would be published twice.
    have hlast := (h.pending t hpending).last
    have hnodup := h.nodup
    rw [hlog] at hlast hnodup
    rw [List.getLast?_append_of_ne_nil _ (List.cons_ne_nil _ _)] at hlast
    exact (List.nodup_append.mp hnodup).2.2 t hmem t (List.mem_of_getLast? hlast) rfl

/-- **The runtimes of an accepted deployment are kept.** -/
theorem keepsRuntimes_of_sound (h : run.Sound) (action : ResolverAction)
    (haccepted : .accepted a ∈ run.log) (hcommitted : run.state.committed = a.candidate)
    (hnewer : IsNoNewer run.log t a) (howns : OwnsRecord run.state t) {c : Container}
    (hc : c ∈ run.state.containers) (hcommit : c.commit = a.candidate) :
    c ∈ (action.perform t run.state).2.containers := by
  refine mem_containers_perform action hc (hcommit.trans hcommitted.symm) h.wellFormed.2 ?_
  have hpending := h.pending_ne haccepted hnewer
  by_cases hvalid : ∃ p, run.state.pending = .valid p
  · exact .inr ⟨hpending, fun _ => hvalid⟩
  by_cases hcurrent : run.state.IsCurrent t
  · -- The deployment of the tuple owns the high-water mark, so that the accepted record is its own.
    have habsent : run.state.pending = .absent := by
      cases heq : run.state.pending with
      | absent => rfl
      | malformed => exact absurd heq h.wellFormed.1
      | valid p => exact absurd ⟨p, heq⟩ hvalid
    have hmark : run.state.highWater = run.state.committed.revision := by
      rw [hcurrent.2, hcurrent.1.1]
      rfl
    have hnot : ∀ p, run.state.pending = .valid p → run.state.committed ≠ p.candidate :=
      fun p hp => absurd ⟨p, hp⟩ hvalid
    rcases h.current hnot hmark with hnone | ⟨a', hrecord, hcandidate⟩
    · exact absurd haccepted (hnone a)
    · obtain rfl := howns a' hrecord (hcandidate.trans hcurrent.1.1)
      exact .inl hrecord
  · exact .inr ⟨hpending, fun h => absurd h hcurrent⟩

/-- What holds of a run follows from the invariant. -/
theorem Run.Sound.deploymentsHold (h : run.Sound) : DeploymentsHold run where
  exclusive t ht := (h.decided t ht.1).2 ht.2
  changesItsOwn _ action := (effect_perform action).changesItsOwn
  keepsRuntimes _ _ action haccepted hcommitted hnewer howns _ hc hcommit :=
    keepsRuntimes_of_sound h action haccepted hcommitted hnewer howns hc hcommit

/-! ### The high-water mark -/

/-- A deploy from the sentinel is that of a descendant of the high-water mark, if there is one. -/
def FollowsHighWater (git : Repository) (run : Run) : Operation → Prop
  | .deploy t _ _ _ => t.previous = sentinel →
    run.state.highWater = sentinelRevision ∨ git.IsAncestor run.state.highWater t.revision
  | _ => True

instance (git : Repository) (run : Run) : DecidablePred (FollowsHighWater git run)
  | .deploy _ _ _ _ => inferInstanceAs (Decidable (_ → _ ∨ _))
  | .resolve _ _ => .isTrue trivial
  | .rollback _ _ _ _ _ => .isTrue trivial

/-- The mark of a state follows another one: it is the same one, or a descendant, or the first
one. -/
def Follows (git : Repository) (earlier later : JsString) : Prop :=
  later = earlier ∨ git.IsAncestor earlier later ∨ earlier = sentinelRevision

theorem Follows.trans {r s u : JsString} (hrs : Follows git r s) (hsu : Follows git s u) :
    Follows git r u := by
  rcases hrs with rfl | hrs | rfl
  · exact hsu
  · rcases hsu with rfl | hsu | rfl
    · exact .inr (.inl hrs)
    · exact .inr (.inl (git.trans hrs hsu))
    · exact absurd hrs (git.sentinel r)
  · exact .inr (.inr rfl)

/-- What follows a mark is not a proper ancestor of it. -/
theorem Follows.eq_of_isAncestor {r s : JsString} (h : Follows git r s) (hrs : git.IsAncestor s r) :
    s = r := by
  rcases h with rfl | h | rfl
  · rfl
  · exact git.antisymm hrs h
  · exact absurd hrs (git.sentinel s)

/-- A deploy moves the high-water mark to one that follows it. -/
theorem DeployEffect.follows {st st' : DeploymentState} {entries : List Entry}
    (h : DeployEffect git t st entries st') (hfollows : t.previous = sentinel →
      st.highWater = sentinelRevision ∨ git.IsAncestor st.highWater t.revision) :
    Follows git st.highWater st'.highWater := by
  cases h with
  | keeps hkeeps => exact .inl hkeeps.highWater
  | publishes hchecks hrecord hpending hcommitted =>
    rcases hcommitted with ⟨-, hsame⟩ | ⟨-, -, hmark⟩
    · exact .inl hsame
    rw [hmark]
    by_cases hsentinel : t.previous = sentinel
    · rcases hfollows hsentinel with hfirst | hancestor
      · exact .inr (.inr hfirst)
      · exact .inr (.inl hancestor)
    · exact .inr (.inl (hchecks.ancestry.2 hsentinel).2.2.2)

/-- A rollback leaves the high-water mark. -/
theorem RollbackEffect.highWater {st st' : DeploymentState} (h : RollbackEffect git st st') :
    st'.highWater = st.highWater := by
  cases h with
  | keeps hkeeps => exact hkeeps.highWater
  | commits hchecks hpending hrecord hcommitted hmark => exact hmark

/-- Each operation moves the high-water mark to one that follows it. -/
theorem follows_perform {operation : Operation} (hfollows : FollowsHighWater git run operation) :
    Follows git run.state.highWater (run.perform git operation).state.highWater := by
  cases operation with
  | deploy t now main ending => exact (deployEffect_deploy now main ending).follows hfollows
  | resolve t action => exact .inl (effect_perform action).changesItsOwn.highWater
  | rollback target expectedCurrent main verified containers =>
    have heffect : RollbackEffect git run.state
        (run.perform git (.rollback target expectedCurrent main verified containers)).state :=
      rollbackEffect_rollback target expectedCurrent main verified containers
    exact .inl heffect.highWater

/-- The invariant of the high-water marks. -/
structure Run.Ascends (git : Repository) (run : Run) : Prop where
  current : ∀ mark ∈ run.highWaters, Follows git mark run.state.highWater
  pairwise : NeverRegresses git run.highWaters

/-- Each operation keeps the high-water marks in order. -/
theorem Run.Ascends.perform (h : run.Ascends git) {operation : Operation}
    (hfollows : FollowsHighWater git run operation) : (run.perform git operation).Ascends git := by
  have hstep := follows_perform hfollows
  have hall : ∀ mark ∈ run.highWaters, Follows git mark (run.perform git operation).state.highWater :=
    fun mark hmark => (h.current mark hmark).trans hstep
  constructor
  · intro mark hmark
    rcases List.mem_append.mp hmark with hmark | hmark
    · exact hall mark hmark
    · exact .inl (List.mem_singleton.mp hmark).symm
  · refine List.pairwise_append.mpr ⟨h.pairwise, List.pairwise_singleton _ _, ?_⟩
    intro mark hmark last hlast hancestor
    obtain rfl := List.mem_singleton.mp hlast
    exact (hall mark hmark).eq_of_isAncestor hancestor

/-- **The high-water mark does not go back.** -/
theorem neverRegresses_of_reachable (h : (system git).Reachable (FollowsHighWater git) run) :
    NeverRegresses git run.highWaters := by
  refine (h.invariant (I := Run.Ascends git) (fun run hinit => ?_)
    fun _ _ _ hascends hfollows hstep => ?_).pairwise
  · have hinit : run.IsInitial := hinit
    constructor
    · intro mark hmark
      rw [hinit.highWaters, List.mem_singleton] at hmark
      exact .inl hmark.symm
    · rw [hinit.highWaters]
      exact List.pairwise_singleton _ _
  · cases hstep
    exact hascends.perform hfollows

end Hold

/-- The history of one branch, from its first commit. -/
def branch (history : List JsString) (hsentinel : sentinelRevision ∉ history) : Repository where
  IsAncestor a b := a ∈ history ∧ b ∈ history ∧ history.idxOf a ≤ history.idxOf b
  decidable _ _ := inferInstanceAs (Decidable (_ ∧ _ ∧ _))
  trans hab hbc := ⟨hab.1, hbc.2.1, hab.2.2.trans hbc.2.2⟩
  antisymm hab hba := (List.idxOf_inj hab.1).mp (le_antisymm hab.2.2 hba.2.2)
  sentinel _ h := hsentinel h.2.1

namespace Example

/-- The revisions of the branch, of which each has one image. -/
def revision (n : UInt16) : JsString := List.replicate 39 48 ++ [48 + n]

def imageId (n : UInt16) : JsString := js "sha256:" ++ List.replicate 63 48 ++ [48 + n]

/-- The revisions that are on the branch. -/
def history : List JsString := [revision 1, revision 2, revision 3, revision 4]

theorem sentinelRevision_notMem_history : sentinelRevision ∉ history := by
  decide +kernel

def git : Repository := branch history sentinelRevision_notMem_history

/-- An attempt to deploy a revision, under a token, after another one. -/
def attempt (n previous token : UInt16) : PendingTuple where
  revision := revision n
  imageId := imageId n
  previousRevision := revision previous
  previousImageId := imageId previous
  deadline := 1000
  token := List.replicate 63 48 ++ [48 + token]

/-- Every change of the state files succeeds. -/
def files : Files := ⟨true, true, true, true⟩

/-- The deploy of an attempt, which leaves a container, and does not clean up where it fails. -/
def deploysTo (progress : Progress) (t : PendingTuple) : Operation :=
  .deploy t 100 (revision 4)
    (.publishes progress ⟨false, files⟩ [⟨js "app", js "app", t.candidate⟩])

/-- A deploy that commits. -/
def deploys (t : PendingTuple) : Operation := deploysTo .committed t

/-- A rejection that removes every container, and succeeds. -/
def rejects (ownsLease : Bool) (t : PendingTuple) : Operation :=
  .resolve t (.reject ownsLease {
    ready := true
    first := ⟨true, fun _ => true⟩
    second := ⟨true, fun _ => true⟩
    started := []
    verified := true
    files := files })

/-- A baseline. -/
def baseline (n : UInt16) : Run where
  state := {
    committed := ⟨revision n, imageId n⟩
    highWater := revision n
    verified := fun r => if r = revision n then some (imageId n) else none
    pending := .absent
    accepted := .absent
    leases := []
    containers := [] }
  log := []
  highWaters := [revision n]

theorem isInitial_baseline (n : UInt16) : (baseline n).IsInitial :=
  ⟨if_pos rfl, rfl, rfl, rfl, rfl, rfl, rfl⟩

/-- A state that is reached from a baseline, by operations that meet a condition. -/
def after (allowed : Run → Operation → Prop) [∀ run operation, Decidable (allowed run operation)]
    (n : UInt16) (operations : List Operation) : Option Run :=
  (system git).runWhere allowed (baseline n) operations

theorem reachable_after {allowed : Run → Operation → Prop}
    [∀ run operation, Decidable (allowed run operation)] {n : UInt16} {operations : List Operation}
    (h : (after allowed n operations).isSome) :
    (system git).Reachable allowed ((after allowed n operations).get h) :=
  System.Reachable.runWhere_get (.init (isInitial_baseline n)) h

/-- An attempt that is left pending is rejected by its watchdog, and the next one accepted. -/
def rejectedThenAccepted : Option Run :=
  after (fun run operation => OwnTuples run operation ∧ FollowsHighWater git run operation) 1
    [deploysTo .launched (attempt 2 1 1), rejects true (attempt 2 1 1), deploys (attempt 3 1 2),
      .resolve (attempt 3 1 2) (.accept 100 files)]

theorem isSome_rejectedThenAccepted : rejectedThenAccepted.isSome := by decide +kernel

/-- An accepted attempt is followed by one that is pending. -/
def acceptedThenPending : Option Run :=
  after OwnTuples 1
    [deploys (attempt 2 1 1), .resolve (attempt 2 1 1) (.accept 100 files), deploys (attempt 3 2 2)]

theorem isSome_acceptedThenPending : acceptedThenPending.isSome := by decide +kernel

/-- A rejected attempt is repeated under another token, and accepted. -/
def repeatedAttempt : Option Run :=
  after OwnTuples 1
    [deploys (attempt 2 1 1), rejects false (attempt 2 1 1), deploys (attempt 2 1 2),
      .resolve (attempt 2 1 2) (.accept 100 files)]

theorem isSome_repeatedAttempt : repeatedAttempt.isSome := by decide +kernel

/-- A rejected first attempt is followed by one of an older revision. -/
def olderFirstAttempt : Option Run :=
  after OwnTuples 0 [deploys (attempt 3 0 1), rejects false (attempt 3 0 1), deploys (attempt 2 0 2)]

theorem isSome_olderFirstAttempt : olderFirstAttempt.isSome := by decide +kernel

end Example

end Handleplan.Deployment
