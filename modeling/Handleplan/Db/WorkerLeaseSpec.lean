import Handleplan.Db.WorkerLease

/-!
# Leases are held by one worker at a time

In every interleaving of the functions the versions of the row of a lease form an orderly log: a
lease is claimed under a later generation than all before it, when it is not held; and only the
generation that holds it is renewed or released.

## Main definitions

* `WorkerLease.IsOrderly` — an orderly log of versions.
* `WorkerLease.IsHeld` — a generation is acquired, not released, and has not expired.
* `WorkerLease.LeasesAreSafe` — what holds of a state of the database.

## Main results

* `WorkerLease.IsOrderly.isHeld_iff` — what is held is the current row, unless expired.
* `WorkerLease.leasesAreSafe_of_reachable` — leases are safe in every run.

## Design

A guarded transaction keeps the row of its lease locked from its last verification until it commits.
Its lease may expire in between, but nobody can claim or release it, and so the generation that was
verified is the last one when it commits.
-/

namespace Handleplan.WorkerLease

open Interaction Sessions RowLocks Access JsString

/-! ### Logs of versions -/

/-- The generation that a version claims. -/
def LeaseVersion.claim? : LeaseVersion → Option ℤ
  | .claimed row => some row.acquiredAt
  | _ => none

/-- The generations under which a lease was acquired, in order. -/
def acquisitions (versions : List LeaseVersion) : List ℤ := versions.filterMap LeaseVersion.claim?

/-- A generation has released its lease. -/
def IsReleased (versions : List LeaseVersion) (generation : ℤ) : Prop :=
  ∃ identity, LeaseVersion.deleted identity ∈ versions ∧ identity.generation = generation

/-- The rows of a generation. -/
def rowsOf (versions : List LeaseVersion) (generation : ℤ) : List LeaseRow :=
  (versions.filterMap LeaseVersion.row?).filter fun row => row.acquiredAt = generation

/-- When a generation expires, by its last row. -/
def expiryOf (versions : List LeaseVersion) (generation : ℤ) : Option ℤ :=
  (rowsOf versions generation).getLast?.map fun row => row.expiresAt

/-- **A generation holds a lease**: it has acquired it, not released it and not expired. -/
def IsHeld (versions : List LeaseVersion) (now generation : ℤ) : Prop :=
  generation ∈ acquisitions versions ∧ ¬ IsReleased versions generation ∧
    ∃ expiry ∈ expiryOf versions generation, now < expiry

/-- Whether a version may follow others. -/
def Follows (versions : List LeaseVersion) : LeaseVersion → Prop
  | .claimed row => (∀ current ∈ currentLease versions, current.expiresAt ≤ row.acquiredAt) ∧
      ∀ generation ∈ acquisitions versions, generation < row.acquiredAt
  | .renewed row => ∃ current ∈ currentLease versions, current.acquiredAt = row.acquiredAt
  | .deleted identity => ∃ current ∈ currentLease versions, current.acquiredAt = identity.generation

/-- **An orderly log of versions.** -/
inductive IsOrderly : List LeaseVersion → Prop
  | nil : IsOrderly []
  | snoc {versions : List LeaseVersion} {version : LeaseVersion} (h : IsOrderly versions)
      (hfollows : Follows versions version) : IsOrderly (versions ++ [version])

section Log

variable {versions : List LeaseVersion} {version : LeaseVersion} {row : LeaseRow}
  {identity : LeaseIdentity} {generation now : ℤ}

@[simp] theorem currentLease_nil : currentLease [] = none := rfl

@[simp] theorem currentLease_concat : currentLease (versions ++ [version]) = version.row? := by
  simp [currentLease]

@[simp] theorem acquisitions_concat :
    acquisitions (versions ++ [version]) = acquisitions versions ++ version.claim?.toList := by
  rw [acquisitions, List.filterMap_append]
  cases h : version.claim? <;> simp [acquisitions, h]

theorem acquisitions_append (versions versions' : List LeaseVersion) :
    acquisitions (versions ++ versions') = acquisitions versions ++ acquisitions versions' :=
  List.filterMap_append

theorem rowsOf_concat : rowsOf (versions ++ [version]) generation =
    rowsOf versions generation ++
      (version.row?.toList.filter fun row => row.acquiredAt = generation) := by
  rw [rowsOf, List.filterMap_append, List.filter_append]
  cases h : version.row? <;> simp [rowsOf, h]

theorem isReleased_concat : IsReleased (versions ++ [version]) generation ↔
    IsReleased versions generation ∨
      ∃ identity, version = .deleted identity ∧ identity.generation = generation := by
  simp only [IsReleased, List.mem_append, List.mem_singleton]
  constructor
  · rintro ⟨identity, hold | hnew, hgeneration⟩
    · exact .inl ⟨identity, hold, hgeneration⟩
    · exact .inr ⟨identity, hnew.symm, hgeneration⟩
  · rintro (⟨identity, hold, hgeneration⟩ | ⟨identity, hnew, hgeneration⟩)
    · exact ⟨identity, .inl hold, hgeneration⟩
    · exact ⟨identity, .inr hnew.symm, hgeneration⟩

/-- A version with a row of the generation sets when it expires. -/
theorem expiryOf_concat_of_row (hrow : version.row? = some row) :
    expiryOf (versions ++ [version]) row.acquiredAt = some row.expiresAt := by
  simp [expiryOf, rowsOf_concat, hrow]

/-- Other versions do not. -/
theorem expiryOf_concat_of_ne (hne : ∀ row ∈ version.row?, row.acquiredAt ≠ generation) :
    expiryOf (versions ++ [version]) generation = expiryOf versions generation := by
  have hnil : (version.row?.toList.filter fun row => row.acquiredAt = generation) = [] := by
    rw [List.filter_eq_nil_iff]
    intro row hrow
    simpa using hne row (Option.mem_toList.mp hrow)
  rw [expiryOf, rowsOf_concat, hnil, List.append_nil]
  rfl

section

variable (h : IsOrderly versions)

include h

/-- The current row is that of the last acquisition.

**Proof sketch.** A claim is both; a renewal follows a row of the same generation. -/
theorem IsOrderly.getLast?_acquisitions (hrow : row ∈ currentLease versions) :
    (acquisitions versions).getLast? = some row.acquiredAt := by
  induction h generalizing row with
  | nil => cases hrow
  | @snoc versions version h hfollows ih =>
    rw [currentLease_concat] at hrow
    rw [acquisitions_concat]
    cases version with
    | claimed claimed =>
      cases hrow
      exact List.getLast?_concat
    | renewed renewed =>
      cases hrow
      obtain ⟨current, hcurrent, heq⟩ := hfollows
      rw [← heq, ← ih hcurrent]
      exact congrArg List.getLast? (List.append_nil _)
    | deleted identity => cases hrow

theorem IsOrderly.mem_acquisitions (hrow : row ∈ currentLease versions) :
    row.acquiredAt ∈ acquisitions versions :=
  List.mem_of_getLast? (h.getLast?_acquisitions hrow)

/-- What is released was acquired. -/
theorem IsOrderly.mem_of_isReleased (hreleased : IsReleased versions generation) :
    generation ∈ acquisitions versions := by
  induction h with
  | nil =>
    obtain ⟨identity, hmem, -⟩ := hreleased
    cases hmem
  | @snoc versions version h hfollows ih =>
    rw [acquisitions_concat]
    refine List.mem_append_left _ ?_
    obtain hold | ⟨identity, rfl, rfl⟩ := isReleased_concat.mp hreleased
    · exact ih hold
    · obtain ⟨current, hcurrent, heq⟩ := hfollows
      exact heq ▸ h.mem_acquisitions hcurrent

/-- The generation of the current row is not released.

**Proof sketch.** A claim comes under a later generation than all before it, and so than all that
are released. -/
theorem IsOrderly.not_isReleased (hrow : row ∈ currentLease versions) :
    ¬ IsReleased versions row.acquiredAt := by
  induction h generalizing row with
  | nil => cases hrow
  | @snoc versions version h hfollows ih =>
    rw [currentLease_concat] at hrow
    intro hreleased
    obtain hold | ⟨identity, rfl, -⟩ := isReleased_concat.mp hreleased
    · cases version with
      | claimed claimed =>
        cases hrow
        exact lt_irrefl _ (hfollows.2 _ (h.mem_of_isReleased hold))
      | renewed renewed =>
        cases hrow
        obtain ⟨current, hcurrent, heq⟩ := hfollows
        exact ih hcurrent (heq ▸ hold)
      | deleted identity => cases hrow
    · cases hrow

/-- The generation of the current row expires when the row does. -/
theorem IsOrderly.expiryOf_current (hrow : row ∈ currentLease versions) :
    expiryOf versions row.acquiredAt = some row.expiresAt := by
  cases h with
  | nil => cases hrow
  | snoc h hfollows =>
    rw [currentLease_concat] at hrow
    exact expiryOf_concat_of_row hrow

/-- **Generations increase with each acquisition.** -/
theorem IsOrderly.increasing :
    (acquisitions versions).Pairwise (· < ·) := by
  induction h with
  | nil => exact List.Pairwise.nil
  | @snoc versions version h hfollows ih =>
    rw [acquisitions_concat]
    cases version with
    | claimed claimed =>
      refine List.pairwise_append.mpr ⟨ih, List.pairwise_singleton _ _, fun g hg g' hg' => ?_⟩
      obtain rfl := List.mem_singleton.mp hg'
      exact hfollows.2 g hg
    | renewed renewed => exact (List.append_nil (acquisitions versions)).symm ▸ ih
    | deleted identity => exact (List.append_nil (acquisitions versions)).symm ▸ ih

/-- No generation is later than that of the current row. -/
theorem IsOrderly.le_current (hrow : row ∈ currentLease versions)
    (hmem : generation ∈ acquisitions versions) : generation ≤ row.acquiredAt := by
  obtain ⟨earlier, heq⟩ := List.getLast?_eq_some_iff.mp (h.getLast?_acquisitions hrow)
  have hincreasing := h.increasing
  rw [heq] at hmem hincreasing
  obtain hold | hlast := List.mem_append.mp hmem
  · exact ((List.pairwise_append.mp hincreasing).2.2 _ hold _ List.mem_cons_self).le
  · exact (List.mem_singleton.mp hlast).le

end

/-- A generation that has acquired a lease has released it, or is that of the current row, or had
expired when the lease was acquired again. -/
def IsSettled (versions : List LeaseVersion) (generation : ℤ) : Prop :=
  IsReleased versions generation ∨
    (∃ row ∈ currentLease versions, row.acquiredAt = generation) ∨
      ∃ later ∈ acquisitions versions, ∀ expiry ∈ expiryOf versions generation, expiry ≤ later

/-- **Every generation is settled.**

**Proof sketch.** Induction on the log. The current row stays that of its generation until it is
deleted, or claimed by another one after it has expired. -/
theorem IsOrderly.isSettled (h : IsOrderly versions) (hmem : generation ∈ acquisitions versions) :
    IsSettled versions generation := by
  induction h with
  | nil => cases hmem
  | @snoc versions version h hfollows ih =>
    rw [acquisitions_concat, List.mem_append] at hmem
    have hlater : (∀ row ∈ version.row?, row.acquiredAt ≠ generation) →
        ∀ later ∈ acquisitions (versions ++ [version]),
          (∀ expiry ∈ expiryOf versions generation, expiry ≤ later) →
            IsSettled (versions ++ [version]) generation := by
      intro hne later hmem hle
      refine .inr (.inr ⟨later, hmem, ?_⟩)
      rwa [expiryOf_concat_of_ne hne]
    have hold : ∀ later ∈ acquisitions versions,
        later ∈ acquisitions (versions ++ [version]) := by
      intro later hlater
      rw [acquisitions_concat]
      exact List.mem_append_left _ hlater
    -- what was settled stays so, but for the generation of the row before
    have hstep : (∀ row ∈ version.row?, row.acquiredAt ≠ generation) →
        generation ∈ acquisitions versions →
        (∀ row ∈ currentLease versions, row.acquiredAt = generation →
          IsSettled (versions ++ [version]) generation) →
        IsSettled (versions ++ [version]) generation := by
      intro hne hmem hcurrent
      obtain hreleased | ⟨row, hrow, heq⟩ | ⟨later, hmem, hle⟩ := ih hmem
      · exact .inl (isReleased_concat.mpr (.inl hreleased))
      · exact hcurrent row hrow heq
      · exact hlater hne later (hold later hmem) hle
    cases version with
    | claimed claimed =>
      by_cases heq : claimed.acquiredAt = generation
      · exact .inr (.inl ⟨claimed, by simp [LeaseVersion.row?], heq⟩)
      have hne : ∀ row ∈ (LeaseVersion.claimed claimed).row?, row.acquiredAt ≠ generation :=
        fun row hrow => Option.some.inj hrow ▸ heq
      obtain hmem | hnew := hmem
      · refine hstep hne hmem fun row hrow hrowEq => hlater hne claimed.acquiredAt ?_
          fun expiry hexpiry => ?_
        · rw [acquisitions_concat]
          exact List.mem_append_right _ List.mem_cons_self
        · rw [← hrowEq, h.expiryOf_current hrow] at hexpiry
          cases hexpiry
          exact hfollows.1 row hrow
      · exact absurd (List.mem_singleton.mp hnew).symm heq
    | renewed renewed =>
      by_cases heq : renewed.acquiredAt = generation
      · exact .inr (.inl ⟨renewed, by simp [LeaseVersion.row?], heq⟩)
      obtain hmem | hnew := hmem
      · refine hstep (fun row hrow => Option.some.inj hrow ▸ heq) hmem fun row hrow hrowEq => ?_
        obtain ⟨current, hcurrent, hsame⟩ := hfollows
        obtain rfl := Option.some.inj (hrow.symm.trans hcurrent)
        exact absurd (hsame.symm.trans hrowEq) heq
      · cases hnew
    | deleted identity =>
      obtain hmem | hnew := hmem
      · refine hstep (fun row hrow => nomatch hrow) hmem fun row hrow hrowEq => ?_
        obtain ⟨current, hcurrent, hsame⟩ := hfollows
        obtain rfl := Option.some.inj (hrow.symm.trans hcurrent)
        exact .inl (isReleased_concat.mpr (.inr ⟨identity, rfl, hsame.symm.trans hrowEq⟩))
      · cases hnew

/-- **What holds a lease** is the generation of the current row, unless it has expired.

**Proof sketch.** A generation that is settled in another way is released, or expired when the lease
was acquired again, which is not later than now. -/
theorem IsOrderly.isHeld_iff (h : IsOrderly versions)
    (hle : ∀ g ∈ acquisitions versions, g ≤ now) :
    IsHeld versions now generation ↔
      ∃ row ∈ currentLease versions, row.acquiredAt = generation ∧ now < row.expiresAt := by
  constructor
  · rintro ⟨hmem, hnot, expiry, hexpiry, hlt⟩
    obtain hreleased | ⟨row, hrow, rfl⟩ | ⟨later, hlater, hexpired⟩ := h.isSettled hmem
    · exact absurd hreleased hnot
    · rw [h.expiryOf_current hrow] at hexpiry
      exact ⟨row, hrow, rfl, Option.some.inj hexpiry ▸ hlt⟩
    · have := hexpired expiry hexpiry
      have := hle later hlater
      omega
  · rintro ⟨row, hrow, rfl, hlt⟩
    exact ⟨h.mem_acquisitions hrow, h.not_isReleased hrow, row.expiresAt,
      h.expiryOf_current hrow, hlt⟩

end Log

/-! ### What the functions ask -/

section Programs

variable (hash : KeyHash)

/-- A history that has written no version. -/
def IsUnwritten (h : LeaseHistory) : Prop := (access hash).writesOf h = []

/-- The last thing that was asked is the clock, which read this. -/
def HasJustRead (h : LeaseHistory) (reading : ℤ) : Prop :=
  ∃ before, h = before ++ [⟨.clockTimestamp, reading⟩]

/-- What a function may ask: it claims, renews and releases under the advisory lock, and claims,
renews and verifies by a clock that it has just read. It writes once. -/
def MayAsk (h : LeaseHistory) (query : Query) : Prop :=
  IsUnwritten hash h ∧
    match query with
    | .claim input acquiredAt =>
      h = [⟨.advisoryLock input.leaseKey, ()⟩, ⟨.clockTimestamp, acquiredAt⟩]
    | .renew identity _ heartbeatAt =>
      h = [⟨.advisoryLock identity.leaseKey, ()⟩, ⟨.clockTimestamp, heartbeatAt⟩]
    | .release identity => h = [⟨.advisoryLock identity.leaseKey, ()⟩]
    | .selectFence _ now _ => HasJustRead h now
    | _ => True

/-- What a function that returns has asked. -/
def HasAsked : Call → LeaseHistory → LeaseResult → Prop
  | .acquire input, h, result => ∀ generation, result = .acquired (some generation) →
      ⟨.claim input generation, true⟩ ∈ h
  | .renew identity ttlMs, h, result => result = .renewed true →
      ∃ heartbeatAt : ℤ, ⟨.renew identity ttlMs heartbeatAt, true⟩ ∈ h
  | .release identity, h, result => result = .released true → ⟨.release identity, true⟩ ∈ h
  | .guarded token expectedLeaseKey _, h, _ => ∃ identity, token = some identity ∧
      identity.leaseKey = expectedLeaseKey ∧
        ∃ now : ℤ, ⟨.selectFence identity now true, true⟩ ∈ h

variable {hash}

theorem IsUnwritten.concat {h : LeaseHistory} (hunwritten : IsUnwritten hash h) (query : Query)
    (answer : Answer query) (hnil : writesOf query answer = []) :
    IsUnwritten hash (h ++ [⟨query, answer⟩]) := by
  rw [IsUnwritten, writesOf_append, hunwritten, writesOf_singleton]
  exact hnil

theorem isUnwritten_nil : IsUnwritten hash [] := rfl

theorem isUnwritten_lock (leaseKey : JsString) :
    IsUnwritten hash [⟨.advisoryLock leaseKey, ()⟩] := rfl

variable {h : LeaseHistory}

theorem safe_claimLease (input : LeaseInput) :
    Prog.Safe (MayAsk hash) (HasAsked (.acquire input)) [] (claimLease input) := by
  refine Prog.Safe.bind (Prog.Safe.require fun _ => ?_)
  refine Prog.Safe.bind (Prog.Safe.query ⟨isUnwritten_nil, trivial⟩ fun (_ : Unit) => ?_)
  have hlocked : IsUnwritten hash _ := isUnwritten_lock input.leaseKey
  refine Prog.Safe.bind (Prog.Safe.query ⟨hlocked, trivial⟩ fun (acquiredAt : ℤ) => ?_)
  have hread := hlocked.concat .clockTimestamp acquiredAt rfl
  refine Prog.Safe.bind (Prog.Safe.query ⟨hread, rfl⟩ fun (isClaimed : Bool) => ?_)
  intro generation heq
  cases isClaimed with
  | false => cases LeaseResult.acquired.inj heq
  | true =>
    obtain rfl := Option.some.inj (LeaseResult.acquired.inj heq)
    exact List.mem_append_right _ List.mem_cons_self

theorem safe_renewLease (identity : LeaseIdentity) (ttlMs : ℕ) :
    Prog.Safe (MayAsk hash) (HasAsked (.renew identity ttlMs)) [] (renewLease identity ttlMs) := by
  refine Prog.Safe.bind (Prog.Safe.query ⟨isUnwritten_nil, trivial⟩ fun (_ : Unit) => ?_)
  have hlocked : IsUnwritten hash _ := isUnwritten_lock identity.leaseKey
  refine Prog.Safe.bind (Prog.Safe.query ⟨hlocked, trivial⟩ fun (heartbeatAt : ℤ) => ?_)
  have hread := hlocked.concat .clockTimestamp heartbeatAt rfl
  refine Prog.Safe.bind (Prog.Safe.query ⟨hread, rfl⟩ fun (isRenewed : Bool) => ?_)
  intro heq
  obtain rfl := LeaseResult.renewed.inj heq
  exact ⟨heartbeatAt, List.mem_append_right _ List.mem_cons_self⟩

theorem safe_releaseLease (identity : LeaseIdentity) :
    Prog.Safe (MayAsk hash) (HasAsked (.release identity)) [] (releaseLease identity) := by
  refine Prog.Safe.bind (Prog.Safe.query ⟨isUnwritten_nil, trivial⟩ fun (_ : Unit) => ?_)
  have hlocked : IsUnwritten hash _ := isUnwritten_lock identity.leaseKey
  refine Prog.Safe.bind (Prog.Safe.query ⟨hlocked, rfl⟩ fun (isReleased : Bool) => ?_)
  intro heq
  obtain rfl := LeaseResult.released.inj heq
  exact List.mem_append_right _ List.mem_cons_self

/-- A verification that does not fail has found the fence of its token. -/
theorem safe_verifyFence {token : Option LeaseIdentity} {expectedLeaseKey : JsString}
    {lockForCommit : Bool} {post : LeaseHistory → Unit → Prop} (hunwritten : IsUnwritten hash h)
    (hpost : ∀ h identity, ∀ now : ℤ, IsUnwritten hash h → token = some identity →
      identity.leaseKey = expectedLeaseKey →
        ⟨.selectFence identity now lockForCommit, true⟩ ∈ h → post h ()) :
    Prog.Safe (MayAsk hash) post h (verifyFence token expectedLeaseKey lockForCommit) := by
  refine Prog.Safe.bind (Prog.Safe.orFail fun identity htoken => ?_)
  refine Prog.Safe.bind (Prog.Safe.require fun hkey => ?_)
  refine Prog.Safe.bind (Prog.Safe.query ⟨hunwritten, trivial⟩ fun (now : ℤ) => ?_)
  have hread := hunwritten.concat .clockTimestamp now rfl
  refine Prog.Safe.bind (Prog.Safe.query ⟨hread, _, rfl⟩ fun (isCurrent : Bool) => ?_)
  refine Prog.Safe.require fun hcurrent => ?_
  have hfound := hread.concat (.selectFence identity now lockForCommit) isCurrent rfl
  refine hpost _ identity now hfound htoken hkey ?_
  rw [hcurrent]
  exact List.mem_append_right _ List.mem_cons_self

theorem safe_callback (statements : ℕ) {post : LeaseHistory → Unit → Prop}
    (hunwritten : IsUnwritten hash h) (hpost : ∀ h, IsUnwritten hash h → post h ()) :
    Prog.Safe (MayAsk hash) post h (callback statements) := by
  induction statements generalizing h with
  | zero => exact hpost h hunwritten
  | succ statements ih =>
    refine Prog.Safe.bind (Prog.Safe.query ⟨hunwritten, trivial⟩ fun (isDone : Bool) => ?_)
    exact Prog.Safe.bind (Prog.Safe.require fun _ =>
      ih (hunwritten.concat .callback isDone rfl))

theorem safe_guarded (token : Option LeaseIdentity) (expectedLeaseKey : JsString)
    (statements : ℕ) :
    Prog.Safe (MayAsk hash) (HasAsked (.guarded token expectedLeaseKey statements)) []
      (guarded token expectedLeaseKey statements) := by
  refine Prog.Safe.bind (safe_verifyFence isUnwritten_nil fun _ _ _ hinitial _ _ _ => ?_)
  refine Prog.Safe.bind (safe_callback statements hinitial fun _ hdone => ?_)
  refine Prog.Safe.bind (safe_verifyFence hdone fun _ identity now _ htoken hkey hfound => ?_)
  exact ⟨identity, htoken, hkey, now, hfound⟩

/-- **What every function asks** it may ask. -/
theorem safe_program (call : Call) :
    Prog.Safe (MayAsk hash) (HasAsked call) [] ((database hash).program call) := by
  cases call with
  | acquire input => exact safe_claimLease input
  | renew identity ttlMs => exact safe_renewLease identity ttlMs
  | release identity => exact safe_releaseLease identity
  | guarded token expectedLeaseKey statements =>
    exact safe_guarded token expectedLeaseKey statements

end Programs

/-! ### Runs -/

section Runs

variable (hash : KeyHash)

/-- The committed versions of the row of a key. -/
def leaseLog (committed : List (Committed Call Query Answer LeaseResult)) (leaseKey : JsString) :
    List LeaseVersion :=
  versions ((access hash).committedWrites committed) (.row leaseKey)

/-- A history claims by a clock that it has read under the advisory lock. -/
def ClaimsByClock (h : LeaseHistory) : Prop :=
  ∀ input, ∀ acquiredAt : ℤ, ∀ isClaimed : Bool, ⟨.claim input acquiredAt, isClaimed⟩ ∈ h →
    ⟨.advisoryLock input.leaseKey, ()⟩ ∈ h ∧ ⟨.clockTimestamp, acquiredAt⟩ ∈ h

variable {hash} {allowed : LeaseState → Step ℕ Call Query Answer → Prop} {st : LeaseState}

/-- What a transaction sees when it has asked one more statement. -/
theorem view_concat (committed : List (Committed Call Query Answer LeaseResult)) (h : LeaseHistory)
    (event : Event Query Answer) : (access hash).view committed (h ++ [event]) =
      (access hash).view committed h ++ writesOf event.query event.answer := by
  rw [view, view, Access.writesOf_append, Access.writesOf_singleton, List.append_assoc]
  rfl

variable {session : ℕ} {t : Transaction Call Query Answer LeaseError LeaseResult} {query : Query}
  {leaseKey : JsString} {writes : Writes}

theorem viewOf_of_transaction (ht : st.transaction session = some t) :
    viewOf hash st session = (access hash).view st.committed t.history := by
  rw [viewOf, historyOf, ht]
  rfl

/-- A transaction that has written nothing sees the committed versions. -/
theorem IsUnwritten.versions_view {h : LeaseHistory} (hunwritten : IsUnwritten hash h)
    (committed : List (Committed Call Query Answer LeaseResult)) (leaseKey : JsString) :
    versions ((access hash).view committed h) (.row leaseKey) =
      leaseLog hash committed leaseKey := by
  rw [view, hunwritten, List.append_nil, leaseLog]

theorem leaseLog_append (committed : List (Committed Call Query Answer LeaseResult))
    (t : Committed Call Query Answer LeaseResult) (leaseKey : JsString) :
    leaseLog hash (committed ++ [t]) leaseKey =
      leaseLog hash committed leaseKey ++
        versions ((access hash).writesOf t.history) (.row leaseKey) := by
  rw [leaseLog, committedWrites_append, versions_append]
  rfl

section

variable (h : (database hash).system.Reachable allowed st)

include h

theorem exclusive :
    (access hash).Exclusive st := by
  refine exclusive_of_reachable ?_ h
  intro st session query answer hadmits
  exact hadmits.1

theorem safe_of_reachable :
    Database.Everywhere st (fun t => Prog.Safe (MayAsk hash) (HasAsked t.call) t.history t.rest)
      fun t => HasAsked t.call t.history t.result :=
  Database.safe_of_reachable (fun c => safe_program c) h

/-- The statement that a transaction asks next is one that it may ask. -/
theorem mayAsk_of_reachable (ht : st.transaction session = some t)
    {next : Answer query → LeaseProg LeaseResult}
    (hrest : t.rest = .ask query next) : MayAsk hash t.history query := by
  obtain ⟨hsafe, -⟩ := safe_of_reachable h
  have hown := hsafe _ (State.mem_of_transaction ht)
  simp only [hrest] at hown
  exact hown.1

end

/-- What was acquired was claimed. -/
theorem claim_of_mem_acquisitions {h : LeaseHistory} {generation : ℤ}
    (hmem : generation ∈ acquisitions (versions ((access hash).writesOf h) (.row leaseKey))) :
    ∃ input : LeaseInput, input.leaseKey = leaseKey ∧ ⟨.claim input generation, true⟩ ∈ h := by
  obtain ⟨version, hversion, hclaim⟩ := List.mem_filterMap.mp hmem
  obtain ⟨⟨query, answer⟩, hevent, hwrite⟩ := List.mem_flatMap.mp (mem_versions_iff.mp hversion)
  have hwrite : (LockKey.row leaseKey, version) ∈ writesOf query answer := hwrite
  cases query with
  | claim input acquiredAt =>
    change Bool at answer
    cases answer with
    | false => cases hwrite
    | true =>
      obtain ⟨hkey, rfl⟩ := Prod.mk.inj (List.mem_singleton.mp hwrite)
      cases hclaim
      exact ⟨input, (LockKey.row.inj hkey).symm, hevent⟩
  | renew identity ttlMs heartbeatAt =>
    change Bool at answer
    cases answer with
    | false => cases hwrite
    | true =>
      obtain ⟨-, rfl⟩ := Prod.mk.inj (List.mem_singleton.mp hwrite)
      cases hclaim
  | release identity =>
    change Bool at answer
    cases answer with
    | false => cases hwrite
    | true =>
      obtain ⟨-, rfl⟩ := Prod.mk.inj (List.mem_singleton.mp hwrite)
      cases hclaim
  | _ => cases hwrite

theorem mem_acquisitions_of_claim {h : LeaseHistory} {input : LeaseInput} {generation : ℤ}
    (hclaim : ⟨.claim input generation, true⟩ ∈ h) :
    generation ∈ acquisitions (versions ((access hash).writesOf h) (.row input.leaseKey)) := by
  refine List.mem_filterMap.mpr ⟨.claimed (claimedRow input generation), ?_, rfl⟩
  exact mem_versions_iff.mpr (List.mem_flatMap.mpr ⟨_, hclaim, List.mem_cons_self⟩)

/-- Every claim is by the clock. -/
theorem claimsByClock_of_reachable (h : (database hash).system.Reachable allowed st) :
    Database.Everywhere st (fun t => ClaimsByClock t.history) fun t => ClaimsByClock t.history := by
  have hall := Database.each_of_reachable (J := fun _ _ t => ClaimsByClock t.history)
    (G := fun _ committed => ∀ t ∈ committed, ClaimsByClock t.history) (by simp)
    (fun _ _ _ _ hG => hG)
    (fun _ _ _ _ input acquiredAt isClaimed hclaim => nomatch hclaim) (fun _ _ _ _ _ hJ => hJ) ?_
    (fun _ _ _ _ _ _ _ _ hJ _ => hJ) ?_ h
  · exact ⟨hall.2, hall.1⟩
  · intro st session t query next answers hreach ht hrest _ _ hJ input acquiredAt isClaimed hclaim
    obtain hold | hnew := List.mem_append.mp hclaim
    · obtain ⟨hlock, hclock⟩ := hJ input acquiredAt isClaimed hold
      exact ⟨List.mem_append_left _ hlock, List.mem_append_left _ hclock⟩
    · obtain ⟨rfl, -⟩ := Event.mk.inj (List.mem_singleton.mp hnew)
      obtain ⟨-, hhistory⟩ := mayAsk_of_reachable hreach ht hrest
      simp [hhistory]
  · intro clock committed t r hG hJ
    exact List.forall_mem_append.mpr ⟨hG, fun t' ht' => List.mem_singleton.mp ht' ▸ hJ⟩

/-- Generations are readings of the clock. -/
theorem reading_of_mem_acquisitions (h : (database hash).system.Reachable allowed st)
    {generation : ℤ} (hmem : generation ∈ acquisitions (leaseLog hash st.committed leaseKey)) :
    ∃ t ∈ st.committed, generation ∈ readingsOf t.history := by
  obtain ⟨version, hversion, hclaim⟩ := List.mem_filterMap.mp hmem
  obtain ⟨t, ht, hwrite⟩ := List.mem_flatMap.mp (mem_versions_iff.mp hversion)
  have hmem : generation ∈
      acquisitions (versions ((access hash).writesOf t.history) (.row leaseKey)) :=
    List.mem_filterMap.mpr ⟨version, mem_versions_iff.mpr hwrite, hclaim⟩
  obtain ⟨input, -, hevent⟩ := claim_of_mem_acquisitions hmem
  obtain ⟨-, hclock⟩ := (claimsByClock_of_reachable h).2 t ht input generation true hevent
  exact ⟨t, ht, List.mem_filterMap.mpr ⟨_, hclock, rfl⟩⟩

/-- A version that follows those of its row keeps all logs orderly. -/
theorem isOrderly_concat {version : LeaseVersion}
    (h : ∀ key, IsOrderly (versions writes (.row key)))
    (hfollows : Follows (versions writes (.row leaseKey)) version) (key : JsString) :
    IsOrderly (versions (writes ++ [(.row leaseKey, version)]) (.row key)) := by
  by_cases heq : leaseKey = key
  · subst heq
    rw [versions_concat_self]
    exact (h leaseKey).snoc hfollows
  · rw [versions_concat_of_ne _ _ (by simpa using heq)]
    exact h key

/-- **Every statement keeps all logs orderly**, when a claim comes by a later clock than those
before it. -/
theorem isOrderly_of_isAnswer {answer : Answer query}
    (h : ∀ key, IsOrderly (versions writes (.row key))) (hanswer : IsAnswer st writes query answer)
    (hlater : ∀ input acquiredAt, query = .claim input acquiredAt →
      ∀ g ∈ acquisitions (versions writes (.row input.leaseKey)), g < acquiredAt)
    (key : JsString) : IsOrderly (versions (writes ++ writesOf query answer) (.row key)) := by
  have hnone : writesOf query answer = [] →
      IsOrderly (versions (writes ++ writesOf query answer) (.row key)) := by
    intro hnil
    rw [hnil, List.append_nil]
    exact h key
  cases query with
  | claim input acquiredAt =>
    change Bool at answer
    have hanswer : answer = decide (IsClaimable writes input.leaseKey acquiredAt) := hanswer
    cases answer with
    | false => exact hnone rfl
    | true =>
      have hfollows : Follows (versions writes (.row input.leaseKey))
          (.claimed (claimedRow input acquiredAt)) :=
        ⟨of_decide_eq_true hanswer.symm, hlater input acquiredAt rfl⟩
      exact isOrderly_concat h hfollows key
  | renew identity ttlMs heartbeatAt =>
    change Bool at answer
    have hanswer : answer = decide (IsCurrent writes identity heartbeatAt) := hanswer
    cases answer with
    | false => exact hnone rfl
    | true =>
      obtain ⟨row, hrow, his, -⟩ := of_decide_eq_true hanswer.symm
      have hfollows : Follows (versions writes (.row identity.leaseKey))
          (.renewed (renewedRow identity ttlMs heartbeatAt)) := ⟨row, hrow, his.2⟩
      exact isOrderly_concat h hfollows key
  | release identity =>
    change Bool at answer
    have hanswer : answer = decide (IsThere writes identity) := hanswer
    cases answer with
    | false => exact hnone rfl
    | true =>
      obtain ⟨row, hrow, his⟩ := of_decide_eq_true hanswer.symm
      have hfollows : Follows (versions writes (.row identity.leaseKey)) (.deleted identity) :=
        ⟨row, hrow, his.2⟩
      exact isOrderly_concat h hfollows key
  | _ => exact hnone rfl

/-! ### What a transaction relies on -/

variable (hash)

/-- A transaction that has read the clock under the advisory lock of a key reads a later one than
all generations of the key. -/
def ReadsLater (committed : List (Committed Call Query Answer LeaseResult)) (before : LeaseHistory)
    (event : Event Query Answer) : Prop :=
  ∀ reading : ℤ, event = ⟨.clockTimestamp, reading⟩ → ∀ leaseKey,
    ⟨.advisoryLock leaseKey, ()⟩ ∈ before →
      ∀ g ∈ acquisitions (leaseLog hash committed leaseKey), g < reading

/-- What a transaction relies on. -/
structure IsSound (committed : List (Committed Call Query Answer LeaseResult))
    (h : LeaseHistory) : Prop where
  orderly : ∀ leaseKey, IsOrderly (versions ((access hash).view committed h) (.row leaseKey))
  later : Along (ReadsLater hash committed) h
  fenced : ∀ identity, ∀ now : ℤ, ⟨.selectFence identity now true, true⟩ ∈ h →
    IsThere ((access hash).view committed h) identity

/-- No generation that was acquired by an earlier transaction is later than the one that a guarded
transaction has verified before its commit. -/
def CommitsInTime (earlier later : Committed Call Query Answer LeaseResult) : Prop :=
  ∀ identity, ∀ now : ℤ, ⟨.selectFence identity now true, true⟩ ∈ later.history →
    ∀ g ∈ acquisitions (versions ((access hash).writesOf earlier.history)
      (.row identity.leaseKey)), g ≤ identity.generation

/-- What is committed. -/
structure IsSoundlyCommitted (committed : List (Committed Call Query Answer LeaseResult)) :
    Prop where
  orderly : ∀ leaseKey, IsOrderly (leaseLog hash committed leaseKey)
  inTime : committed.Pairwise (CommitsInTime hash)

variable {hash}

/-- A transaction goes on soundly.

**Proof sketch.** It claims by the clock that it has read under the advisory lock. A clock that it
reads is later than all readings, and so than all generations. A fence that is found for the commit
is there, and a guarded transaction writes no lease. -/
theorem IsSound.asks (h : (database hash).system.Reachable allowed st)
    (ht : st.transaction session = some t) {answer : Answer query}
    (hmay : MayAsk hash t.history query) (hadmits : Admits hash st session query answer)
    (hsound : IsSound hash st.committed t.history) :
    IsSound hash st.committed (t.history ++ [⟨query, answer⟩]) := by
  obtain ⟨hunwritten, hasked⟩ := hmay
  have hanswer := hadmits.2
  rw [viewOf_of_transaction ht] at hanswer
  refine ⟨fun leaseKey => ?_, hsound.later.snoc ?_, ?_⟩
  · rw [view_concat]
    refine isOrderly_of_isAnswer hsound.orderly hanswer ?_ leaseKey
    rintro input acquiredAt rfl
    have hhistory : t.history =
        [⟨.advisoryLock input.leaseKey, ()⟩, ⟨.clockTimestamp, acquiredAt⟩] := hasked
    rw [hunwritten.versions_view]
    exact hsound.later [⟨.advisoryLock input.leaseKey, ()⟩] _ [] hhistory acquiredAt rfl
      input.leaseKey List.mem_cons_self
  · rintro reading heq leaseKey - g hg
    obtain ⟨rfl, hreading⟩ := Event.mk.inj heq
    obtain ⟨hclock, hlatest⟩ := hanswer
    obtain ⟨t', ht', hmem⟩ := reading_of_mem_acquisitions h hg
    have hlt := hlatest.1 t' ht' g hmem
    rw [← hclock] at hlt
    exact hlt.trans_eq (eq_of_heq hreading)
  · intro identity now hfound
    rw [view_concat]
    obtain hold | hnew := List.mem_append.mp hfound
    · -- a transaction that has found its fence writes nothing
      have hquery : Query.selectFence identity now true ∈
          t.history.map fun event => event.query := List.mem_map_of_mem hold
      have hnil : writesOf query answer = [] := by
        cases query with
        | claim input acquiredAt =>
          have hhistory : t.history =
              [⟨.advisoryLock input.leaseKey, ()⟩, ⟨.clockTimestamp, acquiredAt⟩] := hasked
          simp [hhistory] at hquery
        | renew identity ttlMs heartbeatAt =>
          have hhistory : t.history =
              [⟨.advisoryLock identity.leaseKey, ()⟩, ⟨.clockTimestamp, heartbeatAt⟩] := hasked
          simp [hhistory] at hquery
        | release identity =>
          have hhistory : t.history = [⟨.advisoryLock identity.leaseKey, ()⟩] := hasked
          simp [hhistory] at hquery
        | _ => rfl
      rw [hnil, List.append_nil]
      exact hsound.fenced identity now hold
    · obtain ⟨rfl, hcurrent⟩ := Event.mk.inj (List.mem_singleton.mp hnew)
      obtain rfl := eq_of_heq hcurrent
      obtain ⟨row, hrow, his, -⟩ : IsCurrent ((access hash).view st.committed t.history)
        identity now := hanswer
      rw [show writesOf (.selectFence identity now true) true = [] from rfl, List.append_nil]
      exact ⟨row, hrow, his⟩

/-- **Another commit** leaves a transaction sound.

**Proof sketch.** The rows that one of the two has written the other has not. A transaction that has
the advisory lock keeps the other one from claiming, and one that has locked the row of its lease
keeps the other one from writing it. -/
theorem IsSound.commit (h : (database hash).system.Reachable allowed st)
    {p t : ℕ × Transaction Call Query Answer LeaseError LeaseResult} (ht : t ∈ st.running)
    (hp : p ∈ st.running) (hne : p.1 ≠ t.1) (hsound : IsSound hash st.committed p.2.history)
    (hother : IsSound hash st.committed t.2.history) (r : LeaseResult) :
    IsSound hash (st.committed ++ [⟨t.2.call, t.2.history, r⟩]) p.2.history := by
  refine ⟨fun leaseKey => ?_, ?_, ?_⟩
  · obtain hnil | hnil := (exclusive h).versions_eq_nil_or hp ht hne (.row leaseKey)
    · rw [versions_view, hnil, List.append_nil, committedWrites_append]
      exact hother.orderly leaseKey
    · rw [versions_view, committedWrites_append, versions_append, hnil, List.append_nil,
        ← versions_view]
      exact hsound.orderly leaseKey
  · rintro before event after hhistory reading rfl leaseKey hlock g hg
    rw [leaseLog_append, acquisitions_append] at hg
    obtain hold | hnew := List.mem_append.mp hg
    · exact hsound.later before _ after hhistory reading rfl leaseKey hlock g hold
    · obtain ⟨input, rfl, hclaim⟩ := claim_of_mem_acquisitions hnew
      obtain ⟨hlock', -⟩ := (claimsByClock_of_reachable h).1 t ht input g true hclaim
      have hmem : ⟨.advisoryLock input.leaseKey, ()⟩ ∈ p.2.history := by
        rw [hhistory]
        exact List.mem_append_left _ hlock
      exact absurd trivial ((exclusive h) p hp t ht hne (.advisory (hash input.leaseKey))
        .update .update ⟨_, hmem, List.mem_cons_self⟩ ⟨_, hlock', List.mem_cons_self⟩)
  · intro identity now hfound
    have hholds : (access hash).Holds p.2.history (.row identity.leaseKey) .update :=
      ⟨_, hfound, List.mem_cons_self⟩
    have hsame := (exclusive h).versions_commit hp ht hne (by simp [Mode.Protects]) hholds r
    obtain ⟨row, hrow, his⟩ := hsound.fenced identity now hfound
    refine ⟨row, ?_, his⟩
    rwa [leaseOf, hsame]

/-- What a sound transaction commits is sound.

**Proof sketch.** The generation that was verified is that of the current row, which is the last one
of all. -/
theorem IsSoundlyCommitted.commit
    {committed : List (Committed Call Query Answer LeaseResult)}
    (hcommitted : IsSoundlyCommitted hash committed) {h : LeaseHistory}
    (hsound : IsSound hash committed h) (call : Call) (r : LeaseResult) :
    IsSoundlyCommitted hash (committed ++ [⟨call, h, r⟩]) := by
  refine ⟨fun leaseKey => ?_, ?_⟩
  · rw [leaseLog, committedWrites_append]
    exact hsound.orderly leaseKey
  · refine List.pairwise_append.mpr ⟨hcommitted.inTime, List.pairwise_singleton _ _, ?_⟩
    intro earlier hearlier later hlater identity now hfound g hg
    obtain rfl := List.mem_singleton.mp hlater
    obtain ⟨row, hrow, -, hgeneration⟩ := hsound.fenced identity now hfound
    rw [← hgeneration]
    refine (hsound.orderly identity.leaseKey).le_current hrow ?_
    obtain ⟨version, hversion, hclaim⟩ := List.mem_filterMap.mp hg
    refine List.mem_filterMap.mpr ⟨version, ?_, hclaim⟩
    rw [mem_versions_iff] at hversion ⊢
    exact List.mem_append_left _ (List.mem_flatMap.mpr ⟨earlier, hearlier, hversion⟩)

/-- **Every transaction is sound**, and so is what is committed. -/
theorem isSound_of_reachable (h : (database hash).system.Reachable allowed st) :
    IsSoundlyCommitted hash st.committed ∧
      ∀ p ∈ st.running, IsSound hash st.committed p.2.history := by
  refine Database.each_of_reachable (J := fun _ committed t => IsSound hash committed t.history)
    (G := fun _ => IsSoundlyCommitted hash) (fun _ => ⟨fun _ => .nil, .nil⟩)
    (fun _ _ _ _ hG => hG) ?_ (fun _ _ _ _ _ hJ => hJ) ?_ ?_ ?_ h
  · intro _ committed call hG
    refine ⟨fun leaseKey => ?_, .nil, fun _ _ hfound => nomatch hfound⟩
    simpa [view, Access.writesOf, leaseLog] using hG.orderly leaseKey
  · intro st session t query next answers hreach ht hrest hadmits _ hJ
    exact hJ.asks hreach ht (mayAsk_of_reachable hreach ht hrest) hadmits
  · intro st p t r hreach ht hp hne hJp hJt
    exact hJp.commit hreach ht hp hne hJt r
  · intro clock committed t r hG hJ
    exact hG.commit hJ t.call r

/-- What is read of the clock is not later than it. -/
def ReadsBefore (st : LeaseState) (_ : LeaseHistory) (event : Event Query Answer) : Prop :=
  ∀ reading : ℤ, event = ⟨.clockTimestamp, reading⟩ → reading ≤ st.clock

/-- No generation is later than the clock. -/
theorem le_clock_of_mem_acquisitions (h : (database hash).system.Reachable allowed st)
    {generation : ℤ} (hmem : generation ∈ acquisitions (leaseLog hash st.committed leaseKey)) :
    generation ≤ st.clock := by
  have hall := Database.along_of_reachable (F := ReadsBefore)
    (fun st st' before event hextends hle reading heq => (hle reading heq).trans hextends.clock)
    ?_ h
  · obtain ⟨t, ht, hreading⟩ := reading_of_mem_acquisitions h hmem
    obtain ⟨⟨query, answer⟩, hevent, hread⟩ := List.mem_filterMap.mp hreading
    cases query with
    | clockTimestamp =>
      cases hread
      exact (hall.2 t ht).of_mem hevent _ rfl
    | _ => cases hread
  · intro st session t query next answers ht _ hadmits _ _ reading heq
    obtain ⟨rfl, hreading⟩ := Event.mk.inj heq
    obtain ⟨hclock, -⟩ := hadmits.2
    exact (hclock.symm.trans (eq_of_heq hreading)).ge

/-! ### Leases are safe -/

variable (hash)

/-- **Leases are safe**: one generation holds a lease at a time, generations increase with each
acquisition, and a guarded transaction that commits has verified its generation, with no later one
acquired before. -/
structure LeasesAreSafe (st : LeaseState) : Prop where
  unique : ∀ leaseKey g g', IsHeld (leaseLog hash st.committed leaseKey) st.clock g →
    IsHeld (leaseLog hash st.committed leaseKey) st.clock g' → g = g'
  increasing : ∀ leaseKey, (acquisitions (leaseLog hash st.committed leaseKey)).Pairwise (· < ·)
  acquired : ∀ t ∈ st.committed, ∀ input g, t.call = .acquire input →
    t.result = .acquired (some g) →
      g ∈ acquisitions (versions ((access hash).writesOf t.history) (.row input.leaseKey))
  verified : ∀ t ∈ st.committed, ∀ token expectedLeaseKey statements,
    t.call = .guarded token expectedLeaseKey statements →
      ∃ identity, token = some identity ∧ identity.leaseKey = expectedLeaseKey ∧
        ∃ now : ℤ, ⟨.selectFence identity now true, true⟩ ∈ t.history
  inTime : st.committed.Pairwise (CommitsInTime hash)

/-- The lease that a statement has renewed or verified, and the clock by which it has. -/
def granted : (query : Query) → Answer query → Option (LeaseIdentity × ℤ)
  | .renew identity _ heartbeatAt, isRenewed =>
    bif isRenewed then some (identity, heartbeatAt) else none
  | .selectFence identity now _, isCurrent => bif isCurrent then some (identity, now) else none
  | _, _ => none

/-- **Only a holder renews or is verified** in a step, by the clock that has just been read: neither
one that has released its lease nor one that has expired. -/
def GrantsHolder (st : LeaseState) : Step ℕ Call Query Answer → Prop
  | .proceeds session answers => ∀ t ∈ st.transaction session, ∀ query ∈ t.rest.next?,
      ∀ grant ∈ granted query (answers query), HasJustRead t.history grant.2 ∧
        IsHeld (leaseLog hash st.committed grant.1.leaseKey) grant.2 grant.1.generation
  | _ => True

variable {hash}

/-- What is current by a clock holds the lease by it. -/
theorem isHeld_of_isCurrent {h : LeaseHistory} (hunwritten : IsUnwritten hash h)
    {committed : List (Committed Call Query Answer LeaseResult)} (hsound : IsSound hash committed h)
    {identity : LeaseIdentity} {now : ℤ}
    (hcurrent : IsCurrent ((access hash).view committed h) identity now) :
    IsHeld (leaseLog hash committed identity.leaseKey) now identity.generation := by
  obtain ⟨row, hrow, his, hlt⟩ := hcurrent
  have horderly := hsound.orderly identity.leaseKey
  rw [leaseOf] at hrow
  rw [hunwritten.versions_view] at hrow horderly
  rw [← his.2]
  exact ⟨horderly.mem_acquisitions hrow, horderly.not_isReleased hrow, row.expiresAt,
    horderly.expiryOf_current hrow, hlt⟩

/-- A statement that is granted is one by a clock that has just been read. -/
theorem hasJustRead_of_granted {h : LeaseHistory} {answer : Answer query}
    (hmay : MayAsk hash h query) {grant : LeaseIdentity × ℤ} (hgrant : grant ∈ granted query answer) :
    HasJustRead h grant.2 := by
  obtain ⟨-, hasked⟩ := hmay
  cases query with
  | renew identity ttlMs heartbeatAt =>
    change Bool at answer
    cases answer with
    | false => cases hgrant
    | true =>
      cases hgrant
      exact ⟨[⟨.advisoryLock identity.leaseKey, ()⟩], hasked⟩
  | selectFence identity now lockForCommit =>
    change Bool at answer
    cases answer with
    | false => cases hgrant
    | true =>
      cases hgrant
      exact hasked
  | _ => cases hgrant

/-- A statement that is granted has found a current row. -/
theorem isCurrent_of_granted {answer : Answer query} (hanswer : IsAnswer st writes query answer)
    {grant : LeaseIdentity × ℤ} (hgrant : grant ∈ granted query answer) :
    IsCurrent writes grant.1 grant.2 := by
  cases query with
  | renew identity ttlMs heartbeatAt =>
    change Bool at answer
    have hanswer : answer = decide (IsCurrent writes identity heartbeatAt) := hanswer
    cases answer with
    | false => cases hgrant
    | true =>
      cases hgrant
      exact of_decide_eq_true hanswer.symm
  | selectFence identity now lockForCommit =>
    change Bool at answer
    cases answer with
    | false => cases hgrant
    | true =>
      cases hgrant
      exact hanswer
  | _ => cases hgrant

/-- **Leases are safe in every run**, and only holders renew and are verified.

**Proof sketch.** The logs of committed versions are orderly, and no generation is later than the
clock; so what is held is the current row. A statement that is granted has found the current row,
which has not expired by the clock that it has read. -/
theorem leasesAreSafe_of_reachable (h : (database hash).system.Reachable (fun _ _ => True) st) :
    LeasesAreSafe hash st ∧ ∀ e st', (database hash).system.step st e = some st' →
      GrantsHolder hash st e := by
  obtain ⟨hcommitted, hsound⟩ := isSound_of_reachable h
  obtain ⟨-, hasked⟩ := safe_of_reachable h
  refine ⟨⟨fun leaseKey g g' hg hg' => ?_, fun leaseKey => (hcommitted.orderly leaseKey).increasing,
    fun t ht input g hcall hresult => ?_, fun t ht token key statements hcall => ?_,
    hcommitted.inTime⟩, fun e st' hstep => ?_⟩
  · have hle : ∀ g ∈ acquisitions (leaseLog hash st.committed leaseKey), g ≤ st.clock :=
      fun g hmem => le_clock_of_mem_acquisitions h hmem
    obtain ⟨row, hrow, rfl, -⟩ := ((hcommitted.orderly leaseKey).isHeld_iff hle).mp hg
    obtain ⟨row', hrow', rfl, -⟩ := ((hcommitted.orderly leaseKey).isHeld_iff hle).mp hg'
    rw [Option.some.inj (hrow.symm.trans hrow')]
  · have hpost : HasAsked t.call t.history t.result := hasked t ht
    rw [hcall] at hpost
    exact mem_acquisitions_of_claim (hpost g hresult)
  · have hpost : HasAsked t.call t.history t.result := hasked t ht
    rw [hcall] at hpost
    exact hpost
  · cases e with
    | proceeds session answers =>
      intro t ht query hquery grant hgrant
      rw [Option.mem_def] at ht hquery
      obtain ⟨hadmits, next, hrest⟩ := Database.admits_of_step hstep ht hquery
      have hmay := mayAsk_of_reachable h ht hrest
      have hanswer := hadmits.2
      rw [viewOf_of_transaction ht] at hanswer
      exact ⟨hasJustRead_of_granted hmay hgrant, isHeld_of_isCurrent hmay.1
        (hsound _ (State.mem_of_transaction ht)) (isCurrent_of_granted hanswer hgrant)⟩
    | _ => trivial

end Runs

/-! ### A run -/

/-- All keys are hashed to one number. -/
def oneHash : KeyHash := fun _ => 0

/-- Nothing is there yet. -/
def noLease : LeaseState where
  clock := 1000
  running := []
  committed := []

/-- What the database answers at a clock. -/
def reply (now : ℤ) (isFound : Bool) : (query : Query) → Answer query
  | .advisoryLock _ => ()
  | .clockTimestamp => now
  | .claim _ _ => isFound
  | .renew _ _ _ => isFound
  | .release _ => isFound
  | .selectFence _ _ _ => isFound
  | .callback => true

/-- A lease of five milliseconds. -/
def shortLease (ownerId : JsString) : LeaseInput where
  leaseKey := js "worker"
  ownerId := ownerId
  ttlMs := 5

/-- The lease of the first worker. -/
def firstIdentity : LeaseIdentity where
  generation := 1000
  leaseKey := js "worker"
  ownerId := js "first"

/-- The first worker acquires a lease and begins a guarded transaction, which verifies its fence
just before the lease expires. A second worker wants the lease while the transaction is not
committed, gets it afterwards, and the first worker is not renewed. -/
def takesOver : List (Step ℕ Call Query Answer) :=
  .begins 1 (.acquire (shortLease (js "first"))) ::
    List.replicate 4 (.proceeds 1 (reply 1000 true)) ++
    .elapses 4000 :: .begins 1 (.guarded (some firstIdentity) (js "worker") 1) ::
    List.replicate 3 (.proceeds 1 (reply 5000 true)) ++
    .elapses 999 :: List.replicate 2 (.proceeds 1 (reply 5999 true)) ++
    .elapses 1 :: .begins 2 (.acquire (shortLease (js "second"))) ::
    List.replicate 2 (.proceeds 2 (reply 6000 true)) ++
    .proceeds 1 (reply 6000 true) :: List.replicate 2 (.proceeds 2 (reply 6000 true)) ++
    .elapses 1 :: .begins 1 (.renew firstIdentity 5) ::
    List.replicate 4 (.proceeds 1 (reply 6001 false))

/-- In that run the lease is acquired twice, and the second generation holds it. -/
theorem leasesAreSafe_takesOver :
    ∃ st, (database oneHash).system.run noLease takesOver = some st ∧
      acquisitions (leaseLog oneHash st.committed (js "worker")) = [1000, 6000] ∧
      (st.committed.map fun t => t.result) = [.acquired (some 1000), .committed,
        .acquired (some 6000), .renewed false] ∧
      LeasesAreSafe oneHash st ∧ ∀ e st', (database oneHash).system.step st e = some st' →
        GrantsHolder oneHash st e := by
  have hrun : ((database oneHash).system.run noLease takesOver).map (fun st =>
      (acquisitions (leaseLog oneHash st.committed (js "worker")),
        st.committed.map fun t => t.result)) =
      some ([1000, 6000], [.acquired (some 1000), .committed, .acquired (some 6000),
        .renewed false]) := by decide +kernel
  obtain ⟨st, hst, heq⟩ := Option.map_eq_some_iff.mp hrun
  obtain ⟨hacquisitions, hresults⟩ := Prod.mk.inj heq
  have hinit : (database oneHash).system.Reachable (fun _ _ => True) noLease := .init ⟨rfl, rfl⟩
  exact ⟨st, hst, hacquisitions, hresults, leasesAreSafe_of_reachable (hinit.run hst)⟩

end Handleplan.WorkerLease
