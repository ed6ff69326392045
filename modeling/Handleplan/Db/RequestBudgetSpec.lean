import Handleplan.Db.RequestBudget

/-!
# Request budgets hold over any interleaving

While a claim is under way nobody else claims the bucket, so the events that it counts are those
that earlier claims have left. They hold all that was granted in the window that ends now, and so
there is room for what is granted.

## Main definitions

* `RequestBudget.IsDelayed` — when a claim that is refused is told to retry.
* `RequestBudget.BudgetsHold` — what holds of a state of the database.
* `RequestBudget.EndsInTime` — how `acquire` ends.

## Main results

* `RequestBudget.isDelayed_retryAfter` — what a full window tells.
* `RequestBudget.requestBudgets_hold` — budgets hold in every run, and `acquire` ends.
* `RequestBudget.not_delaysAreShort` — a delay is rounded up.
* `RequestBudget.not_acquire_endsAt_le` — the claim under way at the deadline is awaited.

## Design

A window is half-open: an event leaves it when it is as old as the window is long. A delay is a
whole number of units and at least one, so it may end up to a unit after an event has left the
window.
-/

namespace Handleplan.RequestBudget

open Interaction Sessions RowLocks Access SlidingWindow JsString

/-! ### Delays -/

section Delays

variable {numerator denominator : ℤ}

/-- A quotient that is rounded up is large enough. -/
theorem le_ceilDiv_mul (hpos : 0 < denominator) :
    numerator ≤ ceilDiv numerator denominator * denominator := by
  have hle := Int.ediv_mul_le (-numerator) hpos.ne'
  unfold ceilDiv
  rw [Int.neg_mul]
  omega

/-- And one less is too small. -/
theorem ceilDiv_sub_one_mul_lt (hpos : 0 < denominator) :
    (ceilDiv numerator denominator - 1) * denominator < numerator := by
  have hlt := Int.lt_ediv_add_one_mul_self (-numerator) hpos
  have heq : (ceilDiv numerator denominator - 1) * denominator =
      -((-numerator / denominator + 1) * denominator) := by
    unfold ceilDiv
    ring
  rw [heq]
  omega

/-- **When a claim that is refused is told to retry**: a claim is within the limit then, and not yet
one unit earlier, unless that is at once. -/
structure IsDelayed (policy : Policy) (granted : List ℤ) (now retryAfter : ℤ) : Prop where
  positive : 1 ≤ retryAfter
  free : IsFree policy.limit policy.window granted (now + retryAfter * policy.unit)
  taken : retryAfter = 1 ∨ ∀ moment ≤ now + (retryAfter - 1) * policy.unit,
    ¬ IsFree policy.limit policy.window granted moment

/-- What a statement has left of the claims that were granted. -/
structure HasPruned (policy : Policy) (granted : List ℤ) (pruned : Pruned) : Prop where
  past : ∀ moment ∈ granted, moment ≤ pruned.endedAt
  sublist : pruned.kept.Sublist granted
  covers : Covers policy.window pruned.endedAt granted pruned.kept
  few : pruned.kept.length ≤ policy.limit

variable {policy : Policy} {granted : List ℤ} {pruned : Pruned} {now : ℤ}

/-- **What a full window tells** those it refuses.

**Proof sketch.** The oldest event is the first to leave the window. The maximum is not less than
the window, in which it is, so the delay is that of the oldest event, rounded up. -/
theorem isDelayed_retryAfter (hpruned : HasPruned policy granted pruned)
    (hle : pruned.endedAt ≤ now) (hfull : policy.limit ≤ pruned.kept.length) :
    IsDelayed policy granted now (retryAfter policy pruned.kept.min? now) := by
  have hunit := policy.unit_pos
  have hmaximum := policy.maximum_pos
  have hne : pruned.kept ≠ [] := by
    intro hnil
    have := policy.limit_pos
    simp [hnil] at hfull
    omega
  obtain ⟨oldest, holdest⟩ := Option.ne_none_iff_exists'.mp
    (mt List.min?_eq_none_iff.mp hne)
  obtain ⟨hmem, hfirst⟩ := List.min?_eq_some_iff.mp holdest
  have hpast : oldest ≤ now := (hpruned.past _ (hpruned.sublist.subset hmem)).trans hle
  set remaining := oldest + policy.window - now with hremaining
  set units := ceilDiv remaining policy.unit with hunits
  have hceil : remaining ≤ units * policy.unit := le_ceilDiv_mul hunit
  have hfloor : (units - 1) * policy.unit < remaining := ceilDiv_sub_one_mul_lt hunit
  have hretry : retryAfter policy pruned.kept.min? now = min policy.maximum (max 1 units) := by
    rw [holdest]
    rfl
  have hwithin : units ≤ policy.maximum := by
    have hlt : (units - 1) * policy.unit < policy.maximum * policy.unit := by
      have := policy.window_le
      omega
    have := lt_of_mul_lt_mul_right hlt hunit.le
    omega
  rw [hretry, min_eq_right (max_le hmaximum hwithin)]
  refine ⟨le_max_left _ _, ?_, ?_⟩
  · have hmul : units * policy.unit ≤ max 1 units * policy.unit :=
      mul_le_mul_of_nonneg_right (le_max_right _ _) hunit.le
    have hone : 0 < max 1 units * policy.unit :=
      mul_pos (lt_of_lt_of_le one_pos (le_max_left _ _)) hunit
    exact hpruned.covers.isFree hpruned.few hmem (by omega) (by omega)
  · obtain hone | hlt := le_or_gt units 1
    · exact .inl (max_eq_left hone)
    · refine .inr fun moment hmoment => not_isFree hpruned.sublist hfull fun m hm => ?_
      rw [max_eq_right hlt.le] at hmoment
      have := hfirst m hm
      omega

end Delays

/-! ### Events of a bucket -/

/-- Whether a statement changes the events of a bucket. -/
def Query.Changes (bucket : Bucket) : Query → Prop
  | .deleteExpired other _ _ => other = bucket
  | .insertEvent other => other = bucket
  | _ => False

/-- Whether a history leaves the events of a bucket as they are. -/
def Spares (bucket : Bucket) (h : BudgetHistory) : Prop :=
  ∀ event ∈ h, ¬ event.query.Changes bucket

section Events

variable {bucket : Bucket} {log h : BudgetHistory} {event : Event Query Answer} {rows : List ℤ}

theorem rowsOf_append : rowsOf bucket (log ++ h) = h.foldl (applyEvent bucket) (rowsOf bucket log) :=
  List.foldl_append

/-- The rows of a bucket after one more event. -/
theorem rowsOf_concat : rowsOf bucket (log ++ [event]) = applyEvent bucket (rowsOf bucket log) event :=
  rowsOf_append

theorem grantsOf_append : grantsOf bucket (log ++ h) = grantsOf bucket log ++ grantsOf bucket h :=
  List.filterMap_append

/-- An event of another kind, or bucket, leaves the rows alone. -/
theorem applyEvent_of_not_changes (hnot : ¬ event.query.Changes bucket) :
    applyEvent bucket rows event = rows := by
  obtain ⟨query, answer⟩ := event
  cases query with
  | deleteExpired other window startedAt => exact if_neg hnot
  | insertEvent other => exact if_neg hnot
  | _ => rfl

/-- Such an event grants nothing. -/
theorem inserted_of_not_changes (hnot : ¬ event.query.Changes bucket) :
    inserted bucket event = none := by
  obtain ⟨query, answer⟩ := event
  cases query with
  | insertEvent other => exact if_neg hnot
  | _ => rfl

theorem Spares.foldl (hspares : Spares bucket h) : h.foldl (applyEvent bucket) rows = rows := by
  induction h generalizing rows with
  | nil => rfl
  | cons event h ih =>
    rw [List.foldl_cons, applyEvent_of_not_changes (hspares event List.mem_cons_self)]
    exact ih fun other hother => hspares other (List.mem_cons_of_mem _ hother)

/-- Events that spare a bucket leave its rows alone. -/
theorem Spares.rowsOf_append (hspares : Spares bucket h) :
    rowsOf bucket (log ++ h) = rowsOf bucket log := by
  rw [RequestBudget.rowsOf_append, hspares.foldl]

theorem Spares.grantsOf_eq_nil (hspares : Spares bucket h) : grantsOf bucket h = [] :=
  List.filterMap_eq_nil_iff.mpr fun event hevent => inserted_of_not_changes (hspares event hevent)

/-- They grant nothing of it. -/
theorem Spares.grantsOf_append (hspares : Spares bucket h) :
    grantsOf bucket (log ++ h) = grantsOf bucket log := by
  rw [RequestBudget.grantsOf_append, hspares.grantsOf_eq_nil, List.append_nil]

theorem logOf_append (committed : List CommittedClaim) (t : CommittedClaim) :
    logOf (committed ++ [t]) = logOf committed ++ t.history := by
  simp [logOf]

end Events

/-! ### What the functions ask -/

/-- A statement that has the advisory lock of a bucket. -/
def IsLock (bucket : Bucket) (event : Event Query Answer) : Prop :=
  event = ⟨.advisoryLock bucket, ()⟩ ∨ event = ⟨.tryAdvisoryLock bucket, true⟩

/-- The first statements of a claim, until it has counted the events. -/
def counting (lock : Event Query Answer) (bucket : Bucket) (policy : Policy) (startedAt : ℤ)
    (pruned : Pruned) (state : BudgetState) : BudgetHistory :=
  [lock, ⟨.clockTimestamp, startedAt⟩, ⟨.deleteExpired bucket policy.window startedAt, pruned⟩,
    ⟨.selectState bucket, state⟩]

/-- A claim has counted the events, and asked some more statements since. -/
def HasCounted (bucket : Bucket) (policy : Policy) (pruned : Pruned) (state : BudgetState)
    (rest h : BudgetHistory) : Prop :=
  ∃ lock startedAt, IsLock bucket lock ∧ h = counting lock bucket policy startedAt pruned state ++ rest

section Programs

variable (configured : Configuration)

/-- What a claim may ask: it deletes under the lock, counts what it has left, and inserts when that
is less than the limit. -/
def MayAsk (call : Call) (h : BudgetHistory) : Query → Prop
  | .deleteExpired bucket window startedAt => ∃ policy, policyOf configured bucket = some policy ∧
      window = policy.window ∧ ∃ lock, IsLock bucket lock ∧ h = [lock, ⟨.clockTimestamp, startedAt⟩]
  | .insertEvent bucket => bucket = call.bucket ∧ ∃ policy, policyOf configured bucket = some policy ∧
      ∃ pruned state rest, HasCounted bucket policy pruned state rest h ∧
        (∀ event ∈ rest, event.query = .clockTimestamp) ∧ state.attemptCount < policy.limit
  | _ => True

/-- What a claim that returns has asked. -/
def HasAsked (call : Call) (h : BudgetHistory) (result : RequestBudgetClaim) : Prop :=
  ∃ policy, policyOf configured call.bucket = some policy ∧
    ((result.acquired = true ∧ ∃ pruned state rest, ∃ claimedAt : ℤ,
        HasCounted call.bucket policy pruned state (rest ++ [⟨.insertEvent call.bucket, claimedAt⟩]) h ∧
          ∀ event ∈ rest, event.query = .clockTimestamp) ∨
      (result.acquired = false ∧ ∃ pruned state, ∃ now : ℤ,
        HasCounted call.bucket policy pruned state [⟨.clockTimestamp, now⟩] h ∧
          policy.limit ≤ state.attemptCount ∧
            result.retryAfter = retryAfter policy state.oldestClaim now) ∨
      (result = ⟨false, 1⟩ ∧ h = [⟨.tryAdvisoryLock call.bucket, false⟩]))

variable {configured}

/-- A claim grants what it has counted room for. -/
theorem safe_grant (call : Call) {policy : Policy} {pruned : Pruned} {state : BudgetState}
    {rest h : BudgetHistory} (hpolicy : policyOf configured call.bucket = some policy)
    (hcounted : HasCounted call.bucket policy pruned state rest h)
    (hrest : ∀ event ∈ rest, event.query = .clockTimestamp)
    (hlt : state.attemptCount < policy.limit) :
    Prog.Safe (MayAsk configured call) (HasAsked configured call) h (grant call.bucket) := by
  refine Prog.Safe.bind (Prog.Safe.query
    ⟨rfl, policy, hpolicy, pruned, state, rest, hcounted, hrest, hlt⟩ fun (claimedAt : ℤ) => ?_)
  obtain ⟨lock, startedAt, hlock, rfl⟩ := hcounted
  exact ⟨policy, hpolicy, .inl ⟨rfl, pruned, state, rest, claimedAt,
    ⟨lock, startedAt, hlock, List.append_assoc _ _ _⟩, hrest⟩⟩

/-- The two statements after a lock. -/
theorem safe_pruneAndCount {call : Call} {bucket : Bucket} {policy : Policy}
    {lock : Event Query Answer} {post : BudgetHistory → BudgetState → Prop}
    (hpolicy : policyOf configured bucket = some policy) (hlock : IsLock bucket lock)
    (hpost : ∀ pruned state h, HasCounted bucket policy pruned state [] h → post h state) :
    Prog.Safe (MayAsk configured call) post [lock] (pruneAndCount bucket policy) := by
  refine Prog.Safe.bind (Prog.Safe.query trivial fun (startedAt : ℤ) => ?_)
  refine Prog.Safe.bind (Prog.Safe.query ⟨policy, hpolicy, rfl, lock, hlock, rfl⟩
    fun (pruned : Pruned) => ?_)
  refine Prog.Safe.query trivial fun (state : BudgetState) => ?_
  exact hpost pruned state _ ⟨lock, startedAt, hlock, rfl⟩

theorem HasCounted.concat {bucket : Bucket} {policy : Policy} {pruned : Pruned}
    {state : BudgetState} {rest h : BudgetHistory}
    (hcounted : HasCounted bucket policy pruned state rest h) (event : Event Query Answer) :
    HasCounted bucket policy pruned state (rest ++ [event]) (h ++ [event]) := by
  obtain ⟨lock, startedAt, hlock, rfl⟩ := hcounted
  exact ⟨lock, startedAt, hlock, List.append_assoc _ _ _⟩

/-- Each query of a provider's claim may be asked. -/
theorem safe_claim (providerKey : JsString) :
    Prog.Safe (MayAsk configured (.provider providerKey))
      (HasAsked configured (.provider providerKey)) []
      (claim providerKey (configured providerKey).policy) := by
  have hpolicy : policyOf configured (Call.provider providerKey).bucket =
    some (configured providerKey).policy := rfl
  refine Prog.Safe.bind (Prog.Safe.query trivial fun (_ : Unit) => ?_)
  refine Prog.Safe.bind (safe_pruneAndCount hpolicy (.inl rfl) fun pruned state h hcounted => ?_)
  refine Prog.Safe.bind (Prog.Safe.query trivial fun (now : ℤ) => ?_)
  have hread := hcounted.concat ⟨.clockTimestamp, now⟩
  split_ifs with hlt
  · refine safe_grant (.provider providerKey) hpolicy hread (fun event hevent => ?_) hlt
    exact List.mem_singleton.mp hevent ▸ rfl
  · exact ⟨_, hpolicy, .inr (.inl ⟨rfl, pruned, state, now, hread, not_lt.mp hlt, rfl⟩)⟩

/-- Each query of a public route's claim may be asked. -/
theorem safe_claimPublic (routeKey : JsString) :
    Prog.Safe (MayAsk configured (.route routeKey)) (HasAsked configured (.route routeKey)) []
      (claimPublic routeKey) := by
  refine Prog.Safe.bind (Prog.Safe.orFail fun policy hpolicy => ?_)
  refine Prog.Safe.bind (Prog.Safe.query trivial fun (isLocked : Bool) => ?_)
  cases isLocked with
  | false => exact ⟨policy, hpolicy, .inr (.inr ⟨rfl, rfl⟩)⟩
  | true =>
    refine Prog.Safe.bind (safe_pruneAndCount hpolicy (.inr rfl) fun pruned state h hcounted => ?_)
    split_ifs with hlt
    · exact safe_grant (.route routeKey) hpolicy hcounted (fun _ hevent => nomatch hevent) hlt
    · refine Prog.Safe.bind (Prog.Safe.orFail fun oldest holdest => ?_)
      refine Prog.Safe.bind (Prog.Safe.query trivial fun (now : ℤ) => ?_)
      refine ⟨policy, hpolicy, .inr (.inl ⟨rfl, pruned, state, now, hcounted.concat _,
        not_lt.mp hlt, ?_⟩)⟩
      rw [holdest]

end Programs

/-! ### Runs -/

section Runs

variable (configured : Configuration)

/-- What a statement tells of those before it: a count is that of what was left, and the clock is
not read before that. -/
structure Tells (before : BudgetHistory) (event : Event Query Answer) : Prop where
  counts : ∀ bucket state, event = ⟨.selectState bucket, state⟩ →
    ∀ earlier window startedAt pruned,
      before = earlier ++ [⟨.deleteExpired bucket window startedAt, pruned⟩] →
        state = stateOf pruned.kept
  reads : ∀ now : ℤ, event = ⟨.clockTimestamp, now⟩ → ∀ bucket window startedAt pruned,
    ⟨.deleteExpired bucket window startedAt, pruned⟩ ∈ before → Pruned.endedAt pruned ≤ now

/-- **What a claim under way relies on**: its lock, what the events keep of the claims that were
granted, and what it has left of them. -/
structure IsSound (clock : ℤ) (log h : BudgetHistory) : Prop where
  locked : ∀ bucket, Spares bucket h ∨ ∃ lock ∈ h, IsLock bucket lock
  keeps : ∀ bucket policy, policyOf configured bucket = some policy →
    Keeps policy.limit policy.window clock (grantsOf bucket (log ++ h)) (rowsOf bucket (log ++ h))
  pruned : ∀ bucket policy window startedAt pruned, policyOf configured bucket = some policy →
    ⟨.deleteExpired bucket window startedAt, pruned⟩ ∈ h →
      HasPruned policy (grantsOf bucket log) pruned
  ended : ∀ bucket window startedAt pruned,
    ⟨.deleteExpired bucket window startedAt, pruned⟩ ∈ h → Pruned.endedAt pruned ≤ clock
  tells : Along Tells h

/-- What holds of the claims that are committed. -/
structure IsSoundlyCommitted (clock : ℤ) (committed : List CommittedClaim) : Prop where
  keeps : ∀ bucket policy, policyOf configured bucket = some policy →
    Keeps policy.limit policy.window clock (grantsOf bucket (logOf committed))
      (rowsOf bucket (logOf committed))
  pruned : ∀ before t, (before ++ [t]) <+: committed →
    ∀ bucket policy window startedAt pruned, policyOf configured bucket = some policy →
      ⟨.deleteExpired bucket window startedAt, pruned⟩ ∈ t.history →
        HasPruned policy (grantsOf bucket (logOf before)) pruned
  tells : ∀ t ∈ committed, Along Tells t.history

variable {configured} {hash : KeyHash} {st : BudgetDatabaseState}
  {allowed : BudgetDatabaseState → Step ℕ Call Query Answer → Prop} {clock : ℤ}
  {log h : BudgetHistory} {committed : List CommittedClaim}

/-- What is open keeps to its program in every run. -/
theorem safe_of_reachable (hreach : (database hash configured).system.Reachable allowed st) :
    Database.Everywhere st
      (fun t => Prog.Safe (MayAsk configured t.call) (HasAsked configured t.call) t.history t.rest)
      fun t => HasAsked configured t.call t.history t.result :=
  Database.safe_of_reachable (fun
    | .provider providerKey => safe_claim providerKey
    | .route routeKey => safe_claimPublic routeKey) hreach

variable {session : ℕ} {t : Transaction Call Query Answer ClaimError RequestBudgetClaim}
  {query : Query} {state : BudgetState} {rest : BudgetHistory}

/-- So the next query of each transaction may be asked. -/
theorem mayAsk_of_reachable (hreach : (database hash configured).system.Reachable allowed st)
    {next : Answer query → BudgetProg RequestBudgetClaim} (ht : st.transaction session = some t)
    (hrest : t.rest = .ask query next) : MayAsk configured t.call t.history query := by
  have hsafe : Prog.Safe (MayAsk configured t.call) (HasAsked configured t.call) t.history t.rest :=
    (safe_of_reachable hreach).1 _ (State.mem_of_transaction ht)
  rw [hrest] at hsafe
  exact hsafe.1

/-- Locks are held by one transaction each. -/
theorem exclusive (hreach : (database hash configured).system.Reachable allowed st) :
    (access hash).Exclusive st := by
  refine exclusive_of_reachable ?_ hreach
  intro st session query answer hadmits
  exact hadmits.1

/-- A transaction sees what is committed, and its own changes. -/
theorem rowsSeen_of_transaction (ht : st.transaction session = some t) (bucket : Bucket) :
    rowsSeen st session bucket = rowsOf bucket (logOf st.committed ++ t.history) := by
  rw [rowsSeen, historyOf, ht]
  rfl

variable {bucket : Bucket}

/-- A statement that has a lock holds it. -/
theorem IsLock.holds {lock : Event Query Answer} (hlock : IsLock bucket lock) (hmem : lock ∈ h) :
    (access hash).Holds h (hash bucket) .update := by
  obtain rfl | rfl := hlock
  · exact ⟨_, hmem, List.mem_cons_self⟩
  · exact ⟨_, hmem, List.mem_cons_self⟩

/-- **Of two claims under way** one leaves the events of a bucket as they are. -/
theorem spares_or (hreach : (database hash configured).system.Reachable allowed st)
    {p t : ℕ × Transaction Call Query Answer ClaimError RequestBudgetClaim} (hp : p ∈ st.running)
    (ht : t ∈ st.running) (hne : p.1 ≠ t.1)
    (hsound : IsSound configured st.clock (logOf st.committed) p.2.history)
    (hother : IsSound configured st.clock (logOf st.committed) t.2.history) (bucket : Bucket) :
    Spares bucket p.2.history ∨ Spares bucket t.2.history := by
  obtain hspares | ⟨lock, hmem, hlock⟩ := hsound.locked bucket
  · exact .inl hspares
  obtain hspares | ⟨lock', hmem', hlock'⟩ := hother.locked bucket
  · exact .inr hspares
  exact absurd trivial ((exclusive hreach) p hp t ht hne (hash bucket) .update .update
    (hlock.holds hmem) (hlock'.holds hmem'))

/-! ### One statement -/

/-- What was counted is what was left, and it is what the rows are still. -/
theorem HasCounted.rowsOf (log : BudgetHistory) {bucket : Bucket} {policy : Policy}
    {pruned : Pruned} (hcounted : HasCounted bucket policy pruned state rest h)
    (htells : Along Tells h) (hrest : Spares bucket rest) :
    state = stateOf pruned.kept ∧ RequestBudget.rowsOf bucket (log ++ h) = pruned.kept := by
  obtain ⟨lock, startedAt, hlock, rfl⟩ := hcounted
  refine ⟨?_, ?_⟩
  · exact (htells [lock, ⟨.clockTimestamp, startedAt⟩,
      ⟨.deleteExpired bucket policy.window startedAt, pruned⟩] _ rest rfl).counts bucket state rfl
      [lock, ⟨.clockTimestamp, startedAt⟩] _ _ _ rfl
  · rw [← List.append_assoc, hrest.rowsOf_append, RequestBudget.rowsOf_append]
    simp [counting, applyEvent]

theorem HasCounted.mem {policy : Policy} {pruned : Pruned}
    (hcounted : HasCounted bucket policy pruned state rest h) :
    ∃ startedAt, ⟨.deleteExpired bucket policy.window startedAt, pruned⟩ ∈ h := by
  obtain ⟨lock, startedAt, -, rfl⟩ := hcounted
  exact ⟨startedAt, by simp [counting]⟩

/-- A claim that has counted holds the lock of its bucket. -/
theorem HasCounted.locked {policy : Policy} {pruned : Pruned}
    (hcounted : HasCounted bucket policy pruned state rest h) : ∃ lock ∈ h, IsLock bucket lock := by
  obtain ⟨lock, startedAt, hlock, rfl⟩ := hcounted
  exact ⟨lock, by simp [counting], hlock⟩

theorem spares_of_clock (hrest : ∀ event ∈ rest, event.query = .clockTimestamp) :
    Spares bucket rest := by
  intro event hevent hchanges
  rw [hrest event hevent] at hchanges
  exact hchanges

variable {answer : Answer query}

section

variable (ht : st.transaction session = some t)
  (hsound : IsSound configured st.clock (logOf st.committed) t.history)

include ht hsound

/-- **A statement that changes events keeps** what they keep of the claims that were granted. -/
theorem keeps_of_isAnswer (hmay : MayAsk configured t.call t.history query)
    (hanswer : IsAnswer hash st session query answer) {bucket : Bucket} {policy : Policy}
    (hpolicy : policyOf configured bucket = some policy) :
    Keeps policy.limit policy.window st.clock
      (grantsOf bucket (logOf st.committed ++ (t.history ++ [⟨query, answer⟩])))
      (rowsOf bucket (logOf st.committed ++ (t.history ++ [⟨query, answer⟩]))) := by
  have hkeeps := hsound.keeps bucket policy hpolicy
  rw [← List.append_assoc]
  by_cases hchanges : query.Changes bucket
  · cases query with
    | deleteExpired other window startedAt =>
      obtain rfl := hchanges
      obtain ⟨policy', hpolicy', rfl, -⟩ := hmay
      obtain rfl := Option.some.inj (hpolicy'.symm.trans hpolicy)
      obtain ⟨hended, hleft, hsub⟩ := hanswer
      rw [rowsSeen_of_transaction ht] at hleft hsub
      rw [hended] at hleft
      rw [rowsOf_concat, grantsOf_append]
      have hnone : grantsOf other [⟨Query.deleteExpired other policy'.window startedAt, answer⟩] = [] :=
        rfl
      have hrows : applyEvent other (rowsOf other (logOf st.committed ++ t.history))
          ⟨.deleteExpired other policy'.window startedAt, answer⟩ = Pruned.kept answer := if_pos rfl
      rw [hnone, hrows, List.append_nil]
      exact hkeeps.prune hleft (hsub.trans List.filter_sublist)
    | insertEvent other =>
      obtain rfl := hchanges
      obtain ⟨-, policy', hpolicy', pruned, state, rest, hcounted, hrest, hlt⟩ := hmay
      obtain rfl := Option.some.inj (hpolicy'.symm.trans hpolicy)
      obtain rfl : answer = st.clock := hanswer
      obtain ⟨rfl, hrows⟩ := hcounted.rowsOf (logOf st.committed) hsound.tells
        (spares_of_clock hrest)
      rw [hrows] at hkeeps
      have hinsert : applyEvent other pruned.kept ⟨.insertEvent other, st.clock⟩ =
          pruned.kept ++ [st.clock] := if_pos rfl
      have hgrant : grantsOf other [⟨Query.insertEvent other, st.clock⟩] = [st.clock] := by
        simp [grantsOf, inserted]
      rw [rowsOf_concat, grantsOf_append, hrows, hinsert, hgrant]
      exact hkeeps.grant hlt
    | _ => exact hchanges.elim
  · have hspares : Spares bucket [⟨query, answer⟩] :=
      fun event hevent => List.mem_singleton.mp hevent ▸ hchanges
    rw [hspares.rowsOf_append, hspares.grantsOf_append]
    exact hkeeps

/-- A statement whose answer is what the session sees tells of those before it. -/
theorem tells_of_isAnswer (hanswer : IsAnswer hash st session query answer) :
    Tells t.history ⟨query, answer⟩ where
  counts := by
    rintro bucket state heq earlier window startedAt pruned hhistory
    obtain ⟨rfl, hstate⟩ := Event.mk.inj heq
    obtain rfl := eq_of_heq hstate
    have hseen : answer = stateOf (rowsSeen st session bucket) := hanswer
    rw [hseen, rowsSeen_of_transaction ht, hhistory, ← List.append_assoc, rowsOf_concat]
    exact congrArg stateOf (if_pos rfl)
  reads := by
    rintro now heq bucket window startedAt pruned hmem
    obtain ⟨rfl, hnow⟩ := Event.mk.inj heq
    obtain rfl := eq_of_heq hnow
    have hclock : @Eq ℤ answer st.clock := hanswer
    rw [hclock]
    exact hsound.ended bucket window startedAt pruned hmem

/-- **Every statement** of a claim under way leaves it sound. -/
theorem IsSound.asks (hmay : MayAsk configured t.call t.history query)
    (hanswer : IsAnswer hash st session query answer) :
    IsSound configured st.clock (logOf st.committed) (t.history ++ [⟨query, answer⟩]) where
  locked := by
    intro bucket
    obtain hspares | ⟨lock, hmem, hlock⟩ := hsound.locked bucket
    · by_cases hchanges : query.Changes bucket
      · right
        cases query with
        | deleteExpired other window startedAt =>
          obtain rfl := hchanges
          obtain ⟨-, -, -, lock, hlock, hhistory⟩ := hmay
          exact ⟨lock, by simp [hhistory], hlock⟩
        | insertEvent other =>
          obtain rfl := hchanges
          obtain ⟨-, policy, -, pruned, state, rest, hcounted, -⟩ := hmay
          obtain ⟨lock, hmem, hlock⟩ := hcounted.locked
          exact ⟨lock, List.mem_append_left _ hmem, hlock⟩
        | _ => exact hchanges.elim
      · refine .inl fun event hevent => ?_
        obtain hold | hnew := List.mem_append.mp hevent
        · exact hspares event hold
        · exact List.mem_singleton.mp hnew ▸ hchanges
    · exact .inr ⟨lock, List.mem_append_left _ hmem, hlock⟩
  keeps bucket policy hpolicy := keeps_of_isAnswer ht hsound hmay hanswer hpolicy
  pruned := by
    intro bucket policy window startedAt pruned hpolicy hmem
    obtain hold | hnew := List.mem_append.mp hmem
    · exact hsound.pruned bucket policy window startedAt pruned hpolicy hold
    · obtain ⟨rfl, hpruned⟩ := Event.mk.inj (List.mem_singleton.mp hnew)
      obtain rfl := eq_of_heq hpruned
      have hkeeps := keeps_of_isAnswer ht hsound hmay hanswer hpolicy
      obtain ⟨-, -, -, lock, hlock, hhistory⟩ := hmay
      obtain ⟨hended, -⟩ := hanswer
      have hspares : Spares bucket t.history := by
        rw [hhistory]
        intro event hevent hchanges
        obtain rfl | hevent := List.mem_cons.mp hevent
        · obtain rfl | rfl := hlock <;> exact hchanges
        · obtain rfl := List.mem_singleton.mp hevent
          exact hchanges
      have hgrants : grantsOf bucket (logOf st.committed ++
          (t.history ++ [⟨.deleteExpired bucket window startedAt, pruned⟩])) =
          grantsOf bucket (logOf st.committed) := by
        rw [grantsOf_append, grantsOf_append, hspares.grantsOf_eq_nil]
        exact List.append_nil _
      have hrows : rowsOf bucket (logOf st.committed ++
          (t.history ++ [⟨.deleteExpired bucket window startedAt, pruned⟩])) = pruned.kept := by
        rw [← List.append_assoc, rowsOf_concat]
        exact if_pos rfl
      rw [hgrants, hrows, ← hended] at hkeeps
      exact ⟨hkeeps.past, hkeeps.sublist, hkeeps.covers, hkeeps.few⟩
  ended := by
    intro bucket window startedAt pruned hmem
    obtain hold | hnew := List.mem_append.mp hmem
    · exact hsound.ended bucket window startedAt pruned hold
    · obtain ⟨rfl, hpruned⟩ := Event.mk.inj (List.mem_singleton.mp hnew)
      obtain rfl := eq_of_heq hpruned
      exact hanswer.1.le
  tells := hsound.tells.snoc (tells_of_isAnswer ht hsound hanswer)

end

/-! ### Whole runs -/

/-- **Another commit** leaves a claim under way sound. -/
theorem IsSound.commit (hreach : (database hash configured).system.Reachable allowed st)
    {p t : ℕ × Transaction Call Query Answer ClaimError RequestBudgetClaim} (ht : t ∈ st.running)
    (hp : p ∈ st.running) (hne : p.1 ≠ t.1)
    (hsound : IsSound configured st.clock (logOf st.committed) p.2.history)
    (hother : IsSound configured st.clock (logOf st.committed) t.2.history)
    (r : RequestBudgetClaim) :
    IsSound configured st.clock (logOf (st.committed ++ [⟨t.2.call, t.2.history, r⟩])) p.2.history := by
  have hlog : logOf (st.committed ++ [⟨t.2.call, t.2.history, r⟩]) =
    logOf st.committed ++ t.2.history := logOf_append _ _
  rw [hlog]
  refine ⟨hsound.locked, fun bucket policy hpolicy => ?_, fun bucket policy window startedAt pruned
    hpolicy hmem => ?_, hsound.ended, hsound.tells⟩
  · obtain hspares | hspares := spares_or hreach hp ht hne hsound hother bucket
    · rw [hspares.rowsOf_append, hspares.grantsOf_append]
      exact hother.keeps bucket policy hpolicy
    · rw [rowsOf_append, grantsOf_append, hspares.rowsOf_append, hspares.grantsOf_append,
        ← rowsOf_append, ← grantsOf_append]
      exact hsound.keeps bucket policy hpolicy
  · obtain hspares | hspares := spares_or hreach hp ht hne hsound hother bucket
    · exact absurd rfl (hspares _ hmem)
    · rw [hspares.grantsOf_append]
      exact hsound.pruned bucket policy window startedAt pruned hpolicy hmem

/-- What a sound claim commits is sound. -/
theorem IsSoundlyCommitted.commit (hcommitted : IsSoundlyCommitted configured clock committed)
    (hsound : IsSound configured clock (logOf committed) h) (call : Call) (r : RequestBudgetClaim) :
    IsSoundlyCommitted configured clock (committed ++ [⟨call, h, r⟩]) where
  keeps bucket policy hpolicy := by
    rw [logOf_append]
    exact hsound.keeps bucket policy hpolicy
  pruned := by
    intro before t hbefore bucket policy window startedAt pruned hpolicy hmem
    obtain heq | hbefore := List.prefix_concat_iff.mp hbefore
    · obtain ⟨rfl, ht⟩ := List.append_inj' heq rfl
      obtain rfl := List.head_eq_of_cons_eq ht
      exact hsound.pruned bucket policy window startedAt pruned hpolicy hmem
    · exact hcommitted.pruned before t hbefore bucket policy window startedAt pruned hpolicy hmem
  tells := List.forall_mem_append.mpr
    ⟨hcommitted.tells, fun t ht => List.mem_singleton.mp ht ▸ hsound.tells⟩

/-- **Every claim is sound**, and so is what is committed. -/
theorem isSound_of_reachable (hreach : (database hash configured).system.Reachable allowed st) :
    IsSoundlyCommitted configured st.clock st.committed ∧
      ∀ p ∈ st.running, IsSound configured st.clock (logOf st.committed) p.2.history := by
  refine Database.each_of_reachable
    (J := fun clock committed t => IsSound configured clock (logOf committed) t.history)
    (G := IsSoundlyCommitted configured) ?_ ?_ ?_ ?_ ?_ ?_ ?_ hreach
  · exact fun clock => ⟨fun _ _ _ => .nil, fun before t hbefore => by simp at hbefore,
      fun t ht => (nomatch ht)⟩
  · exact fun clock clock' committed hle hG =>
      ⟨fun bucket policy hpolicy => (hG.keeps bucket policy hpolicy).later hle, hG.pruned, hG.tells⟩
  · intro clock committed call hG
    refine ⟨fun bucket => .inl fun event hevent => (nomatch hevent), fun bucket policy hpolicy => ?_,
      fun _ _ _ _ _ _ hmem => (nomatch hmem), fun _ _ _ _ hmem => (nomatch hmem), .nil⟩
    rw [List.append_nil]
    exact hG.keeps bucket policy hpolicy
  · exact fun clock clock' committed t hle hJ => ⟨hJ.locked,
      fun bucket policy hpolicy => (hJ.keeps bucket policy hpolicy).later hle, hJ.pruned,
      fun bucket window startedAt pruned hmem =>
        (hJ.ended bucket window startedAt pruned hmem).trans hle, hJ.tells⟩
  · intro st session t query next answers hreach ht hrest hadmits _ hJ
    exact hJ.asks ht (mayAsk_of_reachable hreach ht hrest) hadmits.2
  · intro st p t r hreach ht hp hne hJp hJt
    exact hJp.commit hreach ht hp hne hJt r
  · intro clock committed t r hG hJ
    exact hG.commit hJ t.call r

/-! ### Budgets hold -/

/-- The claims of a bucket that are committed as granted, by the clock of their events. -/
def committedGrants (st : BudgetDatabaseState) (bucket : Bucket) : List ℤ :=
  st.committed.flatMap fun t => bif t.result.acquired then grantsOf bucket t.history else []

/-- What a claim has got: one event, and nothing else; or a refusal, which tells when a claim is
within the limit again, unless the bucket was claimed by another one just then. -/
def IsServed (configured : Configuration) (before : List CommittedClaim) (t : CommittedClaim) :
    Prop :=
  ∃ policy, policyOf configured t.call.bucket = some policy ∧
    ((t.result.acquired = true ∧ ∃ claimedAt, grantsOf t.call.bucket t.history = [claimedAt]) ∨
      (t.result.acquired = false ∧ (∀ bucket, grantsOf bucket t.history = []) ∧
        ∃ now, t.history.getLast? = some ⟨.clockTimestamp, now⟩ ∧
          IsDelayed policy (grantsOf t.call.bucket (logOf before)) now t.result.retryAfter) ∨
      (t.result = ⟨false, 1⟩ ∧ t.history = [⟨.tryAdvisoryLock t.call.bucket, false⟩]))

/-- **Budgets hold**: no half-open window has more claims than the limit, each claim is served, and
what is granted is what the events say. -/
structure BudgetsHold (configured : Configuration) (st : BudgetDatabaseState) : Prop where
  openLeft : ∀ bucket policy, policyOf configured bucket = some policy → ∀ start,
    ((committedGrants st bucket).filter fun claimedAt =>
      start < claimedAt ∧ claimedAt ≤ start + policy.window).length ≤ policy.limit
  openRight : ∀ bucket policy, policyOf configured bucket = some policy → ∀ start,
    ((committedGrants st bucket).filter fun claimedAt =>
      start ≤ claimedAt ∧ claimedAt < start + policy.window).length ≤ policy.limit
  served : ∀ before t, (before ++ [t]) <+: st.committed → IsServed configured before t

/-- A claim that has counted the events sees the last of its readings. -/
theorem HasCounted.le_reading {bucket : Bucket} {policy : Policy} {pruned : Pruned} {now : ℤ}
    (hcounted : HasCounted bucket policy pruned state [⟨.clockTimestamp, now⟩] h)
    (htells : Along Tells h) :
    pruned.endedAt ≤ now ∧ h.getLast? = some ⟨.clockTimestamp, now⟩ := by
  obtain ⟨lock, startedAt, hlock, rfl⟩ := hcounted
  refine ⟨?_, by simp [counting]⟩
  exact (htells (counting lock bucket policy startedAt pruned state) _ [] rfl).reads now rfl
    bucket policy.window startedAt pruned (by simp [counting])

/-- The claims that a history has granted before it has counted. -/
theorem HasCounted.grantsOf {bucket other : Bucket} {policy : Policy} {pruned : Pruned}
    (hcounted : HasCounted bucket policy pruned state rest h) :
    RequestBudget.grantsOf other h = RequestBudget.grantsOf other rest := by
  obtain ⟨lock, startedAt, hlock, rfl⟩ := hcounted
  rw [grantsOf_append]
  obtain rfl | rfl := hlock <;> simp [counting, RequestBudget.grantsOf, inserted]

section

variable (hreach : (database hash configured).system.Reachable allowed st)

include hreach

/-- **Each committed claim is served.** -/
theorem isServed_of_reachable {before : List CommittedClaim} {t : CommittedClaim}
    (hbefore : (before ++ [t]) <+: st.committed) :
    IsServed configured before t := by
  have hmem : t ∈ st.committed := hbefore.subset (by simp)
  obtain ⟨hcommitted, -⟩ := isSound_of_reachable hreach
  have htells := hcommitted.tells t hmem
  have hasked : HasAsked configured t.call t.history t.result := (safe_of_reachable hreach).2 t hmem
  obtain ⟨policy, hpolicy, ⟨hacquired, pruned, state, rest, claimedAt, hcounted, hrest⟩ |
    ⟨hrefused, pruned, state, now, hcounted, hfull, hretry⟩ | hcontended⟩ := hasked
  · refine ⟨policy, hpolicy, .inl ⟨hacquired, claimedAt, ?_⟩⟩
    rw [hcounted.grantsOf, grantsOf_append, (spares_of_clock hrest).grantsOf_eq_nil]
    simp [grantsOf, inserted]
  · refine ⟨policy, hpolicy, .inr (.inl ⟨hrefused, fun bucket => ?_, now, ?_, ?_⟩)⟩
    · rw [hcounted.grantsOf]
      rfl
    · exact (hcounted.le_reading htells).2
    · have hspares : Spares t.call.bucket [⟨.clockTimestamp, now⟩] :=
        spares_of_clock fun event hevent => List.mem_singleton.mp hevent ▸ rfl
      obtain ⟨rfl, -⟩ := hcounted.rowsOf [] htells hspares
      obtain ⟨startedAt, hdelete⟩ := hcounted.mem
      rw [hretry]
      exact isDelayed_retryAfter
        (hcommitted.pruned before t hbefore _ _ _ _ _ hpolicy hdelete)
        (hcounted.le_reading htells).1 hfull
  · exact ⟨policy, hpolicy, .inr (.inr hcontended)⟩

/-- What is committed as granted is what the events say. -/
theorem committedGrants_eq (bucket : Bucket) :
    committedGrants st bucket = grantsOf bucket (logOf st.committed) := by
  have hsame : ∀ t ∈ st.committed,
      (bif t.result.acquired then grantsOf bucket t.history else []) = grantsOf bucket t.history := by
    intro t ht
    have hasked : HasAsked configured t.call t.history t.result := (safe_of_reachable hreach).2 t ht
    obtain ⟨policy, -, ⟨hacquired, -⟩ | ⟨hrefused, pruned, state, now, hcounted, -⟩ |
      ⟨hresult, hhistory⟩⟩ := hasked
    · rw [hacquired]
      rfl
    · rw [hrefused, hcounted.grantsOf]
      rfl
    · rw [hresult, hhistory]
      rfl
  unfold committedGrants
  rw [List.flatMap_congr hsame, logOf, grantsOf, List.filterMap_flatMap]
  rfl

/-- The budgets hold in every run. -/
theorem budgetsHold_of_reachable :
    BudgetsHold configured st where
  openLeft bucket policy hpolicy start := by
    rw [committedGrants_eq hreach]
    exact ((isSound_of_reachable hreach).1.keeps bucket policy hpolicy).bounded.within_Ioc start
  openRight bucket policy hpolicy start := by
    rw [committedGrants_eq hreach]
    exact ((isSound_of_reachable hreach).1.keeps bucket policy hpolicy).bounded.within_Ico start
  served before t hbefore := isServed_of_reachable hreach hbefore

end

end Runs

/-! ### Acquiring -/

section Acquiring

variable {maxWaitMs : ℕ} {attempts : ℕ → Attempt} {abortsAt now waitedMs claims : ℕ}

/-- How the loop of `acquire` ends, from a moment before its signal is aborted: not later than a
claim under way takes to end after that, after no more claims than there are milliseconds to wait
and one; without an error only by a claim that is granted, after claims that are refused. -/
structure EndsWithin (maxWaitMs : ℕ) (attempts : ℕ → Attempt) (abortsAt waitedMs claims : ℕ)
    (acquisition : Acquisition) : Prop where
  claimed : claims < acquisition.claims
  inTime : acquisition.endsAt ≤ abortsAt + (attempts (acquisition.claims - 1)).ending
  few : acquisition.claims ≤ claims + (maxWaitMs - waitedMs) + 1
  refused : ∀ i, claims ≤ i → i + 1 < acquisition.claims → ∃ claim, (attempts i).outcome = some claim ∧
    claim.acquired = false
  granted : acquisition.outcome = .ok () →
    ∃ claim, (attempts (acquisition.claims - 1)).outcome = some claim ∧ claim.acquired = true
  delayed : (∀ i claim, (attempts i).outcome = some claim → claim.acquired = false →
    1 ≤ claim.retryAfter) → acquisition.outcome ≠ .error .invalidRetryDelay

theorem outcome_of_outcome? {attempt : Attempt} {claim : RequestBudgetClaim}
    (h : attempt.outcome? abortsAt now = some claim) : attempt.outcome = some claim :=
  (Option.ite_none_right_eq_some.mp h).2

/-- A loop that ends with the claim it has just made. -/
theorem EndsWithin.ends {outcome : Except AcquireError Unit} {endsAt : ℕ}
    (hendsAt : endsAt ≤ abortsAt + (attempts claims).ending)
    (hgranted : outcome = .ok () →
      ∃ claim, (attempts claims).outcome = some claim ∧ claim.acquired = true)
    (hdelayed : (∀ i claim, (attempts i).outcome = some claim → claim.acquired = false →
      1 ≤ claim.retryAfter) → outcome ≠ .error .invalidRetryDelay) :
    EndsWithin maxWaitMs attempts abortsAt waitedMs claims ⟨endsAt, claims + 1, outcome⟩ where
  claimed := Nat.lt_succ_self claims
  inTime := hendsAt
  few := by simp
  refused i hle hlt := by
    simp only at hlt
    omega
  granted := hgranted
  delayed := hdelayed

/-- **The loop ends in time.**

**Proof sketch.** Induction on what is left to wait. A claim that is refused is followed by a wait
of a millisecond or more, and no wait lasts longer than until the signal is aborted. -/
theorem endsWithin_acquireWithinBudget (h : now < abortsAt) :
    EndsWithin maxWaitMs attempts abortsAt waitedMs claims
      (acquireWithinBudget maxWaitMs attempts abortsAt now waitedMs claims) := by
  induction hn : maxWaitMs - waitedMs using Nat.strong_induction_on generalizing now waitedMs claims
    with
  | _ n ih =>
    have hended : (attempts claims).endsAt abortsAt now ≤ abortsAt + (attempts claims).ending :=
      min_le_right _ _
    rw [acquireWithinBudget, if_neg (not_le.mpr h)]
    dsimp only
    split
    case h_1 hnone =>
      refine .ends hended (fun hok => by cases hok) fun _ => ?_
      split_ifs <;> simp
    case h_2 claim hclaim =>
      have houtcome := outcome_of_outcome? hclaim
      by_cases hacquired : claim.acquired = true
      · rw [if_pos hacquired]
        exact .ends hended (fun _ => ⟨claim, houtcome, hacquired⟩) fun _ => by simp
      rw [if_neg hacquired]
      by_cases hretry : claim.retryAfter < 1
      · rw [dif_pos hretry]
        refine .ends hended (fun hok => by cases hok) fun hpositive => ?_
        have := hpositive claims claim houtcome (Bool.eq_false_iff.mpr hacquired)
        omega
      rw [dif_neg hretry]
      by_cases hremaining : maxWaitMs ≤ waitedMs
      · rw [dif_pos hremaining]
        exact .ends hended (fun hok => by cases hok) fun _ => by simp
      rw [dif_neg hremaining]
      split_ifs with hwoken
      · -- the wait is over before the signal is aborted
        have hrest : EndsWithin maxWaitMs attempts abortsAt
            (waitedMs + min claim.retryAfter.toNat (maxWaitMs - waitedMs)) (claims + 1) _ :=
          ih _ (by omega) hwoken rfl
        refine ⟨(Nat.lt_succ_self claims).trans hrest.claimed, hrest.inTime, ?_, ?_, hrest.granted,
          hrest.delayed⟩
        · have := hrest.few
          omega
        · intro i hle hlt
          obtain rfl | hne := Nat.eq_or_lt_of_le hle
          · exact ⟨claim, houtcome, Bool.eq_false_iff.mpr hacquired⟩
          · exact hrest.refused i hne hlt
      · refine .ends ?_ (fun hok => by cases hok) fun _ => by simp
        exact max_le hended (Nat.le_add_right _ _)

/-- **How `acquire` ends**: once its deadline, or the caller, has aborted it, as soon as the claim
that is under way has ended; with a granted claim, before its deadline, or with an error. -/
structure EndsInTime (budget : ProviderRequestBudget) (attempts : ℕ → Attempt)
    (acquisition : Acquisition) : Prop where
  inTime : acquisition.endsAt ≤ milliseconds budget.options.maxWaitMs +
    (attempts (acquisition.claims - 1)).ending
  few : acquisition.claims ≤ budget.options.maxWaitMs + 1
  granted : acquisition.outcome = .ok () →
    acquisition.endsAt < milliseconds budget.options.maxWaitMs ∧
      ∃ last claim, acquisition.claims = last + 1 ∧ (attempts last).outcome = some claim ∧
        claim.acquired = true ∧ ∀ i < last, ∃ claim, (attempts i).outcome = some claim ∧
          claim.acquired = false
  delayed : (∀ i claim, (attempts i).outcome = some claim → claim.acquired = false →
    1 ≤ claim.retryAfter) → acquisition.outcome ≠ .error .invalidRetryDelay

/-- The loop of `acquire` ends in time. -/
theorem endsInTime_acquire (budget : ProviderRequestBudget) (attempts : ℕ → Attempt)
    (abortedAt : Option ℕ) : EndsInTime budget attempts (acquire budget attempts abortedAt) := by
  unfold acquire
  set deadline := milliseconds budget.options.maxWaitMs with hdeadline
  have hpos : 0 < deadline := by
    have := budget.valid.maxWaitMs.1
    simp only [hdeadline, milliseconds]
    omega
  dsimp only
  by_cases hcancelled : (abortedAt.any fun moment => moment ≤ 0) = true
  · rw [if_pos hcancelled]
    exact ⟨Nat.zero_le _, Nat.zero_le _, (fun hok => by cases hok), fun _ => by simp⟩
  rw [if_neg hcancelled]
  set abortsAt := abortedAt.elim deadline fun moment => min moment deadline with habortsAt
  have hle : abortsAt ≤ deadline := by
    cases abortedAt with
    | none => exact le_refl _
    | some moment => exact min_le_right _ _
  have hlt : 0 < abortsAt := by
    cases abortedAt with
    | none => exact hpos
    | some moment =>
      refine lt_min ?_ hpos
      simpa [Nat.pos_iff_ne_zero] using hcancelled
  have hends : EndsWithin budget.options.maxWaitMs attempts abortsAt 0 0
      (acquireWithinBudget budget.options.maxWaitMs attempts abortsAt 0 0 0) :=
    endsWithin_acquireWithinBudget hlt
  set acquisition := acquireWithinBudget budget.options.maxWaitMs attempts abortsAt 0 0 0
  refine ⟨hends.inTime.trans (Nat.add_le_add_right hle _), by simpa using hends.few, ?_, ?_⟩
  · intro hok
    simp only at hok
    split_ifs at hok with hnow hlate
    obtain ⟨claim, houtcome, hacquired⟩ := hends.granted hok
    have hclaimed := hends.claimed
    refine ⟨not_le.mp hlate, acquisition.claims - 1, claim, (Nat.succ_pred_eq_of_pos hclaimed).symm,
      houtcome, hacquired, fun i hi => hends.refused i (Nat.zero_le i) (by omega)⟩
  · intro hpositive
    dsimp only
    split_ifs
    · simp
    · simp
    · exact hends.delayed hpositive

end Acquiring

/-- **Request budgets hold** in every run: over any interleaving of claims, and for whatever happens
to the claims that `acquire` makes. -/
theorem requestBudgets_hold {configured : Configuration} {hash : KeyHash} {st : BudgetDatabaseState}
    (hreach : (database hash configured).system.Reachable (fun _ _ => True) st) :
    BudgetsHold configured st ∧ ∀ budget attempts abortedAt,
      EndsInTime budget attempts (acquire budget attempts abortedAt) :=
  ⟨budgetsHold_of_reachable hreach, endsInTime_acquire⟩

/-! ### A run -/

/-- All buckets are hashed to one number. -/
def oneHash : KeyHash := fun _ => 0

/-- One request in a millisecond. -/
def oneInAMillisecond : ProviderRequestBudgetOptions where
  providerKey := js "kassalapp"
  limit := 1
  windowMs := 1
  maxWaitMs := 1

theorem valid_oneInAMillisecond : oneInAMillisecond.Valid where
  providerKey := by decide
  limit := by decide
  windowMs := by decide
  maxWaitMs := by decide

/-- All providers have that budget. -/
def slow : Configuration := fun _ => ⟨oneInAMillisecond, valid_oneInAMillisecond⟩

/-- Nothing is claimed yet. -/
def noClaim : BudgetDatabaseState where
  clock := 1000
  running := []
  committed := []

/-- What the database answers at a clock, when some events are left. -/
def reply (now : ℤ) (kept : List ℤ) : (query : Query) → Answer query
  | .advisoryLock _ => ()
  | .tryAdvisoryLock _ => true
  | .clockTimestamp => now
  | .deleteExpired _ _ _ => Pruned.mk kept now
  | .selectState _ => stateOf kept
  | .insertEvent _ => now

/-- One process claims a request, and another one half a millisecond later. -/
def claimsTwice : List (Step ℕ Call Query Answer) :=
  .begins 1 (.provider (js "kassalapp")) :: .begins 2 (.provider (js "kassalapp")) ::
    List.replicate 7 (.proceeds 1 (reply 1000 [])) ++
    .elapses 500 :: List.replicate 6 (.proceeds 2 (reply 1500 [1000]))

/-- The claim that is granted in that run. -/
def grantedClaim : CommittedClaim where
  call := .provider (js "kassalapp")
  history := counting ⟨.advisoryLock (.provider (js "kassalapp")), ()⟩ (.provider (js "kassalapp"))
    (slow (js "kassalapp")).policy 1000 ⟨[], 1000⟩ ⟨0, none⟩ ++
      [⟨.clockTimestamp, (1000 : ℤ)⟩, ⟨.insertEvent (.provider (js "kassalapp")), (1000 : ℤ)⟩]
  result := ⟨true, 0⟩

/-- The claim that is refused. -/
def refusedClaim : CommittedClaim where
  call := .provider (js "kassalapp")
  history := counting ⟨.advisoryLock (.provider (js "kassalapp")), ()⟩ (.provider (js "kassalapp"))
    (slow (js "kassalapp")).policy 1500 ⟨[1000], 1500⟩ ⟨1, some 1000⟩ ++
      [⟨.clockTimestamp, (1500 : ℤ)⟩]
  result := ⟨false, 1⟩

theorem committed_claimsTwice : ((database oneHash slow).system.run noClaim claimsTwice).map
    (fun st => st.committed) = some [grantedClaim, refusedClaim] := by
  rfl

/-- In that run one claim is granted and one refused. -/
theorem requestBudgets_hold_claimsTwice :
    ∃ st, (database oneHash slow).system.run noClaim claimsTwice = some st ∧
      (st.committed.map fun t => t.result) = [⟨true, 0⟩, ⟨false, 1⟩] ∧
      BudgetsHold slow st ∧ ∀ budget attempts abortedAt,
        EndsInTime budget attempts (acquire budget attempts abortedAt) := by
  obtain ⟨st, hst, hcommitted⟩ := Option.map_eq_some_iff.mp committed_claimsTwice
  have hinit : (database oneHash slow).system.Reachable (fun _ _ => True) noClaim := .init ⟨rfl, rfl⟩
  exact ⟨st, hst, hcommitted ▸ rfl, requestBudgets_hold (hinit.run hst)⟩

/-- That a claim which is refused is told to retry no later than a claim is within the limit. -/
def DelaysAreShort (configured : Configuration) (st : BudgetDatabaseState) : Prop :=
  ∀ before t policy, (before ++ [t]) <+: st.committed → policyOf configured t.call.bucket = some policy →
    t.result.acquired = false → 1 ≤ t.result.retryAfter ∧
      ∀ now, t.history.getLast? = some ⟨.clockTimestamp, now⟩ →
        ∀ moment, now ≤ moment → moment < now + t.result.retryAfter * policy.unit →
          ¬ IsFree policy.limit policy.window (grantsOf t.call.bucket (logOf before)) moment

/-- **A delay is rounded up**: half a millisecond after a request there is room for the next one
after half a millisecond, but the delay is a whole one. -/
theorem not_delaysAreShort : ¬ ∀ st, (database oneHash slow).system.Reachable (fun _ _ => True) st →
    DelaysAreShort slow st := by
  intro hall
  obtain ⟨st, hst, hcommitted⟩ := Option.map_eq_some_iff.mp committed_claimsTwice
  have hinit : (database oneHash slow).system.Reachable (fun _ _ => True) noClaim := .init ⟨rfl, rfl⟩
  have hbefore : ([grantedClaim] ++ [refusedClaim]) <+: st.committed := hcommitted ▸ List.prefix_rfl
  obtain ⟨-, hshort⟩ := hall st (hinit.run hst) _ _ _ hbefore rfl rfl
  exact hshort 1500 rfl 2000 (by decide) (by decide) (by decide)

/-- A claim that lasts two milliseconds, and ends half a millisecond after it is aborted. -/
def slowAttempt : Attempt := ⟨none, 2000, 500, 0⟩

/-- **The claim that is under way is awaited**, so `acquire` can end after its deadline. -/
theorem not_acquire_endsAt_le : ¬ ∀ budget attempts abortedAt,
    (acquire budget attempts abortedAt).endsAt ≤ milliseconds budget.options.maxWaitMs := by
  intro hall
  have hlate := hall ⟨oneInAMillisecond, valid_oneInAMillisecond⟩ (fun _ => slowAttempt) none
  have hends : (acquire ⟨oneInAMillisecond, valid_oneInAMillisecond⟩ (fun _ => slowAttempt)
      none).endsAt = 1500 := by
    unfold acquire acquireWithinBudget
    rfl
  rw [hends] at hlate
  exact absurd hlate (by decide)

end Handleplan.RequestBudget
