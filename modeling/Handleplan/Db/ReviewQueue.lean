import Mathlib.Data.Prod.Lex
import Handleplan.Domain.Primitives
import Handleplan.Lib.Keyset
import Handleplan.Lib.Sorting

/-!
# The private review queue

Candidates wait for a private review in a queue that is read page by page. The database function
`private_review_candidate_rows_v1` selects, orders and limits the rows; the repository asks for one
row more than a page holds and names the last visible row as the cursor of the next page.

## Main definitions

* `ReviewQueue.privateReviewCandidateRowsV1` — the rows of one read.
* `ReviewQueue.encodeCursor`, `decodeCursor` — the cursor and the position it stands for.
* `ReviewQueue.list` — one page of the queue.
* `ReviewQueue.Shown` — a finite walk over the pages shows every matching candidate
  exactly once and in order.

## Main results

* `ReviewQueue.list_eq_page` — a page of the queue is a keyset page of the matching
  candidates.
* `ReviewQueue.shown_iff_cuts_on_milliseconds` — when the queue is shown completely.

## Design

Database times are microseconds since the epoch, as `timestamptz` keeps them; a `Date` counts
milliseconds. The cursor is its payload: its JSON and base64url text keeps both fields. The part of
the database predicate that does not look at the request (rights, scope, permission and extraction
state) is what makes a row reviewable, so that the rows of a `ReviewableQueue` are those it admits.
-/

namespace Handleplan.ReviewQueue

/-! ### Rows and requests -/

/-- `scopeKindSchema`. -/
inductive ScopeKind where
  | national | region | postalSet | storeSet
  deriving DecidableEq

/-- `officialOfferAnomalyCodeSchema`. -/
inductive OfficialOfferAnomalyCode where
  | ambiguousProduct | beforePriceBelowOffer | duplicateCandidateKey | duplicateOffer
  | extractorAnomaly | layoutDrift | ocrReviewRequired | packageUnknown | schemaDrift
  | scopeMismatch | unexpectedEmpty | unknownScope | unmatchedProduct | unreadableDate
  | validityOutsideEdition
  deriving DecidableEq

/-- `CandidateRow`, the columns a read filters, orders and continues by. -/
structure CandidateRow where
  anomalyCodes : List OfficialOfferAnomalyCode
  /-- In microseconds. -/
  candidateCreatedAt : ℤ
  candidateId : ℕ
  chain : Chain
  confidence : ℕ
  scopeKind : ScopeKind
  deriving DecidableEq

/-- The parameters of `private_review_candidate_rows_v1`; times in microseconds. -/
structure CandidateRowsRequest where
  candidateId : Option ℕ
  evaluationAsOf : ℤ
  chain : Option Chain
  scopeKind : Option ScopeKind
  minConfidence : Option ℕ
  maxConfidence : Option ℕ
  minAgeHours : Option ℕ
  maxAgeHours : Option ℕ
  anomaly : Option OfficialOfferAnomalyCode
  cursorCreatedAt : Option ℤ
  cursorId : Option ℕ
  resultLimit : ℕ

/-- An optional range of `reviewQueueFiltersV1Schema`. -/
structure BoundedRange where
  max : Option ℕ
  min : Option ℕ

/-- `CursorPayload`; the time in milliseconds. -/
structure CursorPayload where
  createdAt : ℤ
  id : ℕ
  deriving DecidableEq

/-- `ReviewQueueFiltersV1`. -/
structure ReviewQueueFilters where
  ageHours : Option BoundedRange
  anomaly : Option OfficialOfferAnomalyCode
  chain : Option Chain
  confidence : Option BoundedRange
  cursor : Option CursorPayload
  limit : ℕ
  scopeKind : Option ScopeKind

/-- `REVIEW_QUEUE_LIMIT_MAX`. -/
def reviewQueueLimitMax : ℕ := 50

/-- `boundedRangeSchema`. -/
def BoundedRangeSchema (maximum : ℕ) (r : BoundedRange) : Prop :=
  (∀ n ∈ r.max, n ≤ maximum) ∧ (∀ n ∈ r.min, n ≤ maximum) ∧ ∀ n ∈ r.max, ∀ m ∈ r.min, m ≤ n

instance (maximum : ℕ) : DecidablePred (BoundedRangeSchema maximum) :=
  fun _ => inferInstanceAs (Decidable (_ ∧ _ ∧ _))

/-- `reviewQueueFiltersV1Schema`. -/
@[mk_iff] structure ReviewQueueFiltersV1Schema (f : ReviewQueueFilters) : Prop where
  ageHours : ∀ r ∈ f.ageHours, BoundedRangeSchema (24 * 90) r
  confidence : ∀ r ∈ f.confidence, BoundedRangeSchema 100 r
  limit : 1 ≤ f.limit ∧ f.limit ≤ reviewQueueLimitMax

instance : DecidablePred ReviewQueueFiltersV1Schema :=
  fun _ => decidable_of_iff' _ (reviewQueueFiltersV1Schema_iff _)

/-! ### The database read -/

/-- The requests `private_review_candidate_rows_v1` does not reject. -/
@[mk_iff] structure ValidReadRequest (databaseNow : ℤ) (p : CandidateRowsRequest) : Prop where
  evaluationAsOf : p.evaluationAsOf ≤ databaseNow + 5000000
  resultLimit : 1 ≤ p.resultLimit ∧ p.resultLimit ≤ 51
  candidateId : ∀ id ∈ p.candidateId, 1 ≤ id ∧ id ≤ maxSafeInteger
  cursorId : ∀ id ∈ p.cursorId, 1 ≤ id ∧ id ≤ maxSafeInteger
  cursor : p.cursorCreatedAt.isNone = p.cursorId.isNone
  chain : ∀ c ∈ p.chain, c ∈ [Chain.bunnpris, .extra, .rema1000]
  minConfidence : ∀ n ∈ p.minConfidence, n ≤ 100
  maxConfidence : ∀ n ∈ p.maxConfidence, n ≤ 100
  confidence : ∀ m ∈ p.minConfidence, ∀ n ∈ p.maxConfidence, m ≤ n
  minAgeHours : ∀ n ∈ p.minAgeHours, n ≤ 2160
  maxAgeHours : ∀ n ∈ p.maxAgeHours, n ≤ 2160
  ageHours : ∀ m ∈ p.minAgeHours, ∀ n ∈ p.maxAgeHours, m ≤ n

instance (databaseNow : ℤ) : DecidablePred (ValidReadRequest databaseNow) :=
  fun _ => decidable_of_iff' _ (validReadRequest_iff _ _)

/-- `n * interval '1 hour'`, in microseconds. -/
def hours (n : ℕ) : ℤ := n * 3600000000

/-- The conditions of the read that look at the request but not at the cursor. -/
@[mk_iff] structure MatchesRequest (p : CandidateRowsRequest) (row : CandidateRow) : Prop where
  createdAt : row.candidateCreatedAt ≤ p.evaluationAsOf
  candidateId : ∀ id ∈ p.candidateId, row.candidateId = id
  chain : ∀ c ∈ p.chain, row.chain = c
  scopeKind : ∀ k ∈ p.scopeKind, row.scopeKind = k
  minConfidence : ∀ n ∈ p.minConfidence, n ≤ row.confidence
  maxConfidence : ∀ n ∈ p.maxConfidence, row.confidence ≤ n
  minAgeHours : ∀ n ∈ p.minAgeHours, row.candidateCreatedAt ≤ p.evaluationAsOf - hours n
  maxAgeHours : ∀ n ∈ p.maxAgeHours, p.evaluationAsOf - hours n ≤ row.candidateCreatedAt
  anomaly : ∀ code ∈ p.anomaly, code ∈ row.anomalyCodes

instance (p : CandidateRowsRequest) : DecidablePred (MatchesRequest p) :=
  fun _ => decidable_of_iff' _ (matchesRequest_iff _ _)

/-- The condition of the read on the cursor. -/
def BeyondCursor (p : CandidateRowsRequest) (row : CandidateRow) : Prop :=
  match p.cursorCreatedAt, p.cursorId with
  | some createdAt, some id =>
    createdAt < row.candidateCreatedAt ∨
      row.candidateCreatedAt = createdAt ∧ id < row.candidateId
  | _, _ => True

instance (p : CandidateRowsRequest) : DecidablePred (BeyondCursor p) := fun row => by
  unfold BeyondCursor
  split <;> infer_instance

/-- `order by candidate.created_at, candidate.id`. -/
def orderRows : CandidateRow → CandidateRow → Ordering :=
  compareLex (compareOn (·.candidateCreatedAt)) (compareOn (·.candidateId))

instance : Std.TransCmp orderRows := inferInstanceAs (Std.TransCmp (compareLex _ _))

/-- `private_review_candidate_rows_v1`, on the reviewable rows; `none` is the exception
`HP_REVIEW_INVALID_READ_REQUEST`. -/
def privateReviewCandidateRowsV1 (databaseNow : ℤ) (reviewable : List CandidateRow)
    (p : CandidateRowsRequest) : Option (List CandidateRow) :=
  if ValidReadRequest databaseNow p then
    some ((Sorting.sortBy orderRows
      (reviewable.filter fun row => MatchesRequest p row ∧ BeyondCursor p row)).take p.resultLimit)
  else none

/-! ### The repository -/

/-- `encodeCursor`: the creation time goes through a `Date`, which keeps milliseconds. -/
def encodeCursor (row : CandidateRow) : CursorPayload where
  createdAt := row.candidateCreatedAt / 1000
  id := row.candidateId

/-- The request `list` sends for filters evaluated at an instant in milliseconds. -/
def rowsRequest (filters : ReviewQueueFilters) (asOf : ℤ) : CandidateRowsRequest where
  candidateId := none
  evaluationAsOf := asOf * 1000
  chain := filters.chain
  scopeKind := filters.scopeKind
  minConfidence := filters.confidence.bind (·.min)
  maxConfidence := filters.confidence.bind (·.max)
  minAgeHours := filters.ageHours.bind (·.min)
  maxAgeHours := filters.ageHours.bind (·.max)
  anomaly := filters.anomaly
  cursorCreatedAt := filters.cursor.map (·.createdAt * 1000)
  cursorId := filters.cursor.map (·.id)
  resultLimit := filters.limit + 1

/-- How `list` fails: the filters do not parse, the database rejects the read, or a row cannot be
presented (`CORRUPT_RECORD`). -/
inductive ListError where
  | invalidFilters | invalidReadRequest | corruptRecord

section Queue

variable (presentable : CandidateRow → Bool)

/-- `PostgresReviewQueueRepository.list`: one page of the queue. `presentable` says whether
`queueCandidate` presents a row; each item stands for the projection it makes of the row. -/
def list (databaseNow : ℤ) (reviewable : List CandidateRow) (filters : ReviewQueueFilters)
    (asOf : ℤ) : Except ListError (Keyset.Page CandidateRow CursorPayload) :=
  if ¬ ReviewQueueFiltersV1Schema filters then .error .invalidFilters
  else
    match privateReviewCandidateRowsV1 databaseNow reviewable (rowsRequest filters asOf) with
    | none => .error .invalidReadRequest
    | some rows =>
      let hasMore := filters.limit < rows.length
      let visibleRows := rows.take filters.limit
      if visibleRows.all presentable && (visibleRows.map (·.candidateId)).Nodup then
        .ok { items := visibleRows
              next := if hasMore then visibleRows.getLast?.map encodeCursor else none }
      else .error .corruptRecord

/-- The rows of a queue: their identities are distinct safe integers and each can be presented. -/
structure ReviewableQueue where
  rows : List CandidateRow
  nodup : (rows.map (·.candidateId)).Nodup
  safe : ∀ row ∈ rows, 1 ≤ row.candidateId ∧ row.candidateId ≤ maxSafeInteger
  presentable : ∀ row ∈ rows, presentable row = true

end Queue

/-- The matching candidates in the order of the queue. -/
def matching (reviewable : List CandidateRow) (filters : ReviewQueueFilters) (asOf : ℤ) :
    List CandidateRow :=
  Sorting.sortBy orderRows
    (reviewable.filter fun row => MatchesRequest (rowsRequest filters asOf) row)

/-- The position `(created_at, id)` of a row in the queue. -/
def position (row : CandidateRow) : ℤ ×ₗ ℕ := toLex (row.candidateCreatedAt, row.candidateId)

/-- The position a cursor stands for: the database reads its time as full milliseconds. -/
def decodeCursor (c : CursorPayload) : ℤ ×ₗ ℕ := toLex (c.createdAt * 1000, c.id)

/-! ### A page of the queue is a keyset page -/

theorem orderRows_isLE_iff {a b : CandidateRow} :
    (orderRows a b).isLE = true ↔ position a ≤ position b := by
  simp only [orderRows, position, compareLex, compareOn, Prod.Lex.toLex_le_toLex]
  rcases lt_trichotomy a.candidateCreatedAt b.candidateCreatedAt with h | h | h
  · simp [compare_lt_iff_lt.mpr h, h]
  · simp [h, Std.isLE_compare]
  · simp [compare_gt_iff_gt.mpr h, h.not_gt, h.ne']

theorem orderRows_eq_iff {a b : CandidateRow} : orderRows a b = .eq ↔ position a = position b := by
  rw [le_antisymm_iff (a := position a), ← orderRows_isLE_iff, ← orderRows_isLE_iff]
  refine ⟨fun h => ?_, fun h => Std.OrientedCmp.isLE_antisymm h.1 h.2⟩
  rw [h, Std.OrientedCmp.eq_symm h]
  exact ⟨rfl, rfl⟩

/-- Rows of a queue are told apart by their position. -/
theorem eq_of_orderRows_eq {rows : List CandidateRow} (h : (rows.map (·.candidateId)).Nodup) :
    ∀ a ∈ rows, ∀ b ∈ rows, orderRows a b = .eq → a = b := by
  intro a ha b hb hab
  refine List.inj_on_of_nodup_map h ha hb ?_
  exact (Prod.mk.inj (toLex.injective (orderRows_eq_iff.mp hab))).2

variable {reviewable : List CandidateRow} {filters : ReviewQueueFilters} {asOf databaseNow : ℤ}
  {c : Option CursorPayload}

theorem nodup_ids_matching (h : (reviewable.map (·.candidateId)).Nodup)
    (filters : ReviewQueueFilters) (asOf : ℤ) :
    ((matching reviewable filters asOf).map (·.candidateId)).Nodup := by
  refine ((Sorting.sortBy_perm orderRows _).map _).nodup_iff.mpr (h.sublist ?_)
  exact List.filter_sublist.map _

theorem mem_matching {row : CandidateRow} : row ∈ matching reviewable filters asOf ↔
      row ∈ reviewable ∧ MatchesRequest (rowsRequest filters asOf) row := by
  simp [matching, List.mem_filter]

/-- The matching candidates stand in strictly increasing position. -/
theorem pairwise_matching (h : (reviewable.map (·.candidateId)).Nodup)
    (filters : ReviewQueueFilters) (asOf : ℤ) :
    (matching reviewable filters asOf).Pairwise fun a b => position a < position b := by
  have hle : (matching reviewable filters asOf).Pairwise fun a b => (orderRows a b).isLE = true :=
    Sorting.pairwise_sortBy _ _
  have hne := List.pairwise_map.mp (nodup_ids_matching h filters asOf)
  refine (hle.and hne).imp fun {a b} hab => ?_
  refine lt_of_le_of_ne (orderRows_isLE_iff.mp hab.1) fun heq => hab.2 ?_
  exact (Prod.mk.inj (toLex.injective heq)).2

theorem matchesRequest_cursor (filters : ReviewQueueFilters) (asOf : ℤ)
    (c : Option CursorPayload) (row : CandidateRow) :
    MatchesRequest (rowsRequest { filters with cursor := c } asOf) row ↔
      MatchesRequest (rowsRequest filters asOf) row := by
  rw [matchesRequest_iff, matchesRequest_iff]
  rfl

theorem beyondCursor_some (filters : ReviewQueueFilters) (asOf : ℤ) (c : CursorPayload)
    (row : CandidateRow) :
    BeyondCursor (rowsRequest { filters with cursor := some c } asOf) row ↔
      decodeCursor c < position row := by
  simp [BeyondCursor, rowsRequest, decodeCursor, position, Prod.Lex.toLex_lt_toLex, eq_comm]

/-- The rows of a read are the matching candidates beyond its cursor, in order. -/
theorem sortBy_filter_rows (h : (reviewable.map (·.candidateId)).Nodup)
    (filters : ReviewQueueFilters) (asOf : ℤ) (c : Option CursorPayload) :
    Sorting.sortBy orderRows (reviewable.filter fun row =>
        MatchesRequest (rowsRequest { filters with cursor := c } asOf) row ∧
          BeyondCursor (rowsRequest { filters with cursor := c } asOf) row) =
      Keyset.after position decodeCursor (matching reviewable filters asOf) c := by
  cases c with
  | none =>
    have hall : ∀ row,
        (MatchesRequest (rowsRequest { filters with cursor := none } asOf) row ∧
          BeyondCursor (rowsRequest { filters with cursor := none } asOf) row) =
        MatchesRequest (rowsRequest filters asOf) row := fun row =>
      propext ((and_iff_left trivial).trans (matchesRequest_cursor filters asOf none row))
    simp only [hall]
    rfl
  | some c =>
    have hsplit : (reviewable.filter fun row =>
        MatchesRequest (rowsRequest { filters with cursor := some c } asOf) row ∧
          BeyondCursor (rowsRequest { filters with cursor := some c } asOf) row) =
        (reviewable.filter fun row => MatchesRequest (rowsRequest filters asOf) row).filter
          fun row => decide (decodeCursor c < position row) := by
      rw [List.filter_filter]
      refine List.filter_congr fun row _ => ?_
      simp [matchesRequest_cursor, beyondCursor_some, and_comm]
    rw [hsplit, Sorting.sortBy_filter]
    · rfl
    · exact eq_of_orderRows_eq (h.sublist (List.filter_sublist.map _))

theorem validReadRequest_cursor
    (h : ValidReadRequest databaseNow (rowsRequest { filters with cursor := none } asOf))
    (hc : ∀ p ∈ c, 1 ≤ p.id ∧ p.id ≤ maxSafeInteger) :
    ValidReadRequest databaseNow (rowsRequest { filters with cursor := c } asOf) := by
  rw [validReadRequest_iff] at h ⊢
  obtain ⟨h₁, h₂, h₃, -, -, hrest⟩ := h
  refine ⟨h₁, h₂, h₃, ?_, ?_, hrest⟩
  · intro id hid
    obtain ⟨p, hp, rfl⟩ := Option.mem_map.mp hid
    exact hc p hp
  · cases c <;> rfl

/-- A cursor the walk can meet: none, or that of a row of the queue. -/
def CursorOf (reviewable : List CandidateRow) (c : Option CursorPayload) : Prop :=
  ∀ p ∈ c, ∃ row ∈ reviewable, p = encodeCursor row

variable {presentable : CandidateRow → Bool}

/-- **A page of the queue** is a keyset page of the matching candidates. -/
theorem list_eq_page (queue : ReviewableQueue presentable)
    (hfilters : ReviewQueueFiltersV1Schema filters)
    (hvalid : ValidReadRequest databaseNow (rowsRequest { filters with cursor := none } asOf))
    (hc : CursorOf queue.rows c) :
    list presentable databaseNow queue.rows { filters with cursor := c } asOf =
      .ok (Keyset.page position decodeCursor encodeCursor filters.limit
        (matching queue.rows filters asOf) c) := by
  have hschema : ReviewQueueFiltersV1Schema { filters with cursor := c } :=
    ⟨hfilters.ageHours, hfilters.confidence, hfilters.limit⟩
  have hread : ValidReadRequest databaseNow (rowsRequest { filters with cursor := c } asOf) := by
    refine validReadRequest_cursor hvalid fun p hp => ?_
    obtain ⟨row, hrow, rfl⟩ := hc p hp
    exact queue.safe row hrow
  have hrows : privateReviewCandidateRowsV1 databaseNow queue.rows
      (rowsRequest { filters with cursor := c } asOf) =
        some ((Keyset.after position decodeCursor (matching queue.rows filters asOf) c).take
          (filters.limit + 1)) := by
    rw [privateReviewCandidateRowsV1, if_pos hread, sortBy_filter_rows queue.nodup]
    rfl
  have hsub : (((Keyset.after position decodeCursor (matching queue.rows filters asOf) c).take
      (filters.limit + 1)).take filters.limit).Sublist (matching queue.rows filters asOf) :=
    (List.take_sublist _ _).trans ((List.take_sublist _ _).trans (Keyset.after_sublist _ c))
  unfold list
  rw [if_neg (not_not.mpr hschema), hrows]
  dsimp only
  rw [if_pos]
  · rfl
  · refine Bool.and_eq_true_iff.mpr ⟨List.all_eq_true.mpr fun row hrow => ?_, decide_eq_true ?_⟩
    · exact queue.presentable row (mem_matching.mp (hsub.subset hrow)).1
    · exact (nodup_ids_matching queue.nodup filters asOf).sublist (hsub.map _)

/-! ### Walking through the queue -/

/-- The reads of a walk: one page for each cursor. -/
def readPage (presentable : CandidateRow → Bool) (databaseNow : ℤ) (reviewable : List CandidateRow)
    (filters : ReviewQueueFilters) (asOf : ℤ) (c : Option CursorPayload) :
    Option (Keyset.Page CandidateRow CursorPayload) :=
  (list presentable databaseNow reviewable { filters with cursor := c } asOf).toOption

/-- The queue is shown completely: starting without a cursor and following the cursors ends, and
the pages list every matching candidate exactly once in strictly increasing position. -/
def Shown (presentable : CandidateRow → Bool) (databaseNow : ℤ) (reviewable : List CandidateRow)
    (filters : ReviewQueueFilters) (asOf : ℤ) : Prop :=
  ∃ pages, Keyset.Walk (readPage presentable databaseNow reviewable filters asOf) none pages ∧
    pages.flatten.Pairwise (fun a b => position a < position b) ∧
    ∀ row, row ∈ pages.flatten ↔
      row ∈ reviewable ∧ MatchesRequest (rowsRequest filters asOf) row

/-- The cursors of a walk are those of rows of the queue. -/
theorem cursorOf_next {d : CursorPayload}
    (h : (Keyset.page position decodeCursor encodeCursor filters.limit
      (matching reviewable filters asOf) c).next = some d) :
    CursorOf reviewable (some d) := by
  rintro p ⟨⟩
  obtain ⟨row, hrow, rfl⟩ := Keyset.mem_of_page_next h
  exact ⟨row, (mem_matching.mp hrow).1, rfl⟩

/-- A walk through the pages is a walk of the keyset. -/
theorem walk_readPage_iff (queue : ReviewableQueue presentable)
    (hfilters : ReviewQueueFiltersV1Schema filters)
    (hvalid : ValidReadRequest databaseNow (rowsRequest { filters with cursor := none } asOf))
    (pages : List (List CandidateRow)) :
    Keyset.Walk (readPage presentable databaseNow queue.rows filters asOf) none pages ↔
      Keyset.Walk (fun c => some (Keyset.page position decodeCursor encodeCursor filters.limit
        (matching queue.rows filters asOf) c)) none pages := by
  have hagree : ∀ c, CursorOf queue.rows c →
      readPage presentable databaseNow queue.rows filters asOf c =
        some (Keyset.page position decodeCursor encodeCursor filters.limit
          (matching queue.rows filters asOf) c) := by
    intro c hc
    rw [readPage, list_eq_page queue hfilters hvalid hc]
    rfl
  have hnone : CursorOf queue.rows none := by simp [CursorOf]
  constructor
  · refine Keyset.Walk.congr hagree (fun c p d hc hp hd => ?_) hnone
    rw [hagree c hc] at hp
    cases hp
    exact cursorOf_next hd
  · refine Keyset.Walk.congr (fun c hc => (hagree c hc).symm) (fun c p d _ hp hd => ?_) hnone
    cases hp
    exact cursorOf_next hd

/-- A walk lists each matching candidate once and in order exactly when it lists the queue. -/
theorem flatten_eq_matching_iff (h : (reviewable.map (·.candidateId)).Nodup)
    (filters : ReviewQueueFilters) (asOf : ℤ) (l : List CandidateRow) :
    l = matching reviewable filters asOf ↔
      l.Pairwise (fun a b => position a < position b) ∧
        ∀ row, row ∈ l ↔ row ∈ reviewable ∧ MatchesRequest (rowsRequest filters asOf) row := by
  constructor
  · rintro rfl
    exact ⟨pairwise_matching h filters asOf, fun row => mem_matching⟩
  · rintro ⟨hl, hmem⟩
    refine List.Perm.eq_of_pairwise (fun a b _ _ hab hba => absurd hab hba.not_gt) hl
      (pairwise_matching h filters asOf) ?_
    refine (List.perm_ext_iff_of_nodup ?_ ?_).mpr fun row => by rw [hmem, mem_matching]
    · exact hl.imp fun hab heq => hab.ne (congrArg position heq)
    · exact (nodup_ids_matching h filters asOf).of_map

/-- The cursor rounds the position down, to the millisecond. -/
theorem decodeCursor_encodeCursor_le (row : CandidateRow) :
    decodeCursor (encodeCursor row) ≤ position row := by
  simp only [decodeCursor, encodeCursor, position, Prod.Lex.toLex_le_toLex]
  omega

theorem decodeCursor_encodeCursor_eq_iff (row : CandidateRow) :
    decodeCursor (encodeCursor row) = position row ↔ row.candidateCreatedAt % 1000 = 0 := by
  simp only [decodeCursor, encodeCursor, position, EmbeddingLike.apply_eq_iff_eq, Prod.mk.injEq,
    and_true]
  omega

/-- **When the review queue is shown completely**: following the cursors from the first page ends
and shows every matching candidate exactly once, in order, if and only if the last candidate of
every full page with more to come was created on a whole millisecond. -/
theorem shown_iff_cuts_on_milliseconds (queue : ReviewableQueue presentable)
    (hfilters : ReviewQueueFiltersV1Schema filters)
    (hvalid : ValidReadRequest databaseNow (rowsRequest { filters with cursor := none } asOf)) :
    Shown presentable databaseNow queue.rows filters asOf ↔
      ∀ k, 0 < k → k * filters.limit < (matching queue.rows filters asOf).length →
        ∀ row ∈ (matching queue.rows filters asOf)[k * filters.limit - 1]?,
          row.candidateCreatedAt % 1000 = 0 := by
  have hwalk := Keyset.walk_flatten_iff (n := filters.limit)
    (pairwise_matching queue.nodup filters asOf)
    (fun row _ => decodeCursor_encodeCursor_le row) hfilters.limit.1
  simp only [Keyset.ExactCuts, decodeCursor_encodeCursor_eq_iff] at hwalk
  rw [← hwalk]
  refine exists_congr fun pages => ?_
  rw [walk_readPage_iff queue hfilters hvalid, flatten_eq_matching_iff queue.nodup]

/-! ### Two candidates of one extraction -/

/-- A candidate of a national publication of Extra. -/
def extractedCandidate (id : ℕ) (createdAt : ℤ) : CandidateRow where
  anomalyCodes := []
  candidateCreatedAt := createdAt
  candidateId := id
  chain := .extra
  confidence := 90
  scopeKind := .national

/-- No filters, and one candidate a page. -/
def oneAPage : ReviewQueueFilters where
  ageHours := none
  anomaly := none
  chain := none
  confidence := none
  cursor := none
  limit := 1
  scopeKind := none

/-- A queue of two candidates created on a whole millisecond is shown completely, one by one. -/
theorem shown_two_candidates_on_a_millisecond :
    Shown (fun _ => true) 1782907260000000
      [extractedCandidate 1 1782907200123000, extractedCandidate 2 1782907200123000]
      oneAPage 1782907260000 := by
  let queue : ReviewableQueue fun _ => true :=
    ⟨[extractedCandidate 1 1782907200123000, extractedCandidate 2 1782907200123000],
      by decide, by decide, by decide⟩
  refine (shown_iff_cuts_on_milliseconds queue (by decide) (by decide)).mpr
    fun k _ _ row hrow => ?_
  have hall : ∀ row ∈ [extractedCandidate 1 1782907200123000,
      extractedCandidate 2 1782907200123000], row.candidateCreatedAt % 1000 = 0 := by decide
  exact hall row (mem_matching.mp (List.mem_of_getElem? hrow)).1

/-- Two candidates inserted by one statement, 456 microseconds past a millisecond: the second page
of the queue shows the first candidate again and names its own cursor. -/
theorem not_shown_two_candidates_of_one_extraction :
    ¬ Shown (fun _ => true) 1782907260000000
      [extractedCandidate 1 1782907200123456, extractedCandidate 2 1782907200123456]
      oneAPage 1782907260000 := by
  have hpage : ∀ c ∈ [none, some ⟨1782907200123, 1⟩], readPage (fun _ => true) 1782907260000000
      [extractedCandidate 1 1782907200123456, extractedCandidate 2 1782907200123456]
      oneAPage 1782907260000 c =
        some ⟨[extractedCandidate 1 1782907200123456], some ⟨1782907200123, 1⟩⟩ := by decide
  rintro ⟨pages, hwalk, -⟩
  cases hwalk with
  | last hread hnone =>
    rw [hpage none (by simp)] at hread
    cases hread
    cases hnone
  | more hread hnext hwalk =>
    rw [hpage none (by simp)] at hread
    cases hread
    cases hnext
    exact Keyset.not_walk_of_loop (hpage _ (by simp)) rfl _ hwalk

end Handleplan.ReviewQueue
