import Mathlib.Data.List.Perm.Subperm
import Handleplan.Db.WorkerTargets

/-!
# Whether the rotation of targets reaches everyone

The pages of the price jobs are meant to reach every eligible identifier once in as many completed
runs as there are pages. They do so only where one page holds them all.

`getPriceGtins` moves on by one page for each completed run, in a list that each completed run sorts
anew: what a run refreshes goes to the end of the list, where a later page finds it again. The
cursor moreover counts the runs of two jobs, so that one of them can always meet it at the last
page. The job that fills gaps has a list that stays, but keeps no more than five sixths of each full
page.

## Main definitions

* `WorkerTargets.returnedBy` — what the runs of one type return.
* `WorkerTargets.PriceRotationCovers`, `WorkerTargets.GapRotationCovers` —
  that a rotation reaches everyone.

## Main results

* `WorkerTargets.mem_priceTargets`, `WorkerTargets.mem_gapTargets` — what the
  providers keep of a page.
* `WorkerTargets.exists_window` — runs that meet the cursor at the last page only.
* `WorkerTargets.rotationCovers_iff` — both rotations reach everyone if and only if one
  page holds them all.
-/

namespace Handleplan.WorkerTargets

open JsString Sorting

/-! ### What the rotation is for -/

/-- No run has been completed yet. -/
def TargetDb.start : TargetDb := ⟨0, fun _ _ => none⟩

section Runs

variable (host : Host) (collation : Collation) (eligible : EligibleIdentifiers) (limit : TargetLimit)
  (geographicScopeId : Option ℕ)

/-- The identifiers that a run of a price job returns; none if the provider throws. -/
def returned (db : TargetDb) (runType : PriceRunType) : List JsString :=
  ((priceTargets host collation eligible limit geographicScopeId runType db).getD []).map
    PriceTarget.ean

/-- The database after a run, which refreshes what it returns. -/
def TargetDb.next (db : TargetDb) (run : PriceRun) : TargetDb :=
  db.completeRun run (productIdsOf eligible
    ((priceTargets host collation eligible limit geographicScopeId run.runType db).getD []))

/-- The database after several runs. -/
def TargetDb.afterRuns (db : TargetDb) (runs : List PriceRun) : TargetDb :=
  runs.foldl (TargetDb.next host collation eligible limit geographicScopeId) db

/-- What the runs of one type return, among others. -/
def returnedBy (runType : PriceRunType) : TargetDb → List PriceRun → List JsString
  | _, [] => []
  | db, run :: runs =>
    (if run.runType = runType then
      returned host collation eligible limit geographicScopeId db runType else []) ++
    returnedBy runType (db.next host collation eligible limit geographicScopeId run) runs

/-- Whether each run fetches later than those of its class before. -/
def AreRefreshing : TargetDb → List PriceRun → Prop
  | _, [] => True
  | db, run :: runs =>
    (∀ productId, ∀ refreshedAt ∈ db.lastRefreshed run.runType.claimEligibility productId,
      ∀ other, refreshedAt < run.fetchedAt other) ∧
    AreRefreshing (db.next host collation eligible limit geographicScopeId run) runs

/-- **The rotation of the price jobs reaches everyone**: in every history of completed runs of both
types, as many runs of one type in a row as there are pages return every identifier. -/
def PriceRotationCovers : Prop :=
  ∀ (before window : List PriceRun) (runType : PriceRunType),
    AreRefreshing host collation eligible limit geographicScopeId .start (before ++ window) →
    (window.filter fun run => run.runType = runType).length =
      pagesOf eligible.rows.length limit.val →
    ∀ row ∈ eligible.rows, row.value ∈ returnedBy host collation eligible limit geographicScopeId
      runType (TargetDb.start.afterRuns host collation eligible limit geographicScopeId before) window

/-- **The rotation of the job that fills gaps reaches everyone**: from any number of completed runs
on, as many runs as there are pages return every identifier. -/
def GapRotationCovers : Prop :=
  ∀ completedRuns, ∀ row ∈ eligible.rows,
    ∃ i < pagesOf eligible.rows.length (gapPageLimit limit),
      row.value ∈
        (gapTargets host collation eligible limit (completedRuns + i)).map PriceTarget.ean

end Runs

variable {host : Host} {collation : Collation} {eligible : EligibleIdentifiers} {limit : TargetLimit}
  {geographicScopeId : Option ℕ} {db : TargetDb} {runType : PriceRunType} {value : JsString}

/-! ### What the providers keep -/

theorem unique_of_nodup {values : List JsString} (h : values.Nodup) : unique values = values := by
  rw [unique, JsMap.ofEntries_of_nodup]
  · rw [JsMap.keys, List.map_map]
    exact List.map_id values
  · rw [List.map_map]
    exact (List.map_id values).symm ▸ h

theorem mem_values {rows : List EligibleIdentifier} :
    value ∈ values rows ↔ value ∈ rows.map EligibleIdentifier.value ∧ isValidGtin value = true :=
  List.mem_filter

/-- The values of rows that a query has selected are distinct. -/
theorem nodup_values {rows : List EligibleIdentifier} (h : rows.Subperm eligible.rows) :
    (values rows).Nodup := by
  obtain ⟨part, hperm, hsublist⟩ := h
  have hpart : (part.map EligibleIdentifier.value).Nodup :=
    eligible.nodup.sublist (hsublist.map _)
  exact ((hperm.map _).nodup_iff.mp hpart).filter _

theorem length_values_le (rows : List EligibleIdentifier) : (values rows).length ≤ rows.length := by
  have hfilter := List.length_filter_le isValidGtin (rows.map EligibleIdentifier.value)
  rwa [List.length_map] at hfilter

/-- A part of the sorted rows is a part of the rows. -/
theorem page_subperm (cmp : EligibleIdentifier → EligibleIdentifier → Ordering) (offset count : ℕ) :
    (((sortBy cmp eligible.rows).drop offset).take count).Subperm eligible.rows :=
  (((List.take_sublist _ _).trans (List.drop_sublist _ _)).subperm).trans
    (sortBy_perm cmp eligible.rows).subperm

/-- **The providers of the price jobs keep the whole page**, and never throw. -/
theorem mem_priceTargets :
    value ∈ returned host collation eligible limit geographicScopeId db runType ↔
      value ∈ getPriceGtins collation eligible limit runType.claimEligibility db := by
  have hnodup : (getPriceGtins collation eligible limit runType.claimEligibility db).Nodup :=
    nodup_values (page_subperm _ _ _)
  have hlength : (getPriceGtins collation eligible limit runType.claimEligibility db).length ≤
      limit.val := (length_values_le _).trans (List.length_take_le _ _)
  have hvalid : ¬ ∃ value ∈ getPriceGtins collation eligible limit runType.claimEligibility db,
      isValidGtin value = false := by
    rintro ⟨value, hmem, hfalse⟩
    exact absurd (mem_values.mp hmem).2 (by rw [hfalse]; exact Bool.false_ne_true)
  rw [returned, priceTargets, canonicalTargets, if_neg hvalid, Option.map_some, Option.getD_some,
    List.map_map, unique_of_nodup hnodup, List.take_of_length_le (by rwa [length_sortBy])]
  exact (Iff.of_eq (congrArg (value ∈ ·) (List.map_id _))).trans mem_sortBy

variable {completedRuns count pageLimit : ℕ}

/-- **The provider of the job that fills gaps keeps the beginning of its sorted page**, as long as
its limit is. -/
theorem gapTargets_eq :
    (gapTargets host collation eligible limit completedRuns).map PriceTarget.ean =
      (sortBy host.localeCompare (getGapPriceGtins collation eligible limit completedRuns)).take
        limit.val := by
  have hnodup : (getGapPriceGtins collation eligible limit completedRuns).Nodup :=
    nodup_values (page_subperm _ _ _)
  have hfilter : (getGapPriceGtins collation eligible limit completedRuns).filter isValidGtin =
      getGapPriceGtins collation eligible limit completedRuns :=
    List.filter_eq_self.mpr fun value hmem => (mem_values.mp hmem).2
  rw [gapTargets, hfilter, unique_of_nodup hnodup, List.map_map]
  exact List.map_id _

theorem mem_gapTargets
    (h : value ∈ (gapTargets host collation eligible limit completedRuns).map PriceTarget.ean) :
    value ∈ getGapPriceGtins collation eligible limit completedRuns := by
  rw [gapTargets_eq] at h
  exact mem_sortBy.mp (List.mem_of_mem_take h)

/-! ### One page -/

theorem pagesOf_le_one (hpos : 0 < pageLimit) (h : count ≤ pageLimit) :
    pagesOf count pageLimit ≤ 1 := by
  have hlt : (count + pageLimit - 1) / pageLimit < 2 := Nat.div_lt_of_lt_mul (by omega)
  exact Nat.le_of_lt_succ hlt

theorem pagesOf_pos (hpos : 0 < pageLimit) (h : 0 < count) :
    0 < pagesOf count pageLimit := Nat.div_pos (by omega) hpos

theorem two_le_pagesOf (hpos : 0 < pageLimit) (h : pageLimit < count) :
    2 ≤ pagesOf count pageLimit := (Nat.le_div_iff_mul_le hpos).mpr (by omega)

/-- Where one page holds all, every run begins at it. -/
theorem priceTargetPageState_eq_zero (hpos : 0 < pageLimit) (h : count ≤ pageLimit) :
    priceTargetPageState completedRuns count pageLimit = 0 := by
  rw [priceTargetPageState, max_eq_right (pagesOf_le_one hpos h), Nat.mod_one, Nat.zero_mul]

theorem limit_lt_gapPageLimit (limit : TargetLimit) : limit.val < gapPageLimit limit := by
  have hpos := limit.pos
  unfold gapPageLimit
  omega

/-- A page that holds all has the values of all that are valid. -/
theorem mem_values_of_page {cmp : EligibleIdentifier → EligibleIdentifier → Ordering}
    {row : EligibleIdentifier} (hlength : eligible.rows.length ≤ count) (hrow : row ∈ eligible.rows)
    (hvalid : isValidGtin row.value = true) :
    row.value ∈ values (((sortBy cmp eligible.rows).drop 0).take count) := by
  rw [List.drop_zero, List.take_of_length_le (by rwa [length_sortBy])]
  exact mem_values.mpr ⟨List.mem_map_of_mem (mem_sortBy.mpr hrow), hvalid⟩

/-- **A run returns everyone**, where one page holds all of them. -/
theorem mem_returned_of_length_le {row : EligibleIdentifier}
    (hlength : eligible.rows.length ≤ limit.val) (hrow : row ∈ eligible.rows)
    (hvalid : isValidGtin row.value = true) :
    row.value ∈ returned host collation eligible limit geographicScopeId db runType := by
  rw [mem_priceTargets, getPriceGtins, priceTargetPageState_eq_zero limit.pos hlength]
  exact mem_values_of_page hlength hrow hvalid

/-- What a run of a type returns is returned by the runs of that type. -/
theorem mem_returnedBy_of_forall {window : List PriceRun}
    (h : ∀ db, value ∈ returned host collation eligible limit geographicScopeId db runType)
    (hrun : 0 < (window.filter fun run => run.runType = runType).length) :
    value ∈ returnedBy host collation eligible limit geographicScopeId runType db window := by
  induction window generalizing db with
  | nil => exact absurd hrun (Nat.lt_irrefl 0)
  | cons run window ih =>
    rw [returnedBy]
    by_cases htype : run.runType = runType
    · rw [if_pos htype]
      exact List.mem_append_left _ (h db)
    · rw [List.filter_cons_of_neg (by simpa using htype)] at hrun
      exact List.mem_append_right _ (ih hrun)

theorem priceRotationCovers_of_length_le (hlength : eligible.rows.length ≤ limit.val)
    (hvalid : ∀ row ∈ eligible.rows, isValidGtin row.value = true) :
    PriceRotationCovers host collation eligible limit geographicScopeId := by
  intro before window runType _ hcount row hrow
  refine mem_returnedBy_of_forall
    (fun db => mem_returned_of_length_le hlength hrow (hvalid row hrow)) ?_
  rw [hcount]
  exact pagesOf_pos limit.pos (List.length_pos_of_mem hrow)

/-- One page covers what fits on it. -/
theorem gapRotationCovers_of_length_le (hlength : eligible.rows.length ≤ limit.val)
    (hvalid : ∀ row ∈ eligible.rows, isValidGtin row.value = true) :
    GapRotationCovers host collation eligible limit := by
  intro completedRuns row hrow
  have hlimit := limit_lt_gapPageLimit limit
  have hpage : eligible.rows.length ≤ gapPageLimit limit := hlength.trans hlimit.le
  have hpos : 0 < gapPageLimit limit := Nat.zero_lt_of_lt hlimit
  refine ⟨0, pagesOf_pos hpos (List.length_pos_of_mem hrow), ?_⟩
  have hvalues : (getGapPriceGtins collation eligible limit (completedRuns + 0)).length ≤
      limit.val := by
    refine (length_values_le _).trans ((List.length_take_le' _ _).trans ?_)
    rw [List.length_drop, length_sortBy]
    exact (Nat.sub_le _ _).trans hlength
  rw [gapTargets_eq, List.take_of_length_le (by rwa [length_sortBy]), mem_sortBy, getGapPriceGtins,
    priceTargetPageState_eq_zero hpos hpage]
  exact mem_values_of_page hpage hrow (hvalid row hrow)

/-! ### More than one page, in a list that stays -/

/-- **The job that fills gaps leaves somebody out**, where one page does not hold all that it may
return.

**Proof sketch.** The first page has more rows than the limit, of which only so many are kept. In as
many runs as there are pages no other page begins where the first does, and pages are disjoint. -/
theorem length_le_of_gapRotationCovers (h : GapRotationCovers host collation eligible limit) :
    eligible.rows.length ≤ limit.val := by
  by_contra hlong
  rw [Nat.not_le] at hlong
  have hlimit := limit_lt_gapPageLimit limit
  have hpos : 0 < gapPageLimit limit := Nat.zero_lt_of_lt hlimit
  obtain ⟨sorted, hsorted⟩ : ∃ sorted, sorted =
    sortBy (on EligibleIdentifier.value collation.compare) eligible.rows := ⟨_, rfl⟩
  have hperm : sorted.Perm eligible.rows := hsorted ▸ sortBy_perm _ _
  have hnodup : (sorted.map EligibleIdentifier.value).Nodup :=
    (hperm.map _).nodup_iff.mpr eligible.nodup
  -- the values of the first page are returned by the first run only
  have hfirst : ∀ value ∈ (sorted.take (gapPageLimit limit)).map EligibleIdentifier.value,
      value ∈ (gapTargets host collation eligible limit 0).map PriceTarget.ean := by
    intro value hvalue
    obtain ⟨row, hrow, rfl⟩ := List.mem_map.mp hvalue
    obtain ⟨i, hi, hmem⟩ := h 0 row (hperm.mem_iff.mp (List.mem_of_mem_take hrow))
    rw [Nat.zero_add] at hmem
    cases i with
    | zero => exact hmem
    | succ i =>
      have hpage := (mem_values.mp (mem_gapTargets hmem)).1
      rw [← hsorted, priceTargetPageState, max_eq_left (by omega), Nat.mod_eq_of_lt hi] at hpage
      have hlater : row.value ∈ (sorted.map EligibleIdentifier.value).drop (gapPageLimit limit) := by
        rw [← List.map_drop]
        obtain ⟨other, hother, heq⟩ := List.mem_map.mp hpage
        refine heq ▸ List.mem_map_of_mem ?_
        refine (List.drop_subset_drop_left _ ?_) (List.mem_of_mem_take hother)
        rw [Nat.succ_mul]
        exact Nat.le_add_left _ _
      rw [List.map_take] at hvalue
      exact absurd hlater (List.disjoint_take_drop hnodup le_rfl hvalue)
  have hle : ((sorted.take (gapPageLimit limit)).map EligibleIdentifier.value).length ≤ limit.val := by
    have hdistinct : ((sorted.take (gapPageLimit limit)).map EligibleIdentifier.value).Nodup := by
      rw [List.map_take]
      exact hnodup.sublist (List.take_sublist _ _)
    refine (hdistinct.subperm hfirst).length_le.trans ?_
    rw [gapTargets_eq]
    exact List.length_take_le _ _
  rw [List.length_map, List.length_take, hperm.length_eq] at hle
  omega

/-- Only valid identifiers are returned to the job that fills gaps. -/
theorem isValid_of_gapRotationCovers (h : GapRotationCovers host collation eligible limit) :
    ∀ row ∈ eligible.rows, isValidGtin row.value = true := by
  intro row hrow
  obtain ⟨i, -, hmem⟩ := h 0 row hrow
  exact (mem_values.mp (mem_gapTargets hmem)).2

/-! ### Histories of runs -/

section Histories

variable {runs later : List PriceRun}

theorem areRefreshing_append :
    AreRefreshing host collation eligible limit geographicScopeId db (runs ++ later) ↔
      AreRefreshing host collation eligible limit geographicScopeId db runs ∧
        AreRefreshing host collation eligible limit geographicScopeId
          (db.afterRuns host collation eligible limit geographicScopeId runs) later := by
  induction runs generalizing db with
  | nil => exact (and_iff_right trivial).symm
  | cons run runs ih => exact (and_congr_right' ih).trans and_assoc.symm

theorem returnedBy_append :
    returnedBy host collation eligible limit geographicScopeId runType db (runs ++ later) =
      returnedBy host collation eligible limit geographicScopeId runType db runs ++
        returnedBy host collation eligible limit geographicScopeId runType
          (db.afterRuns host collation eligible limit geographicScopeId runs) later := by
  induction runs generalizing db with
  | nil => rfl
  | cons run runs ih =>
    rw [List.cons_append, returnedBy, returnedBy, ih, List.append_assoc]
    rfl

theorem returnedBy_of_forall_ne (h : ∀ run ∈ runs, run.runType ≠ runType) :
    returnedBy host collation eligible limit geographicScopeId runType db runs = [] := by
  induction runs generalizing db with
  | nil => rfl
  | cons run runs ih =>
    obtain ⟨hrun, hruns⟩ := List.forall_mem_cons.mp h
    rw [returnedBy, if_neg hrun, ih hruns, List.append_nil]

/-- Only valid identifiers are returned. -/
theorem isValid_of_mem_returnedBy
    (h : value ∈ returnedBy host collation eligible limit geographicScopeId runType db runs) :
    isValidGtin value = true := by
  induction runs generalizing db with
  | nil => exact absurd h List.not_mem_nil
  | cons run runs ih =>
    rw [returnedBy, List.mem_append] at h
    rcases h with h | h
    · split_ifs at h
      · exact (mem_values.mp (mem_priceTargets.mp h)).2
      · exact absurd h List.not_mem_nil
    · exact ih h

/-- Whether everything was fetched before as many units of time as runs have been completed. -/
def TargetDb.IsBounded (db : TargetDb) : Prop :=
  ∀ claimEligibility productId, ∀ refreshedAt ∈ db.lastRefreshed claimEligibility productId,
    refreshedAt < db.completedRuns

/-- A run that fetches everything at the time after those before. -/
def runNow (db : TargetDb) (runType : PriceRunType) : PriceRun := ⟨runType, fun _ => db.completedRuns⟩

theorem isBounded_start : TargetDb.start.IsBounded := fun _ _ _ h => absurd h (Option.not_mem_none _)

/-- What such a run refreshes has its time. -/
theorem TargetDb.IsBounded.lastRefreshed_completeRun (h : db.IsBounded) (productIds : List ℕ)
    (claimEligibility : ClaimEligibility) (productId : ℕ) :
    (db.completeRun (runNow db runType) productIds).lastRefreshed claimEligibility productId =
      if claimEligibility = runType.claimEligibility ∧ productId ∈ productIds then
        some (db.completedRuns : ℤ)
      else db.lastRefreshed claimEligibility productId := by
  have hlatest : latest (db.lastRefreshed claimEligibility productId) db.completedRuns =
      db.completedRuns := by
    cases hlast : db.lastRefreshed claimEligibility productId with
    | none => rfl
    | some refreshedAt => exact max_eq_right (h _ _ refreshedAt hlast).le
  rw [TargetDb.completeRun]
  dsimp only [runNow]
  rw [hlatest]
  rfl

theorem TargetDb.IsBounded.completeRun (h : db.IsBounded) (productIds : List ℕ) :
    (db.completeRun (runNow db runType) productIds).IsBounded := by
  intro claimEligibility productId refreshedAt hmem
  rw [h.lastRefreshed_completeRun] at hmem
  show refreshedAt < ((db.completedRuns + 1 : ℕ) : ℤ)
  rw [Nat.cast_succ]
  split_ifs at hmem
  · rw [← Option.some.inj hmem]
    exact Int.lt_succ _
  · exact (h _ _ refreshedAt hmem).trans (Int.lt_succ _)

/-- **Any number of runs of one type** can follow; they refresh nothing of the other class. -/
theorem exists_runs (host : Host) (collation : Collation) (eligible : EligibleIdentifiers)
    (limit : TargetLimit) (geographicScopeId : Option ℕ) (h : db.IsBounded) (runType : PriceRunType)
    (count : ℕ) :
    ∃ runs, AreRefreshing host collation eligible limit geographicScopeId db runs ∧
      runs.length = count ∧ (∀ run ∈ runs, run.runType = runType) ∧
      (db.afterRuns host collation eligible limit geographicScopeId runs).IsBounded ∧
      (db.afterRuns host collation eligible limit geographicScopeId runs).completedRuns =
        db.completedRuns + count ∧
      ∀ claimEligibility, claimEligibility ≠ runType.claimEligibility →
        (db.afterRuns host collation eligible limit geographicScopeId runs).lastRefreshed
          claimEligibility = db.lastRefreshed claimEligibility := by
  induction count generalizing db with
  | zero => exact ⟨[], trivial, rfl, fun _ hmem => absurd hmem List.not_mem_nil, h, rfl, fun _ _ => rfl⟩
  | succ count ih =>
    have hnext : (db.next host collation eligible limit geographicScopeId
        (runNow db runType)).IsBounded := h.completeRun _
    obtain ⟨runs, hrefreshing, hlength, htypes, hbounded, hcompleted, hothers⟩ := ih hnext
    refine ⟨runNow db runType :: runs, ⟨fun productId refreshedAt hmem _ => h _ _ _ hmem, hrefreshing⟩,
      congrArg Nat.succ hlength, List.forall_mem_cons.mpr ⟨rfl, htypes⟩, hbounded, ?_, ?_⟩
    · refine hcompleted.trans ?_
      show db.completedRuns + 1 + count = _
      omega
    · intro claimEligibility hne
      refine (hothers claimEligibility hne).trans (funext fun productId => ?_)
      refine (h.lastRefreshed_completeRun _ claimEligibility productId).trans ?_
      exact if_neg fun hand => hne hand.1

end Histories

/-! ### More than one page, in a list that each run sorts anew -/

section LastPage

/-- The identifiers before the last page, in the order of their values. -/
def rowsBeforeLast (collation : Collation) (eligible : EligibleIdentifiers) (limit : TargetLimit) :
    List EligibleIdentifier :=
  (sortBy (on EligibleIdentifier.value collation.compare) eligible.rows).take
    ((pagesOf eligible.rows.length limit.val - 1) * limit.val)

/-- The identifiers of the last page, in the order of their values. -/
def rowsOnLast (collation : Collation) (eligible : EligibleIdentifiers) (limit : TargetLimit) :
    List EligibleIdentifier :=
  (sortBy (on EligibleIdentifier.value collation.compare) eligible.rows).drop
    ((pagesOf eligible.rows.length limit.val - 1) * limit.val)

theorem perm_rows : eligible.rows.Perm
    (rowsBeforeLast collation eligible limit ++ rowsOnLast collation eligible limit) := by
  rw [rowsBeforeLast, rowsOnLast, List.take_append_drop]
  exact (sortBy_perm _ _).symm

/-- The last page begins before the end, and is no longer than the limit. -/
theorem lastPage_bounds {count pageLimit : ℕ} (hpos : 0 < pageLimit) (h : 0 < count) :
    (pagesOf count pageLimit - 1) * pageLimit < count ∧
      count ≤ (pagesOf count pageLimit - 1) * pageLimit + pageLimit := by
  obtain ⟨pages, hpages⟩ := Nat.exists_eq_succ_of_ne_zero (pagesOf_pos hpos h).ne'
  have hle : pagesOf count pageLimit * pageLimit ≤ count + pageLimit - 1 := Nat.div_mul_le_self _ _
  have hlt : count + pageLimit - 1 < (pagesOf count pageLimit + 1) * pageLimit :=
    Nat.lt_mul_of_div_lt (Nat.lt_succ_self _) hpos
  rw [hpages] at hle hlt ⊢
  rw [Nat.succ_sub_one]
  rw [Nat.succ_mul] at hle hlt
  rw [Nat.succ_mul] at hlt
  omega

theorem length_rowsBeforeLast (h : 0 < eligible.rows.length) :
    (rowsBeforeLast collation eligible limit).length =
      (pagesOf eligible.rows.length limit.val - 1) * limit.val := by
  rw [rowsBeforeLast, List.length_take, length_sortBy]
  exact min_eq_left (lastPage_bounds limit.pos h).1.le

theorem length_rowsOnLast_le (h : 0 < eligible.rows.length) :
    (rowsOnLast collation eligible limit).length ≤ limit.val := by
  rw [rowsOnLast, List.length_drop, length_sortBy]
  exact Nat.sub_le_iff_le_add'.mpr (lastPage_bounds limit.pos h).2

variable {row : EligibleIdentifier}

/-- An identifier is on one side of the cut only. -/
theorem notMem_rowsOnLast (h : row ∈ rowsBeforeLast collation eligible limit) :
    row.value ∉ (rowsOnLast collation eligible limit).map EligibleIdentifier.value := by
  have hnodup : ((sortBy (on EligibleIdentifier.value collation.compare) eligible.rows).map
      EligibleIdentifier.value).Nodup := ((sortBy_perm _ _).map _).nodup_iff.mpr eligible.nodup
  have hmem := List.mem_map_of_mem (f := EligibleIdentifier.value) h
  rw [rowsBeforeLast, List.map_take] at hmem
  rw [rowsOnLast, List.map_drop]
  exact fun hlast => List.disjoint_take_drop hnodup le_rfl hmem hlast

instance {claimEligibility : ClaimEligibility} :
    Std.TransCmp (db.compareRows collation claimEligibility) :=
  have : Std.TransCmp (on EligibleIdentifier.value collation.compare) := inferInstance
  inferInstanceAs (Std.TransCmp (compareLex _ _))

/-- The cursor is at the last page, and on it are the identifiers that are last by value. -/
structure TargetDb.MeetsLastPage (db : TargetDb) (collation : Collation)
    (eligible : EligibleIdentifiers) (limit : TargetLimit) (runType : PriceRunType) : Prop where
  bounded : db.IsBounded
  cursor : db.completedRuns % pagesOf eligible.rows.length limit.val =
    pagesOf eligible.rows.length limit.val - 1
  last : ∀ row ∈ rowsBeforeLast collation eligible limit,
    ∀ row' ∈ rowsOnLast collation eligible limit,
      (db.compareRows collation runType.claimEligibility row row').isLE = true

/-- **A run that meets the last page returns the identifiers that are last by value.** -/
theorem TargetDb.MeetsLastPage.mem_returned (h : db.MeetsLastPage collation eligible limit runType)
    (hpos : 0 < eligible.rows.length) (hvalid : ∀ row ∈ eligible.rows, isValidGtin row.value = true) :
    value ∈ returned host collation eligible limit geographicScopeId db runType ↔
      value ∈ (rowsOnLast collation eligible limit).map EligibleIdentifier.value := by
  have hsorted : sortBy (db.compareRows collation runType.claimEligibility) eligible.rows =
      sortBy (db.compareRows collation runType.claimEligibility)
        (rowsBeforeLast collation eligible limit) ++
      sortBy (db.compareRows collation runType.claimEligibility)
        (rowsOnLast collation eligible limit) :=
    sortBy_eq_append perm_rows (fun _ hrow _ hrow' heq => List.inj_on_of_nodup_map eligible.nodup
      hrow hrow' (Std.LawfulEqCmp.eq_of_compare (compareLex_eq_iff.mp heq).2)) h.last
  have hoffset : priceTargetPageState db.completedRuns eligible.rows.length limit.val =
      (sortBy (db.compareRows collation runType.claimEligibility)
        (rowsBeforeLast collation eligible limit)).length := by
    rw [priceTargetPageState, max_eq_left (pagesOf_pos limit.pos hpos), h.cursor, length_sortBy,
      length_rowsBeforeLast hpos]
  rw [mem_priceTargets, getPriceGtins, hsorted, hoffset, List.drop_left, List.take_of_length_le
    (by rw [length_sortBy]; exact length_rowsOnLast_le hpos), mem_values, ((sortBy_perm _ _).map
      EligibleIdentifier.value).mem_iff]
  refine and_iff_left_of_imp fun hmem => ?_
  obtain ⟨row, hrow, rfl⟩ := List.mem_map.mp hmem
  exact hvalid row (perm_rows.mem_iff.mpr (List.mem_append_right _ hrow))

/-- **The last page stays the same**: what the run refreshes is all of it.

**Proof sketch.** The products of the last page get the time of the run. Any other product has an
earlier time, or the same with an identifier that is earlier by value. -/
theorem TargetDb.MeetsLastPage.last_next (h : db.MeetsLastPage collation eligible limit runType)
    (hpos : 0 < eligible.rows.length) (hvalid : ∀ row ∈ eligible.rows, isValidGtin row.value = true)
    {row' : EligibleIdentifier} (hrow : row ∈ rowsBeforeLast collation eligible limit)
    (hrow' : row' ∈ rowsOnLast collation eligible limit) :
    ((db.next host collation eligible limit geographicScopeId (runNow db runType)).compareRows
      collation runType.claimEligibility row row').isLE = true := by
  obtain ⟨targets, htargets⟩ : ∃ targets, targets =
    (priceTargets host collation eligible limit geographicScopeId runType db).getD [] := ⟨_, rfl⟩
  have hnext : db.next host collation eligible limit geographicScopeId (runNow db runType) =
      db.completeRun (runNow db runType) (productIdsOf eligible targets) := by
    rw [htargets]
    rfl
  have hmem : row'.productId ∈ productIdsOf eligible targets := by
    have hreturned : row'.value ∈ targets.map PriceTarget.ean := by
      rw [htargets]
      show row'.value ∈ returned host collation eligible limit geographicScopeId db runType
      exact (h.mem_returned hpos hvalid).mpr (List.mem_map_of_mem hrow')
    refine List.mem_map_of_mem (List.mem_filter.mpr ⟨?_, decide_eq_true hreturned⟩)
    exact perm_rows.mem_iff.mpr (List.mem_append_right _ hrow')
  have hvalues : (on EligibleIdentifier.value collation.compare row row').isLE = true := by
    have hpairwise := pairwise_sortBy (on EligibleIdentifier.value collation.compare) eligible.rows
    rw [← List.take_append_drop ((pagesOf eligible.rows.length limit.val - 1) * limit.val)
      (sortBy (on EligibleIdentifier.value collation.compare) eligible.rows)] at hpairwise
    exact (List.pairwise_append.mp hpairwise).2.2 row hrow row' hrow'
  have htime : (db.completeRun (runNow db runType) (productIdsOf eligible targets)).lastRefreshed
      runType.claimEligibility row'.productId = some (db.completedRuns : ℤ) := by
    rw [h.bounded.lastRefreshed_completeRun, if_pos ⟨rfl, hmem⟩]
  rw [hnext, TargetDb.compareRows, compareLex, compareOn, htime,
    h.bounded.lastRefreshed_completeRun]
  split_ifs with hand
  · have heq : compare (some (db.completedRuns : ℤ)) (some (db.completedRuns : ℤ)) = .eq :=
      Std.ReflCmp.compare_self
    rw [heq]
    exact hvalues
  · cases hlast : db.lastRefreshed runType.claimEligibility row.productId with
    | none => rfl
    | some refreshedAt =>
      have hlt : compare refreshedAt (db.completedRuns : ℤ) = .lt :=
        Std.compare_eq_lt.mpr (h.bounded _ _ refreshedAt hlast)
      show ((compare refreshedAt (db.completedRuns : ℤ)).then _).isLE = true
      rw [hlt]
      rfl

/-- The other run type of the cursor. -/
def PriceRunType.other : PriceRunType → PriceRunType
  | .benchmarkPrices => .historicalPrices
  | .historicalPrices => .benchmarkPrices

theorem PriceRunType.other_ne (runType : PriceRunType) : runType.other ≠ runType := by
  cases runType <;> decide

theorem PriceRunType.claimEligibility_ne_other (runType : PriceRunType) :
    runType.claimEligibility ≠ runType.other.claimEligibility := by
  cases runType <;> decide

/-- The order of the rows depends on the refreshes of one class only. -/
theorem compareRows_congr {db' : TargetDb} {claimEligibility : ClaimEligibility}
    (h : db'.lastRefreshed claimEligibility = db.lastRefreshed claimEligibility) :
    db'.compareRows collation claimEligibility = db.compareRows collation claimEligibility := by
  rw [TargetDb.compareRows, TargetDb.compareRows, h]

/-- **Runs that meet the cursor at the last page only**: as many of the other type come between two
of them as bring the cursor back.

**Proof sketch.** By induction on the number of runs of the type. A run at the last page returns the
identifiers that are last by value and leaves them last; the runs of the other type do not change
their order, and with them the cursor has moved by the number of pages. -/
theorem exists_window (h : db.MeetsLastPage collation eligible limit runType)
    (hpos : 0 < eligible.rows.length) (hvalid : ∀ row ∈ eligible.rows, isValidGtin row.value = true)
    (count : ℕ) :
    ∃ window, AreRefreshing host collation eligible limit geographicScopeId db window ∧
      (window.filter fun run => run.runType = runType).length = count ∧
      ∀ value ∈ returnedBy host collation eligible limit geographicScopeId runType db window,
        value ∈ (rowsOnLast collation eligible limit).map EligibleIdentifier.value := by
  induction count generalizing db with
  | zero => exact ⟨[], trivial, rfl, fun _ hmem => absurd hmem List.not_mem_nil⟩
  | succ count ih =>
    have hbounded : (db.next host collation eligible limit geographicScopeId
        (runNow db runType)).IsBounded := h.bounded.completeRun _
    obtain ⟨runs, hrefreshing, -, htypes, hafter, hcompleted, hothers⟩ :=
      exists_runs host collation eligible limit geographicScopeId hbounded runType.other
        (pagesOf eligible.rows.length limit.val - 1)
    have hpages := pagesOf_pos limit.pos hpos
    have hmeets : ((db.next host collation eligible limit geographicScopeId
        (runNow db runType)).afterRuns host collation eligible limit geographicScopeId
          runs).MeetsLastPage collation eligible limit runType := by
      refine ⟨hafter, ?_, fun row hrow row' hrow' => ?_⟩
      · have hnext : (db.next host collation eligible limit geographicScopeId
            (runNow db runType)).completedRuns = db.completedRuns + 1 := rfl
        rw [hcompleted, hnext, Nat.add_assoc, Nat.add_sub_of_le hpages, Nat.add_mod_right]
        exact h.cursor
      · rw [compareRows_congr (hothers _ runType.claimEligibility_ne_other)]
        exact h.last_next hpos hvalid hrow hrow'
    obtain ⟨window, hwindow, hlength, hreturned⟩ := ih hmeets
    have hruns : ∀ run ∈ runs, run.runType ≠ runType := fun run hrun heq =>
      runType.other_ne ((htypes run hrun).symm.trans heq)
    refine ⟨runNow db runType :: (runs ++ window), ⟨fun productId refreshedAt hmem _ =>
      h.bounded _ _ _ hmem, areRefreshing_append.mpr ⟨hrefreshing, hwindow⟩⟩, ?_, ?_⟩
    · rw [List.filter_cons_of_pos (by exact decide_eq_true rfl), List.filter_append,
        List.filter_eq_nil_iff.mpr (by simpa using hruns), List.nil_append, List.length_cons, hlength]
    · intro value hvalue
      have htype : (runNow db runType).runType = runType := rfl
      rw [returnedBy, if_pos htype, returnedBy_append, returnedBy_of_forall_ne hruns, List.nil_append,
        List.mem_append] at hvalue
      rcases hvalue with hvalue | hvalue
      · exact (h.mem_returned hpos hvalid).mp hvalue
      · exact hreturned value hvalue

/-- After runs of the other type the cursor meets the last page, in a list that nothing has
moved. -/
theorem exists_meetsLastPage (host : Host) (collation : Collation) {eligible : EligibleIdentifiers}
    (limit : TargetLimit) (geographicScopeId : Option ℕ) (hpos : 0 < eligible.rows.length)
    (runType : PriceRunType) :
    ∃ before, AreRefreshing host collation eligible limit geographicScopeId .start before ∧
      (TargetDb.start.afterRuns host collation eligible limit geographicScopeId before).MeetsLastPage
        collation eligible limit runType := by
  obtain ⟨before, hrefreshing, -, -, hbounded, hcompleted, hothers⟩ :=
    exists_runs host collation eligible limit geographicScopeId isBounded_start runType.other
      (pagesOf eligible.rows.length limit.val - 1)
  have hpages := pagesOf_pos limit.pos hpos
  refine ⟨before, hrefreshing, hbounded, ?_, fun row hrow row' hrow' => ?_⟩
  · rw [hcompleted]
    exact (congrArg (· % _) (Nat.zero_add _)).trans (Nat.mod_eq_of_lt (Nat.sub_lt hpages Nat.one_pos))
  · have hpairwise := pairwise_sortBy (on EligibleIdentifier.value collation.compare) eligible.rows
    rw [← List.take_append_drop ((pagesOf eligible.rows.length limit.val - 1) * limit.val)
      (sortBy (on EligibleIdentifier.value collation.compare) eligible.rows)] at hpairwise
    rw [compareRows_congr (hothers _ runType.claimEligibility_ne_other)]
    exact (List.pairwise_append.mp hpairwise).2.2 row hrow row' hrow'

theorem isValid_of_priceRotationCovers
    (h : PriceRotationCovers host collation eligible limit geographicScopeId) :
    ∀ row ∈ eligible.rows, isValidGtin row.value = true := by
  intro row hrow
  obtain ⟨window, hrefreshing, hlength, htypes, -⟩ :=
    exists_runs host collation eligible limit geographicScopeId isBounded_start .benchmarkPrices
      (pagesOf eligible.rows.length limit.val)
  refine isValid_of_mem_returnedBy (h [] window .benchmarkPrices hrefreshing ?_ row hrow)
  rw [List.filter_eq_self.mpr fun run hrun => decide_eq_true (htypes run hrun), hlength]

/-- **The price jobs leave somebody out**, where one page does not hold all.

**Proof sketch.** Once the cursor is at the last page, runs that meet it there only can follow, as
many as there are pages. They return the last page, and there is a page before it. -/
theorem length_le_of_priceRotationCovers
    (h : PriceRotationCovers host collation eligible limit geographicScopeId) :
    eligible.rows.length ≤ limit.val := by
  by_contra hlong
  rw [Nat.not_le] at hlong
  have hpos : 0 < eligible.rows.length := Nat.zero_lt_of_lt hlong
  have hvalid := isValid_of_priceRotationCovers h
  obtain ⟨before, hbefore, hmeets⟩ := exists_meetsLastPage host collation limit geographicScopeId hpos
    .benchmarkPrices
  obtain ⟨window, hwindow, hlength, hreturned⟩ :=
    exists_window hmeets hpos hvalid (pagesOf eligible.rows.length limit.val)
  have hbeforeLast : 0 < (rowsBeforeLast collation eligible limit).length := by
    rw [length_rowsBeforeLast hpos]
    exact Nat.mul_pos (Nat.sub_pos_of_lt (two_le_pagesOf limit.pos hlong)) limit.pos
  obtain ⟨row, hrow⟩ := List.exists_mem_of_length_pos hbeforeLast
  have hmem := h before window .benchmarkPrices (areRefreshing_append.mpr ⟨hbefore, hwindow⟩) hlength
    row (perm_rows.mem_iff.mpr (List.mem_append_left _ hrow))
  exact notMem_rowsOnLast hrow (hreturned row.value hmem)

end LastPage

/-- **Both rotations reach everyone if and only if one page holds them all**, and all are valid. -/
theorem rotationCovers_iff :
    (PriceRotationCovers host collation eligible limit geographicScopeId ↔
      eligible.rows.length ≤ limit.val ∧ ∀ row ∈ eligible.rows, isValidGtin row.value = true) ∧
    (GapRotationCovers host collation eligible limit ↔
      eligible.rows.length ≤ limit.val ∧ ∀ row ∈ eligible.rows, isValidGtin row.value = true) := by
  refine ⟨⟨fun h => ?_, fun h => ?_⟩, fun h => ?_, fun h => ?_⟩
  · exact ⟨length_le_of_priceRotationCovers h, isValid_of_priceRotationCovers h⟩
  · exact priceRotationCovers_of_length_le h.1 h.2
  · exact ⟨length_le_of_gapRotationCovers h, isValid_of_gapRotationCovers h⟩
  · exact gapRotationCovers_of_length_le h.1 h.2

namespace Example

/-- Two identifiers. -/
def twoIdentifiers : EligibleIdentifiers where
  rows := [⟨js "70000009", 1⟩, ⟨js "70000016", 2⟩]
  nodup := by decide

/-- A limit of one. -/
def limitOfOne : TargetLimit := ⟨1, le_rfl, by decide⟩

/-- Two runs that compare prices, one after the other. -/
def twoRuns : List PriceRun := [⟨.benchmarkPrices, fun _ => 1⟩, ⟨.benchmarkPrices, fun _ => 2⟩]

end Example

open Example in
/-- **Two runs with a limit of one return the same one of two identifiers.** The second run comes to
the second page, where the first run has moved the first identifier; the job that fills gaps keeps
the first half of its only page. -/
theorem not_rotationCovers_two :
    ¬ PriceRotationCovers Host.ascii Collation.codeUnits twoIdentifiers limitOfOne none ∧
      ¬ GapRotationCovers Host.ascii Collation.codeUnits twoIdentifiers limitOfOne := by
  have hrow : ⟨js "70000016", 2⟩ ∈ twoIdentifiers.rows := List.mem_cons_of_mem _ List.mem_cons_self
  constructor
  · intro h
    have hrefreshing : AreRefreshing Host.ascii Collation.codeUnits twoIdentifiers limitOfOne none
        .start ([] ++ twoRuns) := by
      refine ⟨fun productId refreshedAt hmem => absurd hmem (Option.not_mem_none _), ?_, trivial⟩
      intro productId refreshedAt hmem other
      have hfirst : refreshedAt = 1 := by
        change (if _ then some _ else none) = some refreshedAt at hmem
        split_ifs at hmem
        exact (Option.some.inj hmem).symm
      rw [hfirst]
      exact Int.lt_succ 1
    have hmem := h [] twoRuns .benchmarkPrices hrefreshing (by decide) _ hrow
    exact absurd hmem (by decide +kernel)
  · intro h
    obtain ⟨i, hi, hmem⟩ := h 0 _ hrow
    have hpages : pagesOf twoIdentifiers.rows.length (gapPageLimit limitOfOne) = 1 := by decide
    rw [hpages, Nat.lt_one_iff] at hi
    rw [hi] at hmem
    exact absurd hmem (by decide +kernel)

end Handleplan.WorkerTargets
