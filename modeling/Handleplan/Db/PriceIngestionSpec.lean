import Handleplan.Db.PriceIngestion

/-!
# When accepted prices are lost

An observation is recorded unless there is one with its evidence key, and the key says nothing of
the geographic scope. So an accepted price is lost when its key is that of a record with another
scope. The coverage check of the run is recorded for each scope all the same.

## Main definitions

* `PriceIngestion.requestsOf` — the observations that a batch asks for.
* `PriceIngestion.KeepsAcceptedPrices` — each accepted price is observed, and scopes do
  not collapse.
* `PriceIngestion.FirstRecordsSay` — the first record of a key says what is asked for.

## Main results

* `PriceIngestion.foldlM_persistPriceOutcome_eq_ok` — what a batch records.
* `PriceIngestion.keepsAcceptedPrices_iff` — when no accepted price is lost.
-/

namespace Handleplan.PriceIngestion

open JsString IngestionRuns CatalogIngestion Tables

variable {sha256 : JsString → JsString} {hash : NormalizedPriceOutcome → JsString} {handle : RunHandle}
  {claimEligibility : ClaimEligibility} {now : ℤ} {tables tables' : PriceTables}
  {outcome : PriceIngestionOutcome} {outcomes : List PriceIngestionOutcome}

/-! ### Products -/

/-- The catalog once the GTIN of an outcome has been resolved. -/
def resolveSubject (now : ℤ) (catalog : CatalogTables) (outcome : PriceIngestionOutcome) :
    CatalogTables :=
  outcome.subject.elim catalog fun subject => resolveForPrice catalog subject.2 now

/-- The catalog once the GTINs of a batch have been resolved. -/
def resolveSubjects (now : ℤ) (catalog : CatalogTables) (outcomes : List PriceIngestionOutcome) :
    CatalogTables :=
  outcomes.foldl (resolveSubject now) catalog

variable {catalog : CatalogTables} {ean : JsString}

/-- A GTIN keeps its product. -/
theorem identifiers_resolveForPrice {identifier : GtinIdentifier}
    (h : catalog.identifiers ean = some identifier) (other : JsString) :
    (resolveForPrice catalog other now).identifiers ean = some identifier := by
  unfold resolveForPrice
  cases hother : catalog.identifiers other with
  | some _ => exact h
  | none =>
    have hne : ean ≠ other := fun heq => by
      rw [heq, hother] at h
      cases h
    show Function.update catalog.identifiers other _ ean = _
    rw [Function.update_of_ne hne]
    exact h

/-- A GTIN that has been resolved has a product. -/
theorem exists_identifiers_resolveForPrice (catalog : CatalogTables) (ean : JsString) (now : ℤ) :
    ∃ identifier, (resolveForPrice catalog ean now).identifiers ean = some identifier := by
  unfold resolveForPrice
  cases hean : catalog.identifiers ean with
  | some identifier => exact ⟨identifier, hean⟩
  | none => exact ⟨_, Function.update_self ..⟩

theorem identifiers_resolveSubject {identifier : GtinIdentifier}
    (h : catalog.identifiers ean = some identifier) (outcome : PriceIngestionOutcome) :
    (resolveSubject now catalog outcome).identifiers ean = some identifier := by
  unfold resolveSubject
  cases outcome.subject with
  | none => exact h
  | some subject => exact identifiers_resolveForPrice h subject.2

theorem identifiers_resolveSubjects (outcomes : List PriceIngestionOutcome) :
    ∀ {catalog : CatalogTables} {ean : JsString} {identifier : GtinIdentifier},
      catalog.identifiers ean = some identifier →
        (resolveSubjects now catalog outcomes).identifiers ean = some identifier := by
  induction outcomes with
  | nil => exact fun h => h
  | cons outcome outcomes ih => exact fun h => ih (identifiers_resolveSubject h outcome)

/-- The GTIN of an outcome has the same product once the others have been resolved. -/
theorem productOf_resolveSubjects (chain : Chain) (h : outcome.subject = some (chain, ean))
    (outcomes : List PriceIngestionOutcome) :
    productOf (resolveSubjects now (resolveSubject now catalog outcome) outcomes) ean =
      productOf (resolveForPrice catalog ean now) ean := by
  obtain ⟨identifier, hidentifier⟩ := exists_identifiers_resolveForPrice catalog ean now
  have hsubject : (resolveSubject now catalog outcome).identifiers ean = some identifier := by
    rw [resolveSubject, h]
    exact hidentifier
  rw [productOf, productOf, identifiers_resolveSubjects outcomes hsubject, hidentifier]

/-! ### What is recorded -/

/-- The observations that an outcome asks for. -/
def requestOf (sha256 : JsString → JsString) (hash : NormalizedPriceOutcome → JsString)
    (handle : RunHandle) (claimEligibility : ClaimEligibility) (catalog : CatalogTables) :
    PriceIngestionOutcome → List PriceObservationRow
  | .accepted base chain ean price =>
    [observationRow sha256 hash handle claimEligibility (productOf catalog ean) base chain ean price]
  | .rejected .. => []

/-- The coverage checks that a row is, for a class of prices. -/
def ordinaryChecks (claimEligibility : ClaimEligibility) (row : CoverageCheckRow) :
    List CoverageCheckRow :=
  if claimEligibility = .ordinaryOnly then [row] else []

/-- The coverage checks that an outcome asks for. -/
def checkOf (handle : RunHandle) (claimEligibility : ClaimEligibility) (catalog : CatalogTables) :
    PriceIngestionOutcome → List CoverageCheckRow
  | .accepted _ chain ean price =>
    ordinaryChecks claimEligibility
      { key := ⟨handle.id, productOf catalog ean, chain, price.geographicScopeId⟩
        checkedAt := price.fetchedAt
        reason := js "source_price_observed"
        state := .priced }
  | .rejected base _ reason (some chain) (some ean) geographicScopeId _ =>
    ordinaryChecks claimEligibility
      { key := ⟨handle.id, productOf catalog ean, chain, geographicScopeId⟩
        checkedAt := base.recordedAt
        reason := reason
        state := .unknown }
  | .rejected .. => []

theorem insertObservation_eq_ok {row : PriceObservationRow}
    (h : insertObservation tables row = .ok tables') :
    tables' = { tables with observations := tables.observations.insert row } := by
  unfold insertObservation at h
  split_ifs at h with hamount hkey hscope
  · rw [Unique.insert_of_mem _ hkey]
    exact (Except.ok.inj h).symm
  · exact (Except.ok.inj h).symm

theorem insertCheck_eq_ok {row : CoverageCheckRow} (h : insertCheck tables row = .ok tables') :
    tables' = { tables with checks := tables.checks.insert row } := by
  unfold insertCheck at h
  split_ifs at h with hkey hscope
  · rw [Unique.insert_of_mem _ hkey]
    exact (Except.ok.inj h).symm
  · exact (Except.ok.inj h).symm

theorem recordCheck_eq_ok {row : CoverageCheckRow}
    (h : recordCheck claimEligibility tables row = .ok tables') :
    tables' = { tables with
      checks := tables.checks.insertAll (ordinaryChecks claimEligibility row) } := by
  unfold recordCheck at h
  unfold ordinaryChecks
  split_ifs at h ⊢ with hordinary
  · exact insertCheck_eq_ok h
  · exact (Except.ok.inj h).symm

/-- The price cache after an outcome. -/
def cacheOf (handle : RunHandle) (claimEligibility : ClaimEligibility) (cache : PriceCache) :
    PriceIngestionOutcome → PriceCache
  | .accepted _ chain ean price =>
    if claimEligibility = .ordinaryOnly ∧ handle.sourceId = js "kassalapp" then
      cachePrice cache ean chain price
    else cache
  | .rejected .. => cache

/-- **What an outcome records**: its observation, its coverage check, and what is cached. -/
theorem persistPriceOutcome_eq_ok
    (h : persistPriceOutcome sha256 hash handle claimEligibility now tables outcome = .ok tables') :
    tables' = { tables with
      catalog := resolveSubject now tables.catalog outcome
      observations := tables.observations.insertAll (requestOf sha256 hash handle claimEligibility
        (resolveSubject now tables.catalog outcome) outcome)
      checks := tables.checks.insertAll (checkOf handle claimEligibility
        (resolveSubject now tables.catalog outcome) outcome)
      cache := cacheOf handle claimEligibility tables.cache outcome } := by
  cases outcome with
  | accepted base chain ean price =>
    unfold persistPriceOutcome persistAcceptedPrice at h
    obtain ⟨observed, hobserved, hrest⟩ := bind_eq_ok_iff.mp h
    obtain ⟨checked, hchecked, hcached⟩ := bind_eq_ok_iff.mp hrest
    obtain rfl := insertObservation_eq_ok hobserved
    obtain rfl := recordCheck_eq_ok hchecked
    cases hcached
    rfl
  | rejected base state reason subjectChain subjectEan geographicScopeId normalizedRecord =>
    cases subjectChain with
    | none => exact (Except.ok.inj h).symm
    | some chain =>
      cases subjectEan with
      | none => exact (Except.ok.inj h).symm
      | some ean => exact recordCheck_eq_ok h

/-- The observations that a batch asks for, in turn. -/
def requestsOf (sha256 : JsString → JsString) (hash : NormalizedPriceOutcome → JsString)
    (handle : RunHandle) (claimEligibility : ClaimEligibility) (catalog : CatalogTables)
    (outcomes : List PriceIngestionOutcome) : List PriceObservationRow :=
  outcomes.flatMap (requestOf sha256 hash handle claimEligibility catalog)

/-- The coverage checks that a batch asks for, in turn. -/
def checksOf (handle : RunHandle) (claimEligibility : ClaimEligibility) (catalog : CatalogTables)
    (outcomes : List PriceIngestionOutcome) : List CoverageCheckRow :=
  outcomes.flatMap (checkOf handle claimEligibility catalog)

/-- What an outcome asks for is the same once the others have been resolved. -/
theorem requestOf_resolveSubjects (catalog : CatalogTables) (outcome : PriceIngestionOutcome)
    (outcomes : List PriceIngestionOutcome) :
    requestOf sha256 hash handle claimEligibility
        (resolveSubjects now (resolveSubject now catalog outcome) outcomes) outcome =
      requestOf sha256 hash handle claimEligibility (resolveSubject now catalog outcome) outcome := by
  cases outcome with
  | accepted base chain ean price =>
    show [observationRow _ _ _ _ (productOf (resolveSubjects now _ outcomes) ean) _ _ _ _] = _
    rw [productOf_resolveSubjects chain rfl]
    rfl
  | rejected => rfl

theorem checkOf_resolveSubjects (catalog : CatalogTables) (outcome : PriceIngestionOutcome)
    (outcomes : List PriceIngestionOutcome) :
    checkOf handle claimEligibility
        (resolveSubjects now (resolveSubject now catalog outcome) outcomes) outcome =
      checkOf handle claimEligibility (resolveSubject now catalog outcome) outcome := by
  unfold checkOf
  split
  case h_1 base chain ean price =>
    rw [productOf_resolveSubjects chain rfl]
    rfl
  case h_2 base state reason chain ean geographicScopeId normalizedRecord =>
    rw [productOf_resolveSubjects chain rfl]
    rfl
  case h_3 => rfl

/-- **What the outcomes of a batch record.** -/
theorem foldlM_persistPriceOutcome_eq_ok (outcomes : List PriceIngestionOutcome) :
    ∀ {tables tables' : PriceTables},
      outcomes.foldlM (persistPriceOutcome sha256 hash handle claimEligibility now) tables =
        .ok tables' →
      tables' = { tables with
        catalog := resolveSubjects now tables.catalog outcomes
        observations := tables.observations.insertAll (requestsOf sha256 hash handle claimEligibility
          (resolveSubjects now tables.catalog outcomes) outcomes)
        checks := tables.checks.insertAll (checksOf handle claimEligibility
          (resolveSubjects now tables.catalog outcomes) outcomes)
        cache := outcomes.foldl (cacheOf handle claimEligibility) tables.cache } := by
  induction outcomes with
  | nil => exact fun h => (Except.ok.inj h).symm
  | cons outcome outcomes ih =>
    intro tables tables' h
    rw [List.foldlM_cons] at h
    obtain ⟨first, hfirst, hrest⟩ := bind_eq_ok_iff.mp h
    rw [ih hrest]
    obtain rfl := persistPriceOutcome_eq_ok hfirst
    unfold requestsOf checksOf
    dsimp only
    rw [List.flatMap_cons, List.flatMap_cons, List.foldl_cons]
    have hcatalog : resolveSubjects now tables.catalog (outcome :: outcomes) =
        resolveSubjects now (resolveSubject now tables.catalog outcome) outcomes := rfl
    rw [hcatalog, requestOf_resolveSubjects, checkOf_resolveSubjects, Unique.insertAll_append,
      Unique.insertAll_append]

/-- The outcomes of a batch that is persisted with access to the source. -/
theorem persistPriceOutcomes_eq_ok {inserted : ℕ}
    (h : persistPriceOutcomes sha256 hash tables handle true now outcomes = .ok (tables', inserted)) :
    ∃ claimEligibility audited, claimEligibilityForRunType handle.runType = some claimEligibility ∧
      auditPriceOutcomes hash handle.id tables.outcomes (outcomes.map normalizePriceOutcome) =
        .ok (audited, inserted) ∧
      outcomes.foldlM (persistPriceOutcome sha256 hash handle claimEligibility now)
        { tables with outcomes := audited } = .ok tables' := by
  unfold persistPriceOutcomes at h
  cases heligibility : claimEligibilityForRunType handle.runType with
  | none =>
    rw [heligibility] at h
    cases h
  | some claimEligibility =>
    rw [heligibility] at h
    change (if ¬ IsRunning tables handle then _ else
      if ¬ (outcomes.length ≤ _ ∧ _) then _ else _) = _ at h
    by_cases hrunning : IsRunning tables handle
    · rw [if_neg (not_not_intro hrunning)] at h
      by_cases hvalid : outcomes.length ≤ maxIngestionOutcomesPerWrite ∧
          ∀ outcome ∈ outcomes, ValidPriceOutcome outcome
      · rw [if_neg (not_not_intro hvalid), if_neg (by decide)] at h
        obtain ⟨⟨audited, created⟩, haudited, hrest⟩ := bind_eq_ok_iff.mp h
        obtain ⟨recorded, hrecorded, hdone⟩ := bind_eq_ok_iff.mp hrest
        cases hdone
        exact ⟨claimEligibility, audited, rfl, haudited, hrecorded⟩
      · rw [if_pos hvalid] at h
        cases h
    · rw [if_pos hrunning] at h
      cases h

/-! ### Accepted prices -/

/-- **An observation of an accepted price**: of its source, product, chain, geographic scope, time,
amount and eligibility class. -/
def Observes (handle : RunHandle) (claimEligibility : ClaimEligibility) (catalog : CatalogTables)
    (chain : Chain) (ean : JsString) (price : PriceRecord) (row : PriceObservationRow) : Prop :=
  row.sourceId = handle.sourceId ∧
    (catalog.identifiers ean).map GtinIdentifier.productId = some row.productId ∧
      row.chain = chain ∧ row.geographicScopeId = price.geographicScopeId ∧
        row.observedAt = price.observedAt ∧ row.amountOre = price.amountOre ∧
          row.claimEligibility = claimEligibility

/-- A run has checked a product in a scope, and found a price. -/
def IsPriced (tables : PriceTables) (handle : RunHandle) (chain : Chain) (ean : JsString)
    (scope : Option ℕ) : Prop :=
  ∃ check ∈ tables.checks.rows,
    check.key = ⟨handle.id, productOf tables.catalog ean, chain, scope⟩ ∧ check.state = .priced

/-- **No accepted price is lost**: each is observed, and two that differ only in their scopes, both
of them checked, have two observations. -/
structure KeepsAcceptedPrices (handle : RunHandle) (claimEligibility : ClaimEligibility)
    (outcomes : List PriceIngestionOutcome) (tables : PriceTables) : Prop where
  observed : ∀ base chain ean price, .accepted base chain ean price ∈ outcomes →
    ∃ row ∈ tables.observations.rows,
      Observes handle claimEligibility tables.catalog chain ean price row
  apart : ∀ base base' chain ean price scope, .accepted base chain ean price ∈ outcomes →
    .accepted base' chain ean { price with geographicScopeId := scope } ∈ outcomes →
      price.geographicScopeId ≠ scope → IsPriced tables handle chain ean price.geographicScopeId →
        IsPriced tables handle chain ean scope →
          ∃ row ∈ tables.observations.rows, ∃ row' ∈ tables.observations.rows, row ≠ row' ∧
            Observes handle claimEligibility tables.catalog chain ean price row ∧
              Observes handle claimEligibility tables.catalog chain ean
                { price with geographicScopeId := scope } row'

/-- A row says what another one says of a price. -/
def PriceObservationRow.Says (row request : PriceObservationRow) : Prop :=
  row.sourceId = request.sourceId ∧ row.productId = request.productId ∧ row.chain = request.chain ∧
    row.geographicScopeId = request.geographicScopeId ∧ row.observedAt = request.observedAt ∧
      row.amountOre = request.amountOre ∧ row.claimEligibility = request.claimEligibility

/-- **What is asked for is said by a first record**: one that comes first with its evidence key,
among the rows that are there and those that the batch asks for. -/
def FirstRecordsSay (sha256 : JsString → JsString) (hash : NormalizedPriceOutcome → JsString)
    (handle : RunHandle) (claimEligibility : ClaimEligibility) (now : ℤ) (tables : PriceTables)
    (outcomes : List PriceIngestionOutcome) : Prop :=
  let requests := requestsOf sha256 hash handle claimEligibility
    (resolveSubjects now tables.catalog outcomes) outcomes
  ∀ request ∈ requests, ∃ row,
    (tables.observations.rows ++ requests).find? (fun r => r.evidenceKey = row.evidenceKey) = some row ∧
      row.Says request

/-- The product of a GTIN of a batch, when the batch has been resolved. -/
theorem map_productId_resolveSubjects {base : RecordBase} {chain : Chain} {price : PriceRecord} :
    ∀ {outcomes : List PriceIngestionOutcome} {catalog : CatalogTables},
      .accepted base chain ean price ∈ outcomes →
        ((resolveSubjects now catalog outcomes).identifiers ean).map GtinIdentifier.productId =
          some (productOf (resolveSubjects now catalog outcomes) ean)
  | outcome :: outcomes, catalog, h => by
    rcases List.mem_cons.mp h with rfl | hrest
    · obtain ⟨identifier, hidentifier⟩ := exists_identifiers_resolveForPrice catalog ean now
      have hall : (resolveSubjects now catalog (.accepted base chain ean price :: outcomes)).identifiers
          ean = some identifier := identifiers_resolveSubjects outcomes hidentifier
      rw [productOf, hall]
      rfl
    · show ((resolveSubjects now (resolveSubject now catalog outcome) outcomes).identifiers ean).map _ =
        some (productOf (resolveSubjects now (resolveSubject now catalog outcome) outcomes) ean)
      exact map_productId_resolveSubjects hrest

/-- What is asked for are the observations of accepted prices. -/
theorem mem_requestsOf {request : PriceObservationRow} :
    request ∈ requestsOf sha256 hash handle claimEligibility catalog outcomes ↔
      ∃ base chain ean price, .accepted base chain ean price ∈ outcomes ∧
        request = observationRow sha256 hash handle claimEligibility (productOf catalog ean) base chain
          ean price := by
  rw [requestsOf, List.mem_flatMap]
  constructor
  · rintro ⟨outcome, houtcome, hrequest⟩
    cases outcome with
    | accepted base chain ean price =>
      exact ⟨base, chain, ean, price, houtcome, List.mem_singleton.mp hrequest⟩
    | rejected => exact absurd hrequest List.not_mem_nil
  · rintro ⟨base, chain, ean, price, houtcome, rfl⟩
    exact ⟨_, houtcome, List.mem_singleton_self _⟩

/-- A row observes a price if it says what is asked for. -/
theorem observes_iff_matches {base : RecordBase} {chain : Chain} {price : PriceRecord}
    {row : PriceObservationRow} (h : .accepted base chain ean price ∈ outcomes) :
    Observes handle claimEligibility (resolveSubjects now catalog outcomes) chain ean price row ↔
      row.Says (observationRow sha256 hash handle claimEligibility
        (productOf (resolveSubjects now catalog outcomes) ean) base chain ean price) := by
  rw [Observes, map_productId_resolveSubjects h, Option.some_inj]
  exact and_congr_right fun _ => and_congr_left fun _ => eq_comm

/-- Prices that are observed in different scopes have different observations. -/
theorem KeepsAcceptedPrices.of_observed
    (h : ∀ base chain ean price, .accepted base chain ean price ∈ outcomes →
      ∃ row ∈ tables.observations.rows,
        Observes handle claimEligibility tables.catalog chain ean price row) :
    KeepsAcceptedPrices handle claimEligibility outcomes tables := by
  refine ⟨h, fun base base' chain ean price scope haccepted haccepted' hne _ _ => ?_⟩
  obtain ⟨row, hrow, hobserves⟩ := h base chain ean price haccepted
  obtain ⟨row', hrow', hobserves'⟩ := h base' chain ean _ haccepted'
  refine ⟨row, hrow, row', hrow', fun heq => hne ?_, hobserves, hobserves'⟩
  rw [← hobserves.2.2.2.1, heq, hobserves'.2.2.2.1]

/-- **When no accepted price is lost**: for each of them a record that comes first with its evidence
key is one of its product and its scope.

**Proof sketch.** The rows of the table after the batch are the first records of their keys
(`Tables.Unique.mem_insertAll_iff`), among what was there and what the batch asks for. -/
theorem keepsAcceptedPrices_iff {inserted : ℕ}
    (heligibility : claimEligibilityForRunType handle.runType = some claimEligibility)
    (h : persistPriceOutcomes sha256 hash tables handle true now outcomes = .ok (tables', inserted)) :
    KeepsAcceptedPrices handle claimEligibility outcomes tables' ↔
      FirstRecordsSay sha256 hash handle claimEligibility now tables outcomes := by
  obtain ⟨_, audited, heligibility', -, hrecorded⟩ := persistPriceOutcomes_eq_ok h
  obtain rfl := Option.some.inj (heligibility.symm.trans heligibility')
  obtain rfl := foldlM_persistPriceOutcome_eq_ok outcomes hrecorded
  constructor
  · intro hkeeps request hrequest
    obtain ⟨base, chain, ean, price, houtcome, rfl⟩ := mem_requestsOf.mp hrequest
    obtain ⟨row, hrow, hobserves⟩ := hkeeps.observed base chain ean price houtcome
    exact ⟨row, (Unique.mem_insertAll_iff _ _).mp hrow, (observes_iff_matches houtcome).mp hobserves⟩
  · refine fun hsay => .of_observed fun base chain ean price houtcome => ?_
    obtain ⟨row, hrow, hsays⟩ := hsay _ (mem_requestsOf.mpr ⟨base, chain, ean, price, houtcome, rfl⟩)
    exact ⟨row, (Unique.mem_insertAll_iff _ _).mpr hrow, (observes_iff_matches houtcome).mpr hsays⟩

namespace Example

/-- A run for benchmark prices. -/
def run : RunHandle := ⟨1, js "job-1", js "benchmark-prices", js "open-prices"⟩

/-- Tables with this run and two scopes, and without prices. -/
def start : PriceTables where
  catalog :=
    { products := []
      identifiers := fun _ => none
      sourceIdentifiers := fun _ => none
      sourceProducts := fun _ => none
      observations := []
      runs := Function.update (fun _ => none) 1 (some ⟨js "benchmark-prices", js "open-prices", .running⟩)
      outcomes := fun _ => none }
  outcomes := fun _ => none
  scopes := [1, 2]
  observations := .empty _
  checks := .empty _
  cache := fun _ => none

/-- A price in a scope. -/
def price (scope amountOre : ℕ) : PriceRecord where
  amountOre := amountOre
  fetchedAt := 1000
  geographicScopeId := some scope
  observedAt := 0
  sourceReference := js "prices/1"

/-- An outcome with this price. -/
def priceIn (scope : ℕ) (sourceRecordId : String) (amountOre : ℕ := 2490) : PriceIngestionOutcome :=
  .accepted ⟨none, 1000, js sourceRecordId⟩ .extra (js "7038010000010") (price scope amountOre)

/-- The text of an outcome is the identity of its record. -/
def recordText (outcome : NormalizedPriceOutcome) : JsString := outcome.base.sourceRecordId

/-- The tables after a batch. -/
def after (outcomes : List PriceIngestionOutcome) : Except PriceError (PriceTables × ℕ) :=
  persistPriceOutcomes id recordText start run true 1000 outcomes

/-- The tables with an earlier price. -/
def earlier : PriceTables := ((after [priceIn 1 "record-1"]).toOption.map Prod.fst).getD start

/-- The earlier price again, and a price that is repeated. -/
def batch : List PriceIngestionOutcome :=
  [priceIn 1 "record-2", priceIn 1 "record-3" 1990, priceIn 1 "record-4" 1990]

/-- The observation of a product that an outcome of the first scope asks for. -/
def row (productId : ℕ) (sourceRecordId : String) (amountOre : ℕ := 2490) : PriceObservationRow :=
  observationRow id recordText run .ordinaryOnly productId ⟨none, 1000, js sourceRecordId⟩ .extra
    (js "7038010000010") (price 1 amountOre)

theorem evidenceKey_row (productId : ℕ) (sourceRecordId other : String) (amountOre : ℕ) :
    (row productId sourceRecordId amountOre).evidenceKey = (row productId other amountOre).evidenceKey :=
  rfl

theorem says_row (sourceRecordId other : String) (amountOre : ℕ) :
    (row 0 sourceRecordId amountOre).Says (row 0 other amountOre) :=
  ⟨rfl, rfl, rfl, rfl, rfl, rfl, rfl⟩

/-- The batch meets the condition. -/
theorem firstRecordsSay_batch :
    FirstRecordsSay id recordText run .ordinaryOnly 1000 earlier batch := by
  have hrows : earlier.observations.rows = [row 0 "record-1"] := rfl
  have hrequests : ∀ catalog, requestsOf id recordText run .ordinaryOnly catalog batch =
      let product := productOf catalog (js "7038010000010")
      [row product "record-2", row product "record-3" 1990, row product "record-4" 1990] :=
    fun _ => rfl
  have hproduct : productOf (resolveSubjects 1000 earlier.catalog batch) (js "7038010000010") = 0 := by
    decide +kernel
  have hne : (row 0 "record-1").evidenceKey ≠ (row 0 "record-3" 1990).evidenceKey := by
    decide +kernel
  unfold FirstRecordsSay
  rw [hrows, hrequests, hproduct]
  intro requests request hrequest
  simp only [requests, List.mem_cons, List.not_mem_nil, or_false] at hrequest
  obtain rfl | rfl | rfl := hrequest
  · exact ⟨row 0 "record-1", by simp, says_row ..⟩
  all_goals
    have hsame := evidenceKey_row 0 "record-2" "record-1" 2490
    exact ⟨row 0 "record-3" 1990, by simp [requests, hsame, hne], says_row ..⟩

end Example

open Example in
/-- Prices in one scope are observed, each of them once. -/
theorem keepsAcceptedPrices_one_scope : earlier.observations.rows.length = 1 ∧
    ∃ tables, persistPriceOutcomes id recordText earlier run true 1000 batch = .ok (tables, 3) ∧
      tables.observations.rows.length = 2 ∧ KeepsAcceptedPrices run .ordinaryOnly batch tables := by
  obtain ⟨tables, hbatch, htwo⟩ : ∃ tables, persistPriceOutcomes id recordText earlier run true
      1000 batch = .ok (tables, 3) ∧ tables.observations.rows.length = 2 := ⟨_, rfl, rfl⟩
  exact ⟨rfl, tables, hbatch, htwo,
    (keepsAcceptedPrices_iff (by decide) hbatch).mpr firstRecordsSay_batch⟩

/-- Two prices that differ only in their scopes are one observation, and both of them are
checked. -/
theorem not_keepsAcceptedPrices_two_scopes :
    ∃ tables, Example.after [Example.priceIn 1 "record-1", Example.priceIn 2 "record-2"] =
        .ok (tables, 2) ∧
      IsPriced tables Example.run .extra (js "7038010000010") (some 1) ∧
        IsPriced tables Example.run .extra (js "7038010000010") (some 2) ∧
          tables.observations.rows.length = 1 ∧
            ¬ KeepsAcceptedPrices Example.run .ordinaryOnly
              [Example.priceIn 1 "record-1", Example.priceIn 2 "record-2"] tables := by
  refine ⟨_, rfl, ⟨_, List.mem_cons_self, rfl, rfl⟩,
    ⟨_, List.mem_cons_of_mem _ List.mem_cons_self, rfl, rfl⟩, rfl, fun hkeeps => ?_⟩
  obtain ⟨row, hrow, -, -, -, hscope, -⟩ := hkeeps.observed ⟨none, 1000, js "record-2"⟩ .extra
    (js "7038010000010") _ (List.mem_cons_of_mem _ List.mem_cons_self)
  obtain rfl := List.mem_singleton.mp hrow
  cases hscope

end Handleplan.PriceIngestion
