import Handleplan.Domain.Primitives
import Handleplan.Lib.JsMap
import Handleplan.Lib.Sorting

/-!
# Which products the price jobs fetch next

A price job asks for a page of the identifiers that are eligible, and fetches their prices. Which
page it is follows from the number of completed runs, so that run after run the pages rotate.

## Main definitions

* `WorkerTargets.priceTargetPageState` — where the page of a run begins.
* `WorkerTargets.getPriceGtins` — the page of a job that compares or records prices, from
  the identifiers in the order in which they were last refreshed.
* `WorkerTargets.getGapPriceGtins` — the page of the job that fills gaps, from the
  identifiers in their own order.
* `WorkerTargets.priceTargets`, `WorkerTargets.gapTargets` — what the
  providers of the jobs make of a page.
* `WorkerTargets.TargetDb.completeRun` — a completed run, which refreshes what its page
  returned.

## Implementation notes

The rows that a page query selects from are given, as a set of identifiers with the products they
identify. `limit * 1.2` is computed on floating-point numbers; for the limits that are accepted its
ceiling is that of the exact product.
-/

namespace Handleplan.WorkerTargets

open JsString Sorting

/-! ### Limits and rows -/

/-- `MAX_TARGETS`. -/
def maxTargets : ℕ := 500

/-- A limit that `requireLimit` and `requireTargetLimit` accept. -/
structure TargetLimit where
  val : ℕ
  pos : 1 ≤ val
  le : val ≤ maxTargets

/-- An identifier that the page queries select: verified, and of an active product. -/
structure EligibleIdentifier where
  value : JsString
  productId : ℕ

/-- The rows that a page query selects from. An index keeps their values distinct. -/
structure EligibleIdentifiers where
  rows : List EligibleIdentifier
  nodup : (rows.map EligibleIdentifier.value).Nodup

/-- `claimEligibility`, the class of the prices that a job records. -/
inductive ClaimEligibility where
  | historicalEligible | ordinaryOnly
  deriving DecidableEq

/-- The run types that share the cursor of `getPriceGtins`. -/
inductive PriceRunType where
  | benchmarkPrices | historicalPrices
  deriving DecidableEq

/-- `claimEligibilityForRunType`, of these run types. -/
def PriceRunType.claimEligibility : PriceRunType → ClaimEligibility
  | .benchmarkPrices => .ordinaryOnly
  | .historicalPrices => .historicalEligible

/-! ### Pages -/

/-- `Math.ceil(eligibleCount / pageLimit)`. -/
def pagesOf (eligibleCount pageLimit : ℕ) : ℕ := (eligibleCount + pageLimit - 1) / pageLimit

/-- `priceTargetPageState`. -/
def priceTargetPageState (completedRuns eligibleCount pageLimit : ℕ) : ℕ :=
  completedRuns % max (pagesOf eligibleCount pageLimit) 1 * pageLimit

/-- `values`. -/
def values (rows : List EligibleIdentifier) : List JsString :=
  (rows.map EligibleIdentifier.value).filter isValidGtin

/-- What the queries read of the database: the completed runs of the types that share a cursor, and
for each class of prices when a completed run last fetched one of a product. -/
structure TargetDb where
  completedRuns : ℕ
  lastRefreshed : ClaimEligibility → ℕ → Option ℤ

/-- `order by refresh.last_refreshed_at asc nulls first, identifier.value asc`. -/
def TargetDb.compareRows (db : TargetDb) (collation : Collation)
    (claimEligibility : ClaimEligibility) :
    EligibleIdentifier → EligibleIdentifier → Ordering :=
  compareLex (compareOn fun row => db.lastRefreshed claimEligibility row.productId)
    (on EligibleIdentifier.value collation.compare)

/-- `getPriceGtins`. -/
def getPriceGtins (collation : Collation) (eligible : EligibleIdentifiers) (limit : TargetLimit)
    (claimEligibility : ClaimEligibility) (db : TargetDb) : List JsString :=
  let offset := priceTargetPageState db.completedRuns eligible.rows.length limit.val
  values (((sortBy (db.compareRows collation claimEligibility) eligible.rows).drop offset).take
    limit.val)

/-- `Math.ceil(limit * 1.2)`. -/
def gapPageLimit (limit : TargetLimit) : ℕ := (6 * limit.val + 4) / 5

/-- `getGapPriceGtins`, whose cursor counts the completed benchmark runs of its own source. -/
def getGapPriceGtins (collation : Collation) (eligible : EligibleIdentifiers) (limit : TargetLimit)
    (completedRuns : ℕ) : List JsString :=
  let pageLimit := gapPageLimit limit
  let offset := priceTargetPageState completedRuns eligible.rows.length pageLimit
  values (((sortBy (on EligibleIdentifier.value collation.compare) eligible.rows).drop offset).take
    pageLimit)

/-! ### Providers -/

/-- `[...new Set(values)]`. -/
def unique (values : List JsString) : List JsString :=
  (JsMap.ofEntries (values.map fun value => (value, ()))).keys

/-- `canonicalTargets`, `none` when it throws. -/
def canonicalTargets (host : Host) (values : List JsString) (limit : TargetLimit) :
    Option (List JsString) :=
  if ∃ value ∈ values, isValidGtin value = false then none
  else some ((sortBy host.localeCompare (unique values)).take limit.val)

/-- A target of a price job. -/
structure PriceTarget where
  ean : JsString
  geographicScopeId : Option ℕ

/-- `getBenchmarkPriceTargets` and `getHistoricalObservationTargets` of
`PostgresKassalappTargetProvider`, with the answer of `getNationalPriceScopeId`. -/
def priceTargets (host : Host) (collation : Collation) (eligible : EligibleIdentifiers)
    (limit : TargetLimit) (geographicScopeId : Option ℕ) (runType : PriceRunType) (db : TargetDb) :
    Option (List PriceTarget) :=
  (canonicalTargets host (getPriceGtins collation eligible limit runType.claimEligibility db)
    limit).map fun eans => eans.map fun ean => ⟨ean, geographicScopeId⟩

/-- `getBenchmarkPriceTargets` of `PostgresOpenPricesTargetProvider`. -/
def gapTargets (host : Host) (collation : Collation) (eligible : EligibleIdentifiers)
    (limit : TargetLimit) (completedRuns : ℕ) : List PriceTarget :=
  let rawGtins := getGapPriceGtins collation eligible limit completedRuns
  ((sortBy host.localeCompare (unique (rawGtins.filter isValidGtin))).take limit.val).map
    fun ean => ⟨ean, none⟩

/-! ### Runs -/

/-- The products that targets identify. -/
def productIdsOf (eligible : EligibleIdentifiers) (targets : List PriceTarget) : List ℕ :=
  (eligible.rows.filter fun row => row.value ∈ targets.map PriceTarget.ean).map
    EligibleIdentifier.productId

/-- A completed run: its type, and when it fetched the price of each product. -/
structure PriceRun where
  runType : PriceRunType
  fetchedAt : ℕ → ℤ

/-- `max(observation.fetched_at)` with one more observation. -/
def latest (lastRefreshed : Option ℤ) (fetchedAt : ℤ) : ℤ :=
  lastRefreshed.elim fetchedAt (max · fetchedAt)

/-- The database after a run that was completed and has fetched a price of each product in
`productIds`. -/
def TargetDb.completeRun (db : TargetDb) (run : PriceRun) (productIds : List ℕ) : TargetDb where
  completedRuns := db.completedRuns + 1
  lastRefreshed claimEligibility productId :=
    if claimEligibility = run.runType.claimEligibility ∧ productId ∈ productIds then
      some (latest (db.lastRefreshed claimEligibility productId) (run.fetchedAt productId))
    else db.lastRefreshed claimEligibility productId

end Handleplan.WorkerTargets
