import Handleplan.Domain.PlanApiContracts

/-!
# The public catalog index

The catalog is discovered page by page. The database selects the catalog rows of a request, those
behind its cursor, in order and not too many; the rows of reviewed offers are read whole. The reader
merges both in the order of the catalog and hands out the first rows.

## Main definitions

* `PublicCatalog.CatalogState` — what the database holds at an instant.
* `PublicCatalog.matchingRows`, `PublicCatalog.IsScan` — the catalog rows of a
  request, and the answers of the database.
* `PublicCatalog.offerBackedEligibilityRow` — an offer row, if it is usable.
* `PublicCatalog.readDiscovery`, `PublicCatalog.readDiscoveryPage` — a page.

## Implementation notes

A catalog row is given by its columns and by what `classifyCatalogRow` says of it at the instant of
the read; the entries of its category path by their fields. Times are in milliseconds. The lower
case of the database, that of the runtime and the digest of a category are functions of the reader's
surroundings. Cancellation is left out.
-/

namespace Handleplan.PublicCatalog

open JsString

/-! ### Rows -/

/-- `CatalogRowClassification`. -/
inductive CatalogRowClassification where
  | eligible | ineligible | malformed
  deriving DecidableEq

/-- `CanonicalCategoryPathEntry`. -/
structure CategoryPathEntry where
  depth : ℕ
  name : JsString
  sourceCategoryId : ℕ

/-- `CatalogEligibilityRow`, with its category path. -/
structure CatalogRow where
  canonicalProductId : ℕ
  gtin : JsString
  displayName : JsString
  brand : Option JsString
  packageMeasure : Option PackageMeasure
  unitsPerPack : ℕ
  categoryPath : Option (List CategoryPathEntry)
  evidence : ExactProductPlanApiCatalogEvidence
  classification : CatalogRowClassification

/-- `DiscoveryCatalogEligibilityRow`. -/
structure DiscoveryRow extends CatalogRow where
  sortRank : ℕ
  sortName : JsString

/-- `OfferBackedRow`, the columns that are read. -/
structure OfferBackedRow where
  offerId : ℕ
  productId : ℕ
  productIsOfferBacked : Bool
  chain : JsString
  gtin : JsString
  displayName : JsString
  brand : Option JsString
  packageAmount : Option ℕ
  packageUnit : Option MeasureUnit
  unitsPerPack : ℕ
  capturedAt : ℤ
  identifierVerifiedAt : ℤ
  sourceId : JsString
  sourceDisplayName : JsString
  sourceRecordId : JsString
  deriving DecidableEq

/-- `OfferBackedCatalogEligibilityRow`: the product, from which the other columns are made. -/
structure OfferRow where
  canonicalProductId : ℕ
  product : ExactProductPlanApiProductSummary

/-! ### Requests and pages -/

/-- `PublicCatalogDiscoveryPosition`. -/
structure Position where
  gtin : JsString
  rank : ℕ
  sortName : JsString

/-- `PublicCatalogDiscoveryPageOptions`. -/
structure PageOptions where
  categoryId : Option JsString := none
  chain : Option JsString := none
  cursor : Option Position := none
  limit : ℕ
  query : Option JsString := none

/-- What a page is filtered by. -/
structure DiscoveryFilter where
  categoryId : Option JsString := none
  chain : Option JsString := none
  query : Option JsString := none

/-- `PublicCatalogCategory`. -/
structure PublicCatalogCategory where
  id : JsString
  depth : ℕ
  name : JsString
  sourceId : JsString

/-- `PublicCatalogDiscoveryEntry`. -/
structure DiscoveryEntry where
  catalogPosition : Position
  categoryPath : Option (List PublicCatalogCategory)
  product : ExactProductPlanApiProductSummary

/-- `PublicCatalogDiscoveryPage`. -/
structure DiscoveryPage where
  entries : List DiscoveryEntry
  hasMore : Bool
  nextPosition : Option Position
  scannedCount : ℕ

/-- `PublicCatalogIndexReaderErrorCode`. -/
inductive ReaderError where
  | invalidRequest | unavailable

/-- `DISCOVERY_SCAN_LIMIT_MAXIMUM`. -/
def discoveryScanLimitMaximum : ℕ := 50

/-- `DISCOVERY_SORT_NAME_MAX_LENGTH`. -/
def discoverySortNameMaxLength : ℕ := 500

/-- What `parseDiscoveryPosition` accepts. -/
def IsPosition (position : Position) : Prop :=
  isValidGtin position.gtin = true ∧ position.rank ≤ 4 ∧ 1 ≤ position.sortName.length ∧
    position.sortName.length ≤ discoverySortNameMaxLength

instance : DecidablePred IsPosition := fun _ => inferInstanceAs (Decidable (_ ∧ _ ∧ _ ∧ _))

/-- What `offerBackedPositionFromRow` accepts. -/
def IsOfferBackedPosition (position : Position) : Prop :=
  gtinShape position.gtin = true ∧ position.rank ≤ 4 ∧ 1 ≤ position.sortName.length ∧
    position.sortName.length ≤ discoverySortNameMaxLength

instance : DecidablePred IsOfferBackedPosition := fun _ => inferInstanceAs (Decidable (_ ∧ _ ∧ _ ∧ _))

/-- `normalizeQuery`. -/
def normalizeQuery (query : JsString) : Option JsString :=
  if 2 ≤ (trim query).length ∧ (trim query).length ≤ 120 then some (trim query) else none

/-- The letters of a digest. -/
def IsHex (s : JsString) : Prop := s.length = 64 ∧ ∀ u ∈ s, isDigit u = true ∨ (97 ≤ u ∧ u ≤ 102)

instance : DecidablePred IsHex := fun _ => inferInstanceAs (Decidable (_ ∧ _))

/-- What `parsePublicCategoryId` accepts. -/
def IsPublicCategoryId (categoryId : JsString) : Prop :=
  categoryId.take 9 = js "category:" ∧ IsHex (categoryId.drop 9)

instance : DecidablePred IsPublicCategoryId := fun _ => inferInstanceAs (Decidable (_ ∧ _))

/-- What `readDiscoveryPage` makes of its options. -/
def discoveryFilter (options : PageOptions) : Option DiscoveryFilter :=
  if options.limit < 1 ∨ discoveryScanLimitMaximum < options.limit then none
  else if ∃ categoryId ∈ options.categoryId, ¬ IsPublicCategoryId categoryId then none
  else if ∃ query ∈ options.query, normalizeQuery query = none then none
  else if ∃ cursor ∈ options.cursor, ¬ IsPosition cursor then none
  else some
    { categoryId := options.categoryId
      chain := options.chain
      query := options.query.bind normalizeQuery }

/-! ### Surroundings -/

/-- What the reader computes with. -/
structure Env where
  host : Host
  /-- `lower` of the database. -/
  lower : JsString → JsString
  /-- `publicCategoryId`, which the database computes alike. -/
  publicCategoryId : JsString → ℕ → JsString

/-- What the database holds for the reader at an instant: the observations of the catalog that are
not stale and of a source with a permission, those that go before others first; the rows of offers;
and which products have a price that is not stale in a chain. -/
structure CatalogState where
  observations : List CatalogRow
  offers : List OfferBackedRow
  freshPrice : ℕ → JsString → Bool

section Reader

variable (env : Env)

/-! ### Categories -/

/-- The public category of an entry. -/
def publicCategory (sourceId : JsString) (entry : CategoryPathEntry) : PublicCatalogCategory where
  id := env.publicCategoryId sourceId entry.sourceCategoryId
  depth := entry.depth
  name := entry.name
  sourceId := sourceId

/-- What `parseCategoryPathEntry` accepts. -/
def IsCategoryPathEntry (entry : CategoryPathEntry) : Prop :=
  entry.sourceCategoryId ≤ maxSafeInteger ∧ entry.depth ≤ 100 ∧
    1 ≤ entry.name.length ∧ entry.name.length ≤ 500 ∧ trim entry.name = entry.name

instance : DecidablePred IsCategoryPathEntry :=
  fun _ => inferInstanceAs (Decidable (_ ∧ _ ∧ _ ∧ _ ∧ _))

/-- The order of the entries of a path. -/
def CategoryPathEntry.Before (previous entry : CategoryPathEntry) : Prop :=
  previous.depth < entry.depth ∨
    previous.depth = entry.depth ∧ previous.sourceCategoryId < entry.sourceCategoryId

instance : DecidableRel CategoryPathEntry.Before := fun _ _ => inferInstanceAs (Decidable (_ ∨ _ ∧ _))

/-- What `parseCategoryPath` accepts. -/
@[mk_iff] structure IsCategoryPath (sourceId : JsString) (path : List CategoryPathEntry) : Prop where
  length : path.length ≤ 100
  entries : ∀ entry ∈ path, IsCategoryPathEntry entry
  order : path.IsChain CategoryPathEntry.Before
  ids : (path.map fun entry => entry.sourceCategoryId).Nodup
  publicIds : (path.map fun entry => env.publicCategoryId sourceId entry.sourceCategoryId).Nodup

instance (sourceId : JsString) : DecidablePred (IsCategoryPath env sourceId) :=
  fun _ => decidable_of_iff' _ (isCategoryPath_iff _ _ _)

/-- `parseCategoryPath`: `none` where the path is malformed, `some none` where there is none. -/
def parseCategoryPath (value : Option (List CategoryPathEntry)) (sourceId : JsString) :
    Option (Option (List PublicCatalogCategory)) :=
  match value with
  | none => some none
  | some path =>
    if IsCategoryPath env sourceId path then some (some (path.map (publicCategory env sourceId)))
    else none

/-- What `canonicalIdentifier` accepts. -/
def IsCanonicalIdentifier (maximumLength : ℕ) (value : JsString) : Prop :=
  1 ≤ value.length ∧ value.length ≤ maximumLength

instance (maximumLength : ℕ) : DecidablePred (IsCanonicalIdentifier maximumLength) :=
  fun _ => inferInstanceAs (Decidable (_ ∧ _))

/-- The category path that a row is shown with. -/
def categoryPathOf (row : CatalogRow) : Option (Option (List PublicCatalogCategory)) :=
  if IsCanonicalIdentifier 64 row.evidence.source.id then
    parseCategoryPath env row.categoryPath row.evidence.source.id
  else none

/-! ### Summaries -/

/-- A summary as its schema trims it. -/
def trimSummary (summary : ExactProductPlanApiProductSummary) : ExactProductPlanApiProductSummary :=
  { summary with
    displayName := trim summary.displayName
    brand := summary.brand.map trim
    catalogEvidence :=
      { summary.catalogEvidence with
        source :=
          { summary.catalogEvidence.source with
            id := trim summary.catalogEvidence.source.id
            displayName := trim summary.catalogEvidence.source.displayName } } }

/-- The summary of a row. -/
def catalogSummary (row : CatalogRow) : ExactProductPlanApiProductSummary where
  catalogEvidence := row.evidence
  gtin := row.gtin
  displayName := row.displayName
  brand := row.brand
  packageMeasure := row.packageMeasure
  unitsPerPack := row.unitsPerPack

/-- `catalogSummaryFromRow`. -/
def catalogSummaryFromRow (row : CatalogRow) : Option ExactProductPlanApiProductSummary :=
  if ExactProductPlanApiProductSummarySchema (trimSummary (catalogSummary row)) then
    some (trimSummary (catalogSummary row))
  else none

/-- `OFFICIAL_OFFER_SOURCE_RECORD_PREFIX`. -/
def officialOfferSourceRecordPrefix : JsString := js "official-source-record:"

/-- The summary of an offer row. -/
def offerBackedSummary (row : OfferBackedRow) : ExactProductPlanApiProductSummary where
  catalogEvidence :=
    { observedAt := row.capturedAt
      source :=
        { id := row.sourceId
          displayName := row.sourceDisplayName
          sourceClass := .offer }
      sourceRecordId := js "source-record:" ++
        row.sourceRecordId.drop officialOfferSourceRecordPrefix.length }
  gtin := row.gtin
  displayName := row.displayName
  brand := row.brand.filter fun brand => decide (IsCanonicalIdentifier 160 brand)
  packageMeasure :=
    match row.packageAmount, row.packageUnit with
    | some amount, some unit => if PositiveSafeInteger amount then some ⟨amount, unit⟩ else none
    | _, _ => none
  unitsPerPack := row.unitsPerPack

/-- What `offerBackedSummaryFromRow` checks before the schema. -/
@[mk_iff] structure IsOfferBackedRow (row : OfferBackedRow) : Prop where
  gtin : gtinShape row.gtin = true
  sourceId : IsCanonicalIdentifier 64 row.sourceId
  displayName : IsCanonicalIdentifier 240 row.displayName
  unitsPerPack : PositiveSafeInteger row.unitsPerPack
  verifiedAt : row.identifierVerifiedAt ≤ row.capturedAt
  sourceDisplayName : IsCanonicalIdentifier 160 row.sourceDisplayName
  sourceRecordId : officialOfferSourceRecordPrefix <+: row.sourceRecordId ∧
    IsHex (row.sourceRecordId.drop officialOfferSourceRecordPrefix.length)

instance : DecidablePred IsOfferBackedRow := fun _ => decidable_of_iff' _ (isOfferBackedRow_iff _)

/-- Whether the schema finds nothing wrong but the GTIN. -/
def ParsesButGtin (summary : ExactProductPlanApiProductSummary) : Prop :=
  ExactProductPlanApiProductSummarySchema { summary with gtin := js "00000000" }

instance : DecidablePred ParsesButGtin :=
  fun _ => inferInstanceAs (Decidable (ExactProductPlanApiProductSummarySchema _))

/-- `offerBackedSummaryFromRow`. A GTIN whose check digit is wrong is let through, and then nothing
is trimmed. -/
def offerBackedSummaryFromRow (row : OfferBackedRow) : Option ExactProductPlanApiProductSummary :=
  if ¬ IsOfferBackedRow row then none
  else if ExactProductPlanApiProductSummarySchema (trimSummary (offerBackedSummary row)) then
    some (trimSummary (offerBackedSummary row))
  else if ParsesButGtin (trimSummary (offerBackedSummary row)) then some (offerBackedSummary row)
  else none

/-- `offerBackedEligibilityRow`. -/
def offerBackedEligibilityRow (row : OfferBackedRow) : Option OfferRow :=
  if PositiveSafeInteger row.productId ∧ PositiveSafeInteger row.offerId ∧
      row.productIsOfferBacked = true then
    (offerBackedSummaryFromRow row).map fun product => ⟨row.productId, product⟩
  else none

/-- `sort_name` of an offer row. -/
def OfferRow.sortName (row : OfferRow) : JsString := env.host.toLocaleLowerCase row.product.displayName

/-- `summaryMatchesQuery`. -/
def summaryMatchesQuery (summary : ExactProductPlanApiProductSummary) (query : JsString) : Prop :=
  summary.gtin = query ∨
    env.host.toLocaleLowerCase query <:+: env.host.toLocaleLowerCase summary.displayName ∨
      ∃ brand ∈ summary.brand, env.host.toLocaleLowerCase query <:+: env.host.toLocaleLowerCase brand

instance (summary : ExactProductPlanApiProductSummary) (query : JsString) :
    Decidable (summaryMatchesQuery env summary query) := inferInstanceAs (Decidable (_ ∨ _ ∨ _))

/-! ### The database read -/

/-- What no two rows of an answer share. -/
inductive CatalogKey where
  | gtin (gtin : JsString)
  | product (productId : ℕ)
  deriving DecidableEq

/-- The key of a product, for a query. -/
def catalogKey (query : Option JsString) (productId : ℕ) (gtin : JsString) : CatalogKey :=
  if ∃ q ∈ query, isValidGtin q = true then .gtin gtin else .product productId

/-- The elements of a list that are the first with their key. -/
def firstPer {α κ : Type} [DecidableEq κ] (key : α → κ) : List α → List α
  | [] => []
  | a :: l => a :: (firstPer key l).filter fun b => decide (key b ≠ key a)

/-- `latest_catalog`. -/
def latestCatalog (query : Option JsString) (state : CatalogState) : List CatalogRow :=
  firstPer (fun row => catalogKey query row.canonicalProductId row.gtin) state.observations

/-- The filter on categories. -/
def InCategory (categoryId : JsString) (row : CatalogRow) : Prop :=
  ∃ path ∈ row.categoryPath, ∃ entry ∈ path,
    env.publicCategoryId row.evidence.source.id entry.sourceCategoryId = categoryId

instance (categoryId : JsString) : DecidablePred (InCategory env categoryId) :=
  fun row => decidable_of_iff (∃ path ∈ row.categoryPath.toList, ∃ entry ∈ path,
    env.publicCategoryId row.evidence.source.id entry.sourceCategoryId = categoryId)
    (by simp [InCategory])

/-- The filter on the query. -/
def MatchesSearch (query : JsString) (row : CatalogRow) : Prop :=
  row.gtin = query ∨ env.lower query <:+: env.lower row.displayName ∨
    env.lower query <:+: env.lower (row.brand.getD [])

instance (query : JsString) : DecidablePred (MatchesSearch env query) :=
  fun _ => inferInstanceAs (Decidable (_ ∨ _ ∨ _))

/-- `category_candidates`. -/
def IsCandidate (filter : DiscoveryFilter) (state : CatalogState) (row : CatalogRow) : Prop :=
  (∀ categoryId ∈ filter.categoryId, InCategory env categoryId row) ∧
    (∀ query ∈ filter.query, MatchesSearch env query row) ∧
      ∀ chain ∈ filter.chain, state.freshPrice row.canonicalProductId chain = true

instance (filter : DiscoveryFilter) (state : CatalogState) :
    DecidablePred (IsCandidate env filter state) := fun _ => inferInstanceAs (Decidable (_ ∧ _ ∧ _))

/-- `sort_rank`. -/
def sortRank (query : Option JsString) (row : CatalogRow) : ℕ :=
  match query with
  | none => 0
  | some query =>
    if row.gtin = query ∨ env.lower row.displayName = env.lower query then 0
    else if env.lower query <+: env.lower row.displayName then 1
    else if env.lower (row.brand.getD []) = env.lower query then 2
    else if env.lower query <+: env.lower (row.brand.getD []) then 3
    else 4

/-- `ordered_candidates`: the catalog rows of a request. -/
def matchingRows (filter : DiscoveryFilter) (state : CatalogState) : List DiscoveryRow :=
  ((latestCatalog filter.query state).filter fun row => decide (IsCandidate env filter state row)).map
    fun row =>
      { toCatalogRow := row
        sortRank := sortRank env filter.query row
        sortName := env.lower row.displayName }

/-- The code points of a text. -/
def codePoints : JsString → List ℕ
  | [] => []
  | [u] => [u.toNat]
  | u :: v :: rest =>
    if 0xD800 ≤ u ∧ u < 0xDC00 ∧ 0xDC00 ≤ v ∧ v < 0xE000 then
      (0x10000 + (u.toNat - 0xD800) * 1024 + (v.toNat - 0xDC00)) :: codePoints rest
    else u.toNat :: codePoints (v :: rest)

/-- The order of the bytes of two texts in UTF-8, which is that of their code points. -/
def compareBytes (left right : JsString) : Ordering := compare (codePoints left) (codePoints right)

instance : Std.TransCmp compareBytes :=
  inferInstanceAs (Std.TransCmp (Sorting.on codePoints compare))

/-- The position of a row. -/
def DiscoveryRow.position (row : DiscoveryRow) : Position := ⟨row.gtin, row.sortRank, row.sortName⟩

/-- `order by sort_rank, sort_name collate "C", gtin`. -/
def comparePositionsInDatabase : Position → Position → Ordering :=
  compareLex (compareOn fun position => position.rank)
    (compareLex (Sorting.on (fun position => position.sortName) compareBytes)
      (Sorting.on (fun position => position.gtin) compareText))

instance : Std.TransCmp comparePositionsInDatabase :=
  inferInstanceAs (Std.TransCmp (compareLex _ (compareLex _ _)))

/-- `cursor_candidates`. -/
def cursorCandidates (cursor : Option Position) (rows : List DiscoveryRow) : List DiscoveryRow :=
  rows.filter fun row => cursor.all fun cursor => comparePositionsInDatabase cursor row.position == .lt

/-- The answers of the database: the first rows behind the cursor, in order. -/
def IsScan (filter : DiscoveryFilter) (cursor : Option Position) (state : CatalogState)
    (rows : List DiscoveryRow) : Prop :=
  ∃ ordered : List DiscoveryRow, ordered.Perm (cursorCandidates cursor (matchingRows env filter state)) ∧
    ordered.Pairwise (fun left right =>
      (comparePositionsInDatabase left.position right.position).isLE = true) ∧
    rows = ordered.take (discoveryScanLimitMaximum + 1)

/-- An answer of the database. -/
def scan (filter : DiscoveryFilter) (cursor : Option Position) (state : CatalogState) :
    List DiscoveryRow :=
  (Sorting.sortBy (Sorting.on DiscoveryRow.position comparePositionsInDatabase)
    (cursorCandidates cursor (matchingRows env filter state))).take (discoveryScanLimitMaximum + 1)

/-! ### Merging -/

/-- The usable offer rows, in order. -/
def offerRows (offers : List OfferBackedRow) : List OfferRow :=
  Sorting.sortBy
    (compareLex (Sorting.on (OfferRow.sortName env) compareText)
      (Sorting.on (fun row => row.product.gtin) compareText))
    (offers.filterMap offerBackedEligibilityRow)

/-- A row of the merged order. -/
inductive Candidate where
  | catalog (row : DiscoveryRow)
  | offer (row : OfferRow)

namespace Candidate

/-- `canonical_product_id`. -/
def productId : Candidate → ℕ
  | catalog row => row.canonicalProductId
  | offer row => row.canonicalProductId

/-- What a candidate is ordered by. -/
def position : Candidate → Position
  | catalog row => row.position
  | offer row => ⟨row.product.gtin, 0, row.sortName env⟩

end Candidate

/-- The order of the merged rows. -/
def comparePositions : Position → Position → Ordering :=
  compareLex (compareOn fun position => position.rank)
    (compareLex (Sorting.on (fun position => position.sortName) compareText)
      (Sorting.on (fun position => position.gtin) compareText))

instance : Std.TransCmp comparePositions :=
  inferInstanceAs (Std.TransCmp (compareLex _ (compareLex _ _)))

/-- `mergedCandidates`. -/
def mergedCandidates (filter : DiscoveryFilter) (rows : List DiscoveryRow) (offers : List OfferRow) :
    List Candidate :=
  let seenCatalogKeys := rows.map fun row => catalogKey filter.query row.canonicalProductId row.gtin
  Sorting.sortBy (Sorting.on (Candidate.position env) comparePositions)
    (rows.map .catalog ++ (offers.filter fun row =>
      decide (filter.categoryId = none ∧
        catalogKey filter.query row.canonicalProductId row.product.gtin ∉ seenCatalogKeys)).map .offer)

/-! ### A page -/

/-- `canonicalProductIds` and `gtins`. -/
structure Seen where
  canonicalProductIds : List ℕ := []
  gtins : List JsString := []

/-- Whether a product or a GTIN was seen. -/
def Seen.Has (seen : Seen) (productId : ℕ) (gtin : JsString) : Prop :=
  productId ∈ seen.canonicalProductIds ∨ gtin ∈ seen.gtins

instance (seen : Seen) (productId : ℕ) (gtin : JsString) : Decidable (seen.Has productId gtin) :=
  inferInstanceAs (Decidable (_ ∨ _))

/-- A product and a GTIN are seen. -/
def Seen.add (seen : Seen) (productId : ℕ) (gtin : JsString) : Seen :=
  ⟨productId :: seen.canonicalProductIds, gtin :: seen.gtins⟩

/-- An offer row is of a product and a GTIN that were not seen. -/
def Seen.see (seen : Seen) (row : OfferRow) : Except ReaderError Seen :=
  if seen.Has row.canonicalProductId row.product.gtin then .error .unavailable
  else .ok (seen.add row.canonicalProductId row.product.gtin)

variable (offers : List OfferRow)

/-- The loop over the offer rows. -/
def seeOffers : Except ReaderError Seen := offers.foldlM Seen.see {}

/-- `offerRowsByIdSummary.get(id)`. -/
def offerOf (productId : ℕ) : Option OfferRow :=
  offers.reverse.find? fun row => decide (row.canonicalProductId = productId)

variable (candidate : Candidate)

/-- Whether a candidate is of a product of `offerBackedRowsById`. -/
def IsOffered : Prop :=
  candidate.productId ∈ offers.map fun row => row.canonicalProductId

instance (offers : List OfferRow) : DecidablePred (IsOffered offers) :=
  fun _ => inferInstanceAs (Decidable (_ ∈ _))

/-- `positionFromRow` or `offerBackedPositionFromRow`. -/
def positionOf : Option Position :=
  if IsOffered offers candidate then
    if IsOfferBackedPosition (candidate.position env) then some (candidate.position env) else none
  else if IsPosition (candidate.position env) then some (candidate.position env) else none

/-- What `classifyCatalogRow` says of a candidate; offer rows are active. -/
def Candidate.classification : Candidate → CatalogRowClassification
  | catalog row => row.classification
  | offer _ => .eligible

/-- The category path that a candidate is shown with. -/
def Candidate.categoryPath : Candidate → Option (Option (List PublicCatalogCategory))
  | catalog row => categoryPathOf env row.toCatalogRow
  | offer row =>
    if IsCanonicalIdentifier 64 row.product.catalogEvidence.source.id then some none else none

/-- The product that a candidate is shown with: that of its offer, unless it has a category path. -/
def shownProduct (categoryPath : Option (List PublicCatalogCategory)) :
    Option ExactProductPlanApiProductSummary :=
  if IsOffered offers candidate ∧ categoryPath = none then
    (offerOf offers candidate.productId).map fun row => row.product
  else
    match candidate with
    | .catalog row => catalogSummaryFromRow row.toCatalogRow
    | .offer row => some row.product

/-- The loop over the rows of a page, on one of them. -/
def pageStep (filter : DiscoveryFilter) (offers : List OfferRow) (state : Seen × List DiscoveryEntry)
    (candidate : Candidate) : Except ReaderError (Seen × List DiscoveryEntry) :=
  match positionOf env offers candidate with
  | none => .error .unavailable
  | some position =>
    if ¬ IsOffered offers candidate ∧ candidate.classification = .malformed then .error .unavailable
    else if ¬ IsOffered offers candidate ∧ candidate.classification = .ineligible then .ok state
    else
      match candidate.categoryPath env with
      | none => .error .unavailable
      | some categoryPath =>
        if ∃ categoryId ∈ filter.categoryId,
            ∀ path ∈ categoryPath, ∀ category ∈ path, category.id ≠ categoryId then
          .error .unavailable
        else if ¬ IsOffered offers candidate ∧
            state.1.Has candidate.productId (candidate.position env).gtin then .error .unavailable
        else
          match shownProduct offers candidate categoryPath with
          | none => .error .unavailable
          | some product =>
            if ∃ query ∈ filter.query, ¬ summaryMatchesQuery env product query then
              .error .unavailable
            else .ok (state.1.add candidate.productId (candidate.position env).gtin,
              state.2 ++ [⟨position, categoryPath, product⟩])

/-- `readDiscovery`, with the answer of the database and the rows of offers. -/
def readDiscovery (filter : DiscoveryFilter) (limit : ℕ) (rows : List DiscoveryRow)
    (offers : List OfferBackedRow) : Except ReaderError DiscoveryPage := do
  if discoveryScanLimitMaximum + 1 < rows.length then
    throw .unavailable
  let offers := offerRows env offers
  let seen ← seeOffers offers
  if ¬ (rows.map fun row => catalogKey filter.query row.canonicalProductId row.gtin).Nodup then
    throw .unavailable
  let merged := mergedCandidates env filter rows offers
  let pageCandidates := merged.take limit
  let (_, entries) ← pageCandidates.foldlM (pageStep env filter offers) (seen, [])
  let hasMore := decide (limit < merged.length)
  return {
    entries := Sorting.sortBy (Sorting.on DiscoveryEntry.catalogPosition comparePositions) entries
    hasMore := hasMore
    nextPosition :=
      if hasMore then pageCandidates.getLast?.bind (positionOf env offers) else none
    scannedCount := min merged.length limit }

/-- `readDiscoveryPage`, with the answer of the database to a request that is valid. Without
`offerBackedDiscoveryEnabled` no rows of offers are read. -/
def readDiscoveryPage (offerBackedDiscoveryEnabled : Bool) (state : CatalogState)
    (options : PageOptions) (rows : List DiscoveryRow) : Except ReaderError DiscoveryPage :=
  match discoveryFilter options with
  | none => .error .invalidRequest
  | some filter =>
    readDiscovery env filter options.limit rows
      (if offerBackedDiscoveryEnabled then state.offers else [])

end Reader

end Handleplan.PublicCatalog
