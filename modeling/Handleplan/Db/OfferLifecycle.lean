import Handleplan.Lib.JsString
import Handleplan.Lib.RowLocks

/-!
# The publication lifecycle of official offers

A lifecycle run locks a page of the offers of its source, asks the public projection which of them
are still public, and expires or revokes the others; then it publishes approved offers. Meanwhile
other transactions update the products, identifiers and scopes that the projection reads.

## Main definitions

* `OfferLifecycle.IsEligible` — the public projection, for one offer as of a clock.
* `OfferLifecycle.officialOfferLifecycleReconcileV1` — a lifecycle run.
* `OfferLifecycle.updateCatalog` — an update of products, identifiers and scopes.
* `OfferLifecycle.access` — the locks and the writes of the statements.
* `OfferLifecycle.database` — the functions over the tables.

## Implementation notes

Times are microseconds, as `timestamptz` keeps them, and statements see what is committed when they
are answered, as `READ COMMITTED` has it. The rows that an approval binds together (target,
candidate, extraction, capture, publication, review, conditions, source and permission) do not
change while these functions interleave, so that an offer carries what the projection reads of them:
their clocks and whether they agree. Which offers of a source a page holds is left open, as are the
lease of a run, the publication policy and whether a retired offer is expired or revoked.
-/

namespace Handleplan.OfferLifecycle

open Interaction Sessions RowLocks

/-! ### Rows -/

/-- `status` of `approved_offers`. -/
inductive OfferStatus where
  | approved | published | expired | revoked
  deriving DecidableEq

/-- What an approval fixes about an offer, and what the projection reads of the rows it binds. -/
structure OfferTerms where
  id : ℕ
  sourceId : JsString
  productId : ℕ
  geographicScopeId : ℕ
  gtin : JsString
  /-- In microseconds, like the clocks below. -/
  validFrom : ℤ
  validUntil : ℤ
  /-- `retrieved_at` of the capture. -/
  retrievedAt : ℤ
  /-- The creation, review and permission clocks of the bound rows. -/
  clocks : List ℤ
  /-- When the permission of the source ends, if it does. -/
  expiries : List ℤ
  /-- Whether the bound rows agree with one another, apart from their clocks. -/
  isBound : Bool
  deriving DecidableEq

/-- A version of a row of `approved_offers`. -/
structure OfferRow where
  terms : OfferTerms
  status : OfferStatus
  updatedAt : ℤ
  deriving DecidableEq

/-- A version of a row of `canonical_products`. -/
structure ProductRow where
  id : ℕ
  isActive : Bool
  createdAt : ℤ
  publicStateChangedAt : ℤ
  deriving DecidableEq

/-- A version of a row of `geographic_scopes`. -/
structure ScopeRow where
  id : ℕ
  isActive : Bool
  createdAt : ℤ
  publicStateChangedAt : ℤ
  deriving DecidableEq

/-- A version of a row of `product_identifiers`; its product does not change. -/
structure IdentifierRow where
  productId : ℕ
  id : ℕ
  value : JsString
  /-- Whether the scheme is that of the length of the value, which is a GTIN. -/
  isGtin : Bool
  confidence : ℕ
  verifiedAt : Option ℤ
  createdAt : ℤ
  publicStateChangedAt : ℤ
  deriving DecidableEq

/-- A version of a row that a catalog update writes. -/
inductive CatalogRow where
  | product (row : ProductRow)
  | scope (row : ScopeRow)
  | identifier (row : IdentifierRow)
  deriving DecidableEq

/-- A version of a row. -/
inductive Row where
  | offer (row : OfferRow)
  | catalog (row : CatalogRow)
  deriving DecidableEq

/-- What is locked: a row of a table, or a source as a whole. -/
inductive RowKey where
  | source (sourceId : JsString)
  | offer (id : ℕ)
  | product (id : ℕ)
  | scope (id : ℕ)
  | identifier (productId id : ℕ)
  deriving DecidableEq

/-- The row that a version is of. -/
def CatalogRow.key : CatalogRow → RowKey
  | .product row => .product row.id
  | .scope row => .scope row.id
  | .identifier row => .identifier row.productId row.id

/-- `created_at`. -/
def CatalogRow.createdAt : CatalogRow → ℤ
  | .product row => row.createdAt
  | .scope row => row.createdAt
  | .identifier row => row.createdAt

/-- `stamp_public_state_change`. -/
def CatalogRow.stamp (now : ℤ) : CatalogRow → CatalogRow
  | .product row => .product { row with publicStateChangedAt := now }
  | .scope row => .scope { row with publicStateChangedAt := now }
  | .identifier row => .identifier { row with publicStateChangedAt := now }

/-- Versions of rows, as they are written. -/
abbrev Writes := List (RowKey × Row)

/-- An offer, if a version is of one. -/
def Row.offer? : Row → Option OfferRow
  | .offer row => some row
  | _ => none

/-- A product, if a version is of one. -/
def Row.product? : Row → Option ProductRow
  | .catalog (.product row) => some row
  | _ => none

/-- A scope, if a version is of one. -/
def Row.scope? : Row → Option ScopeRow
  | .catalog (.scope row) => some row
  | _ => none

/-- An identifier, if a version is of one. -/
def Row.identifier? : Row → Option IdentifierRow
  | .catalog (.identifier row) => some row
  | _ => none

variable (writes : Writes)

/-- An offer as it is now. -/
def currentOffer (id : ℕ) : Option OfferRow :=
  (Access.current writes (.offer id)).bind Row.offer?

/-- A product as it is now. -/
def currentProduct (id : ℕ) : Option ProductRow :=
  (Access.current writes (.product id)).bind Row.product?

/-- A scope as it is now. -/
def currentScope (id : ℕ) : Option ScopeRow :=
  (Access.current writes (.scope id)).bind Row.scope?

/-- The identifiers of a product. -/
def identifierKeys (productId : ℕ) : List ℕ :=
  writes.filterMap fun w =>
    match w.1 with
    | .identifier p id => if p = productId then some id else none
    | _ => none

/-- An identifier of a product as it is now. -/
def currentIdentifier (productId id : ℕ) : Option IdentifierRow :=
  (Access.current writes (.identifier productId id)).bind Row.identifier?

/-! ### The public projection -/

/-- Whether an identifier establishes a GTIN as of a clock. -/
@[mk_iff] structure Establishes (gtin : JsString) (asOf : ℤ) (row : IdentifierRow) : Prop where
  value : row.value = gtin
  isGtin : row.isGtin = true
  confidence : row.confidence = 100
  verifiedAt : ∃ t ∈ row.verifiedAt, t ≤ asOf
  createdAt : row.createdAt ≤ asOf
  publicStateChangedAt : row.publicStateChangedAt ≤ asOf

instance (row : IdentifierRow) (asOf : ℤ) : Decidable (∃ t ∈ row.verifiedAt, t ≤ asOf) :=
  match row.verifiedAt with
  | none => isFalse (by simp)
  | some t => decidable_of_iff (t ≤ asOf) (by simp)

instance (gtin : JsString) (asOf : ℤ) : DecidablePred (Establishes gtin asOf) :=
  fun _ => decidable_of_iff' _ (establishes_iff _ _ _)

/-- Whether a product is public as of a clock. -/
def IsPublicProduct (asOf : ℤ) (row : ProductRow) : Prop :=
  row.isActive = true ∧ row.createdAt ≤ asOf ∧ row.publicStateChangedAt ≤ asOf

/-- Whether a scope is public as of a clock. -/
def IsPublicScope (asOf : ℤ) (row : ScopeRow) : Prop :=
  row.isActive = true ∧ row.createdAt ≤ asOf ∧ row.publicStateChangedAt ≤ asOf

instance (asOf : ℤ) : DecidablePred (IsPublicProduct asOf) :=
  fun _ => inferInstanceAs (Decidable (_ ∧ _ ∧ _))

instance (asOf : ℤ) : DecidablePred (IsPublicScope asOf) :=
  fun _ => inferInstanceAs (Decidable (_ ∧ _ ∧ _))

/-- How old a capture may be: 14 days. -/
def maxCaptureAge : ℤ := 14 * 24 * 60 * 60 * 1000000

/-- **The public projection** `public_official_offer_rows_v1`, for one offer: whether it is eligible
as of a clock, when the clock of the database is `now`. -/
@[mk_iff] structure IsEligible (writes : Writes) (asOf now : ℤ) (offer : OfferRow) : Prop where
  status : offer.status = .published
  started : offer.terms.validFrom ≤ asOf
  ends : asOf < offer.terms.validUntil
  updatedAt : offer.updatedAt ≤ asOf
  clocks : ∀ t ∈ offer.terms.clocks, t ≤ asOf
  expiries : ∀ t ∈ offer.terms.expiries, asOf < t ∧ now < t
  retrievedAt : offer.terms.retrievedAt ≤ asOf ∧ asOf - maxCaptureAge ≤ offer.terms.retrievedAt
  isBound : offer.terms.isBound = true
  product : ∃ row ∈ (currentProduct writes offer.terms.productId).toList, IsPublicProduct asOf row
  scope : ∃ row ∈ (currentScope writes offer.terms.geographicScopeId).toList, IsPublicScope asOf row
  identifier : ∃ id ∈ identifierKeys writes offer.terms.productId,
    ∃ row ∈ (currentIdentifier writes offer.terms.productId id).toList,
      Establishes offer.terms.gtin asOf row

instance (writes : Writes) (asOf now : ℤ) : DecidablePred (IsEligible writes asOf now) :=
  fun _ => decidable_of_iff' _ (isEligible_iff _ _ _ _)

/-- The offers as they are now. -/
def currentOffers (writes : Writes) : List OfferRow :=
  (writes.filterMap fun w => (w.2.offer?).map fun row => row.terms.id).dedup.filterMap
    (currentOffer writes)

/-- The eligible offers of a product. -/
def eligibleOffers (writes : Writes) (productId : ℕ) (asOf now : ℤ) : List OfferRow :=
  (currentOffers writes).filter fun offer =>
    offer.terms.productId = productId ∧ IsEligible writes asOf now offer

/-- Whether the projection of its product shows an offer, with at most fifty others: the clock that
is asked for is capped to the clock of the database. -/
def IsProjected (writes : Writes) (asOf now : ℤ) (id : ℕ) : Prop :=
  ∃ offer ∈ (currentOffer writes id).toList, IsEligible writes (min asOf now) now offer ∧
    (eligibleOffers writes offer.terms.productId (min asOf now) now).length ≤ 50

instance (writes : Writes) (asOf now : ℤ) : DecidablePred (IsProjected writes asOf now) :=
  fun _ => inferInstanceAs (Decidable (∃ offer ∈ _, _ ∧ _))

/-! ### Statements -/

/-- Which reading of the clock is kept. -/
inductive ClockReading where
  /-- `v_started_at`, after the source is locked. -/
  | startedAt
  /-- `v_publication_projection_as_of`. -/
  | projectionAsOf
  /-- `statement_timestamp()` of an update. -/
  | statement

/-- How a run begins: its job may be replayed, or its lease held by another run. -/
inductive JobLease where
  | replayed | unavailable | leased
  deriving DecidableEq

/-- The statements of the functions. -/
inductive Query where
  | clockTimestamp (reading : ClockReading)
  | acquireLease (sourceId : JsString)
  | lockSource (sourceId : JsString)
  | publicationEnabled
  | sourceIsCurrent (sourceId : JsString) (asOf : ℤ)
  | selectExpiryPage (sourceId : JsString) (asOf : ℤ) (batchLimit : ℕ)
  | selectPublicationPage (sourceId : JsString) (asOf : ℤ) (batchLimit : ℕ)
  | shareScopes (scopeIds : List ℕ)
  | lockProducts (productIds : List ℕ)
  | shareIdentifiers (productIds : List ℕ)
  | visibleOffers (offerIds : List ℕ) (asOf : ℤ)
  | publish (offerIds : List ℕ)
  | retire (offerIds visibleIds : List ℕ) (approvedToo : Bool)
  | completesInLease
  | write (row : CatalogRow)
  | insertOffer (terms : OfferTerms)

/-- What a statement answers. A page answers its offers, a lock of identifiers the identifiers, an
update of offers their new versions, and a write of the catalog whether the row is new. -/
def Answer : Query → Type
  | .clockTimestamp _ => ℤ
  | .acquireLease _ => JobLease
  | .lockSource _ => Bool
  | .publicationEnabled => Bool
  | .sourceIsCurrent _ _ => Bool
  | .selectExpiryPage _ _ _ => List OfferRow
  | .selectPublicationPage _ _ _ => List OfferRow
  | .shareScopes _ => Unit
  | .lockProducts _ => Unit
  | .shareIdentifiers _ => List (ℕ × ℕ)
  | .visibleOffers _ _ => List ℕ
  | .publish _ => List OfferRow
  | .retire _ _ _ => List OfferRow
  | .completesInLease => Bool
  | .write _ => Bool
  | .insertOffer _ => ℤ

/-- The conditions that the functions raise. -/
inductive LifecycleError where
  | invalidRequest | sourceNotFound | leaseExpired | checkViolation

/-- A function of the database. -/
abbrev Program := Prog Query Answer LifecycleError

/-- One statement. -/
def ask (query : Query) : Program (Answer query) := Prog.query query

/-! ### A lifecycle run -/

/-- The arguments of `official_offer_lifecycle_reconcile_v1`, less the identity of the job. -/
structure LifecycleRequest where
  sourceId : JsString
  batchLimit : ℕ
  publicationRequested : Bool

/-- The locks on what the projection reads of the offers of a page. -/
def lockPage (page : List OfferRow) : Program Unit := do
  let _ : Unit ← ask (.shareScopes (page.map fun offer => offer.terms.geographicScopeId))
  let _ : Unit ← ask (.lockProducts (page.map fun offer => offer.terms.productId))
  let _ : List (ℕ × ℕ) ←
    ask (.shareIdentifiers (page.map fun offer => offer.terms.productId))
  pure ()

variable (request : LifecycleRequest)

/-- Offers that have ended, or that the projection no longer shows, are retired. -/
def expirePage (startedAt : ℤ) : Program Unit := do
  let page : List OfferRow ←
    ask (.selectExpiryPage request.sourceId startedAt request.batchLimit)
  if page = [] then pure ()
  else do
    lockPage page
    let ids := page.map fun offer => offer.terms.id
    let visible : List ℕ ← ask (.visibleOffers ids startedAt)
    let _ : List OfferRow ← ask (.retire ids visible true)
    pure ()

/-- Approved offers are published, and those that the projection does not show then are retired. -/
def publishPage (startedAt : ℤ) : Program Unit := do
  let page : List OfferRow ←
    ask (.selectPublicationPage request.sourceId startedAt request.batchLimit)
  if page = [] then pure ()
  else do
    lockPage page
    let ids := page.map fun offer => offer.terms.id
    let _ : List OfferRow ← ask (.publish ids)
    let asOf : ℤ ← ask (.clockTimestamp .projectionAsOf)
    let visible : List ℕ ← ask (.visibleOffers ids asOf)
    let _ : List OfferRow ← ask (.retire ids visible false)
    pure ()

/-- A run that has its lease. -/
def reconcile : Program Unit := do
  let found : Bool ← ask (.lockSource request.sourceId)
  Prog.require (found = true) .sourceNotFound
  let startedAt : ℤ ← ask (.clockTimestamp .startedAt)
  let enabled : Bool ← ask .publicationEnabled
  let current : Bool ← ask (.sourceIsCurrent request.sourceId startedAt)
  expirePage request startedAt
  if request.publicationRequested = true ∧ enabled = true ∧ current = true then
    publishPage request startedAt
  let inTime : Bool ← ask .completesInLease
  Prog.require (inTime = true) .leaseExpired

/-- `official_offer_lifecycle_reconcile_v1`. -/
def officialOfferLifecycleReconcileV1 : Program Unit := do
  Prog.require (1 ≤ request.batchLimit ∧ request.batchLimit ≤ 50) .invalidRequest
  let lease : JobLease ← ask (.acquireLease request.sourceId)
  if lease = .leased then reconcile request
  else pure ()

/-! ### Other transactions -/

/-- A transaction that updates products, identifiers and scopes. Each row is stamped with the clock
at which its statement begins, which may then wait for the lock of the row. -/
def updateCatalog : List CatalogRow → Program Unit
  | [] => pure ()
  | row :: rows => do
    let now : ℤ ← ask (.clockTimestamp .statement)
    Prog.require (row.createdAt ≤ now) .checkViolation
    let _ : Bool ← ask (.write (row.stamp now))
    updateCatalog rows

/-- An approval inserts its offer. -/
def approveOffer (terms : OfferTerms) : Program Unit := do
  let _ : ℤ ← ask (.insertOffer terms)
  pure ()

/-- The calls of the functions. -/
inductive Call where
  | reconcile (request : LifecycleRequest)
  | update (rows : List CatalogRow)
  | approve (terms : OfferTerms)

/-! ### Locks and writes -/

/-- A statement and its answer. -/
abbrev LifecycleEvent := Event Query Answer

/-- What a transaction has asked and was answered. -/
abbrev LifecycleHistory := History Query Answer

/-- The state of the database and its sessions. -/
abbrev LifecycleState := State ℕ Call Query Answer LifecycleError Unit

/-- The locks on the offers of a page. -/
def locksOfPage (mode : Mode) (page : List OfferRow) : List (RowKey × Mode) :=
  page.map fun offer => (.offer offer.terms.id, mode)

/-- The lock of a row that is written, and for a new identifier the one of the product it refers
to. -/
def locksOfWrite (row : CatalogRow) (isNew : Bool) : List (RowKey × Mode) :=
  (row.key, .noKeyUpdate) ::
    match row with
    | .identifier row => if isNew then [(.product row.productId, .keyShare)] else []
    | _ => []

/-- The locks that a statement takes. -/
def locksOf : (query : Query) → Answer query → List (RowKey × Mode)
  | .lockSource sourceId, _ => [(.source sourceId, .update)]
  | .selectExpiryPage _ _ _, page => locksOfPage .update page
  | .selectPublicationPage _ _ _, page => locksOfPage .update page
  | .shareScopes scopeIds, _ => scopeIds.map fun id => (.scope id, .share)
  | .lockProducts productIds, _ => productIds.map fun id => (.product id, .update)
  | .shareIdentifiers _, keys =>
    List.map (fun key : ℕ × ℕ => (RowKey.identifier key.1 key.2, Mode.share)) keys
  | .publish _, offers => locksOfPage .noKeyUpdate offers
  | .retire _ _ _, offers => locksOfPage .noKeyUpdate offers
  | .write row, isNew => locksOfWrite row isNew
  | .insertOffer terms, _ => [(.offer terms.id, .update)]
  | _, _ => []

/-- The versions of offers that a statement writes. -/
def writesOfOffers (offers : List OfferRow) : Writes :=
  offers.map fun offer => (.offer offer.terms.id, .offer offer)

/-- The versions of rows that a statement writes. -/
def writesOf : (query : Query) → Answer query → Writes
  | .publish _, offers => writesOfOffers offers
  | .retire _ _ _, offers => writesOfOffers offers
  | .write row, _ => [(row.key, .catalog row)]
  | .insertOffer terms, updatedAt => [(.offer terms.id, .offer ⟨terms, .approved, updatedAt⟩)]
  | _, _ => []

theorem locked_of_offers {offers : List OfferRow} {w : RowKey × Row}
    (hw : w ∈ writesOfOffers offers) : (w.1, .noKeyUpdate) ∈ locksOfPage .noKeyUpdate offers := by
  obtain ⟨offer, hoffer, rfl⟩ := List.mem_map.mp hw
  exact List.mem_map.mpr ⟨offer, hoffer, rfl⟩

/-- What is written is locked. -/
theorem locked (query : Query) (answer : Answer query) (w : RowKey × Row)
    (hw : w ∈ writesOf query answer) :
    ∃ mode : Mode, mode.Writes ∧ (w.1, mode) ∈ locksOf query answer := by
  cases query with
  | publish ids => exact ⟨.noKeyUpdate, .inl rfl, locked_of_offers hw⟩
  | retire ids visible approvedToo => exact ⟨.noKeyUpdate, .inl rfl, locked_of_offers hw⟩
  | write row =>
    obtain rfl := List.mem_singleton.mp hw
    exact ⟨.noKeyUpdate, .inl rfl, List.mem_cons_self⟩
  | insertOffer terms =>
    obtain rfl := List.mem_singleton.mp hw
    exact ⟨.update, .inr rfl, List.mem_cons_self⟩
  | _ => cases hw

/-- The locks and the writes of the statements. -/
def access : Access Query Answer RowKey Row where
  locks event := locksOf event.query event.answer
  writes event := writesOf event.query event.answer
  locked event := locked event.query event.answer

/-! ### Answers -/

/-- What a session has asked so far. -/
def historyOf (st : LifecycleState) (session : ℕ) : LifecycleHistory :=
  ((st.transaction session).map fun t => t.history).getD []

/-- The versions of rows that a session sees. -/
def viewOf (st : LifecycleState) (session : ℕ) : Writes :=
  access.view st.committed (historyOf st session)

/-- `enforce_approved_offer_lifecycle_transition_v1`: the trigger that refuses every other update of
an offer. -/
def IsLifecycleTransition (old new : OfferRow) : Prop :=
  new.terms = old.terms ∧
    (old.status = .approved ∧
        (new.status = .published ∨ new.status = .expired ∨ new.status = .revoked) ∨
      old.status = .published ∧ (new.status = .expired ∨ new.status = .revoked))

/-- The offers that a run retires. -/
def retirable (writes : Writes) (offerIds visibleIds : List ℕ) (approvedToo : Bool) :
    List OfferRow :=
  (offerIds.dedup.filterMap (currentOffer writes)).filter fun offer =>
    offer.status = .approved ∧ approvedToo = true ∨
      offer.status = .published ∧ offer.terms.id ∉ visibleIds

/-- Whether a page is one of offers as they are now, each once. -/
def IsPage (writes : Writes) (sourceId : JsString) (batchLimit : ℕ) (page : List OfferRow) : Prop :=
  page.length ≤ batchLimit ∧ (page.map fun offer => offer.terms.id).Nodup ∧
    ∀ offer ∈ page, currentOffer writes offer.terms.id = some offer ∧
      offer.terms.sourceId = sourceId

/-- Whether offers are retired versions of others. -/
def AreRetired (now : ℤ) (offers retired : List OfferRow) : Prop :=
  retired.map (fun offer => offer.terms) = offers.map (fun offer => offer.terms) ∧
    ∀ offer ∈ retired, (offer.status = .expired ∨ offer.status = .revoked) ∧ offer.updatedAt = now

/-- Whether a write of the catalog is of a new row. -/
def IsNew (writes : Writes) (row : CatalogRow) (isNew : Bool) : Prop :=
  isNew = (Access.current writes row.key).isNone

/-- Whether the identifiers of some products are all there. -/
def AreIdentifiers (writes : Writes) (productIds : List ℕ) (keys : List (ℕ × ℕ)) : Prop :=
  keys = productIds.flatMap fun productId =>
    (identifierKeys writes productId).map fun id => (productId, id)

/-- Whether an offer is inserted under an id that is free. -/
def IsInserted (writes : Writes) (now : ℤ) (terms : OfferTerms) (updatedAt : ℤ) : Prop :=
  Access.versions writes (.offer terms.id) = [] ∧ updatedAt = now

instance (writes : Writes) (sourceId : JsString) (batchLimit : ℕ) :
    DecidablePred (IsPage writes sourceId batchLimit) :=
  fun _ => inferInstanceAs (Decidable (_ ∧ _ ∧ ∀ offer ∈ _, _))

instance (now : ℤ) (offers : List OfferRow) : DecidablePred (AreRetired now offers) :=
  fun _ => inferInstanceAs (Decidable (_ ∧ ∀ offer ∈ _, _))

instance (writes : Writes) (row : CatalogRow) : DecidablePred (IsNew writes row) :=
  fun _ => inferInstanceAs (Decidable (_ = _))

instance (writes : Writes) (productIds : List ℕ) : DecidablePred (AreIdentifiers writes productIds) :=
  fun _ => inferInstanceAs (Decidable (_ = _))

instance (writes : Writes) (now : ℤ) (terms : OfferTerms) :
    DecidablePred (IsInserted writes now terms) :=
  fun _ => inferInstanceAs (Decidable (_ ∧ _))

/-- The offers that `selectExpiryPage` and `selectPublicationPage` are about. -/
def IsExpiryPage (writes : Writes) (sourceId : JsString) (batchLimit : ℕ) (page : List OfferRow) :
    Prop :=
  IsPage writes sourceId batchLimit page ∧
    ∀ offer ∈ page, offer.status = .published ∨ offer.status = .approved

/-- The offers that may be published as of a clock. -/
def IsPublicationPage (writes : Writes) (sourceId : JsString) (asOf : ℤ) (batchLimit : ℕ)
    (page : List OfferRow) : Prop :=
  IsPage writes sourceId batchLimit page ∧ ∀ offer ∈ page, offer.status = .approved ∧
    offer.terms.validFrom ≤ asOf ∧ asOf < offer.terms.validUntil

instance (writes : Writes) (sourceId : JsString) (batchLimit : ℕ) :
    DecidablePred (IsExpiryPage writes sourceId batchLimit) :=
  fun _ => inferInstanceAs (Decidable (_ ∧ ∀ offer ∈ _, _))

instance (writes : Writes) (sourceId : JsString) (asOf : ℤ) (batchLimit : ℕ) :
    DecidablePred (IsPublicationPage writes sourceId asOf batchLimit) :=
  fun _ => inferInstanceAs (Decidable (_ ∧ ∀ offer ∈ _, _))

/-- The published versions of the approved ones among some offers. -/
def published (writes : Writes) (now : ℤ) (offerIds : List ℕ) : List OfferRow :=
  ((offerIds.dedup.filterMap (currentOffer writes)).filter fun offer => offer.status = .approved).map
    fun offer => { offer with status := .published, updatedAt := now }

/-- Whether the tables and the clock give a statement its answer. -/
def IsAnswer (writes : Writes) (now : ℤ) : (query : Query) → Answer query → Prop
  | .clockTimestamp _, clock => @Eq ℤ clock now
  | .selectExpiryPage sourceId _ batchLimit, page => IsExpiryPage writes sourceId batchLimit page
  | .selectPublicationPage sourceId asOf batchLimit, page =>
    IsPublicationPage writes sourceId asOf batchLimit page
  | .shareIdentifiers productIds, keys => AreIdentifiers writes productIds keys
  | .visibleOffers offerIds asOf, visible =>
    @Eq (List ℕ) visible (offerIds.filter fun id => IsProjected writes asOf now id)
  | .publish offerIds, offers => @Eq (List OfferRow) offers (published writes now offerIds)
  | .retire offerIds visibleIds approvedToo, offers =>
    AreRetired now (retirable writes offerIds visibleIds approvedToo) offers
  | .write row, isNew => IsNew writes row isNew
  | .insertOffer terms, updatedAt => IsInserted writes now terms updatedAt
  | .acquireLease _, _ => True
  | .lockSource _, _ => True
  | .publicationEnabled, _ => True
  | .sourceIsCurrent _ _, _ => True
  | .shareScopes _, _ => True
  | .lockProducts _, _ => True
  | .completesInLease, _ => True

instance (writes : Writes) (now : ℤ) (query : Query) (answer : Answer query) :
    Decidable (IsAnswer writes now query answer) :=
  match query, answer with
  | .clockTimestamp _, clock => (inferInstance : DecidableEq ℤ) clock _
  | .selectExpiryPage sourceId _ batchLimit, page =>
    (inferInstance : DecidablePred (IsExpiryPage writes sourceId batchLimit)) page
  | .selectPublicationPage sourceId asOf batchLimit, page =>
    (inferInstance : DecidablePred (IsPublicationPage writes sourceId asOf batchLimit)) page
  | .shareIdentifiers productIds, keys =>
    (inferInstance : DecidablePred (AreIdentifiers writes productIds)) keys
  | .visibleOffers _ _, visible => (inferInstance : DecidableEq (List ℕ)) visible _
  | .publish _, offers => (inferInstance : DecidableEq (List OfferRow)) offers _
  | .retire offerIds visibleIds approvedToo, offers =>
    (inferInstance : DecidablePred (AreRetired now
      (retirable writes offerIds visibleIds approvedToo))) offers
  | .write row, isNew => (inferInstance : DecidablePred (IsNew writes row)) isNew
  | .insertOffer terms, updatedAt =>
    (inferInstance : DecidablePred (IsInserted writes now terms)) updatedAt
  | .acquireLease _, _ => .isTrue trivial
  | .lockSource _, _ => .isTrue trivial
  | .publicationEnabled, _ => .isTrue trivial
  | .sourceIsCurrent _ _, _ => .isTrue trivial
  | .shareScopes _, _ => .isTrue trivial
  | .lockProducts _, _ => .isTrue trivial
  | .completesInLease, _ => .isTrue trivial

/-- Whether a statement of a session gets an answer: the locks it takes are free, and the answer is
what the session sees. -/
def Admits (st : LifecycleState) (session : ℕ) (query : Query) (answer : Answer query) : Prop :=
  (∀ lock ∈ locksOf query answer, access.IsFree st session lock.1 lock.2) ∧
    IsAnswer (viewOf st session) st.clock query answer

instance (st : LifecycleState) (session : ℕ) (query : Query) (answer : Answer query) :
    Decidable (Admits st session query answer) :=
  inferInstanceAs (Decidable ((∀ lock ∈ _, _) ∧ _))

/-- The database, with the functions over it. -/
def database : Database ℕ Call Query Answer LifecycleError Unit where
  program
    | .reconcile request => officialOfferLifecycleReconcileV1 request
    | .update rows => updateCatalog rows
    | .approve terms => approveOffer terms
  Admits := Admits
  decidableAdmits := fun _ _ _ _ => inferInstance

end Handleplan.OfferLifecycle
