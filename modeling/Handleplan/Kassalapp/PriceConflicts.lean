import Handleplan.Kassalapp.PriceSourceSpec

/-!
# When the outcomes of a price run conflict

The ledger of a run holds one outcome for each record. The records of rows that are not accepted are
named by what is at hand, a position or a text of the source, and positions start again with each
response, so that two rows may share one.

## Main definitions

* `Kassalapp.ConflictFree` — outcomes of one record are the same.
* `Kassalapp.Origin` — the row that an outcome is of.
* `Kassalapp.KeptApart` — the condition on the rows.

## Main results

* `Kassalapp.mem_getSourcePrices` — the outcomes of a request.
* `Kassalapp.conflictFree_iff_keptApart` — the ledger takes all outcomes exactly when the
  rows are kept apart.
-/

namespace Handleplan.Kassalapp

open JsString Workers

/-- Outcomes of one record are the same. -/
def ConflictFree (outcomes : List SemanticOutcome) : Prop :=
  ∀ outcome ∈ outcomes, ∀ other ∈ outcomes,
    outcome.sourceRecordId = other.sourceRecordId → outcome = other

/-- The reason of an outcome that is not accepted. -/
def PriceOutcome.reason? : PriceOutcome → Option Reason
  | accepted _ => none
  | rejected rejection => some rejection.reason

/-! ### Rows of prices -/

/-- A row of prices that parses. -/
inductive PriceRow where
  | current (row : StoreRow)
  | historical (row : HistoryRow)

/-- The store row of a candidate that parses. -/
def StoreCandidate.parsed? : StoreCandidate → Option StoreRow
  | .parsed row => some row
  | .malformed _ => none

/-- The rows of prices of a product. -/
def priceRows (kind : ObservationKind) (product : ProductRow) : List PriceRow :=
  match kind with
  | .current => (product.stores.filterMap StoreCandidate.parsed?).map .current
  | .historical => product.priceHistory.map .historical

namespace PriceRow

/-- What follows the EAN in the record of a row. -/
def tail : PriceRow → JsString
  | current row => currentTail row
  | historical row => historyTail row

/-- The kind of the prices of a row. -/
def kind : PriceRow → ObservationKind
  | current _ => .current
  | historical _ => .historical

variable (dateParse : JsString → ℤ) (context : PriceNormalizationContext)

/-- Whether a row is of a chain, and has a price that was observed already. -/
def IsAcceptable : PriceRow → Prop
  | current row => chainOfCode row.store ≠ none ∧ row.lastChecked ≠ none ∧
      timestampIsFuture dateParse context (observedText row.lastChecked) = false ∧
      row.currentPriceOre ≠ none
  | historical row => chainOfCode row.store ≠ none ∧ row.amountOre ≠ none ∧
      timestampIsFuture dateParse context (row.date ++ js "T00:00:00.000Z") = false

/-- The outcome of a row. -/
def outcome (ean : JsString) : PriceRow → PriceOutcome
  | current row => storeRowOutcome dateParse context ean row
  | historical row => historyOutcome dateParse context ean row

variable {dateParse : JsString → ℤ} {context : PriceNormalizationContext} {ean : JsString}

/-- The record of a row, which is not the reason to find a GTIN invalid. -/
theorem outcome_spec (row : PriceRow) :
    (row.outcome dateParse context ean).sourceRecordId = ean ++ 58 :: row.tail ∧
      (row.outcome dateParse context ean).reason? ≠ some .invalidGtin := by
  cases row with
  | current row =>
    rw [tail, ← priceSourceRecordId_current]
    unfold outcome storeRowOutcome
    dsimp only
    split
    · exact ⟨rfl, nofun⟩
    · split_ifs
      · exact ⟨rfl, nofun⟩
      · exact ⟨rfl, nofun⟩
      · split <;> exact ⟨rfl, nofun⟩
  | historical row =>
    rw [tail, ← priceSourceRecordId_historical]
    unfold outcome historyOutcome
    dsimp only
    split
    · exact ⟨rfl, nofun⟩
    · split
      · exact ⟨rfl, nofun⟩
      · split_ifs <;> exact ⟨rfl, nofun⟩

/-- The record of a row begins with the EAN of its product. -/
theorem sourceRecordId_outcome (row : PriceRow) :
    (row.outcome dateParse context ean).sourceRecordId = ean ++ 58 :: row.tail :=
  row.outcome_spec.1

/-- Which rows are accepted. -/
theorem isAccepted_outcome (row : PriceRow) :
    (row.outcome dateParse context ean).IsAccepted ↔ row.IsAcceptable dateParse context := by
  cases row with
  | current row =>
    unfold outcome storeRowOutcome IsAcceptable observedText
    dsimp only
    rcases hchain : chainOfCode row.store with _ | chainId
    · exact iff_of_false (not_isAccepted_rejected _) fun h => h.1 rfl
    · dsimp only
      split_ifs with htime hfuture
      · exact iff_of_false (not_isAccepted_rejected _) fun h => h.2.1 htime
      · exact iff_of_false (not_isAccepted_rejected _) fun h => by
          rw [hfuture] at h
          exact absurd h.2.2.1 (by decide)
      · rcases hprice : row.currentPriceOre with _ | amountOre
        · exact iff_of_false (not_isAccepted_rejected _) fun h => h.2.2.2 rfl
        · exact iff_of_true rfl ⟨nofun, htime, Bool.eq_false_iff.mpr hfuture, nofun⟩
  | historical row =>
    unfold outcome historyOutcome IsAcceptable
    dsimp only
    rcases hchain : chainOfCode row.store with _ | chainId
    · exact iff_of_false (not_isAccepted_rejected _) fun h => h.1 rfl
    · dsimp only
      rcases hamount : row.amountOre with _ | amountOre
      · exact iff_of_false (not_isAccepted_rejected _) fun h => h.2.1 rfl
      · dsimp only
        split_ifs with hfuture
        · exact iff_of_false (not_isAccepted_rejected _) fun h => by
            rw [hfuture] at h
            exact absurd h.2.2 (by decide)
        · exact iff_of_true rfl ⟨nofun, nofun, Bool.eq_false_iff.mpr hfuture⟩

variable (dateParse context) in
/-- The rows of one record have one outcome, or one of them is accepted. -/
theorem outcome_eq_or_isAcceptable {row row' : PriceRow} (hkind : row.kind = row'.kind)
    (htail : row.tail = row'.tail) :
    row.outcome dateParse context ean = row'.outcome dateParse context ean ∨
      row.IsAcceptable dateParse context ∨ row'.IsAcceptable dateParse context := by
  cases row with
  | historical row =>
    cases row' with
    | current row' => cases hkind
    | historical row' =>
      obtain ⟨hstore, hdate, hamount⟩ := eq_of_historyTail htail
      have hrow : row = row' := by
        cases row
        cases row'
        cases hstore
        cases hdate
        cases hamount
        rfl
      exact .inl (by rw [hrow])
  | current row =>
    cases row' with
    | historical row' => cases hkind
    | current row' =>
      obtain ⟨hstore, hchecked, htime⟩ := eq_of_currentTail htail
      have hid := (priceSourceRecordId_current ean row).trans
        ((congrArg (fun tail => ean ++ 58 :: tail) htail).trans
          (priceSourceRecordId_current ean row').symm)
      by_cases haccepted : (PriceRow.current row).IsAcceptable dateParse context
      · exact .inr (.inl haccepted)
      · by_cases haccepted' : (PriceRow.current row').IsAcceptable dateParse context
        · exact .inr (.inr haccepted')
        · left
          unfold outcome storeRowOutcome
          dsimp only
          unfold observedText at hid htime
          rw [← hid, ← hstore, ← htime]
          rcases hchain : chainOfCode row.store with _ | chainId
          · rfl
          · dsimp only
            by_cases htime' : row.lastChecked = none
            · rw [if_pos htime', if_pos (hchecked.mp htime')]
            · rw [if_neg htime', if_neg (fun h => htime' (hchecked.mpr h))]
              split_ifs with hfuture
              · rfl
              · have hprice : ∀ {price : Option ℕ}, (price ≠ none → False) → price = none :=
                  fun h => not_not.mp h
                rw [hprice fun hprice => haccepted ⟨by rw [hchain]; nofun, htime',
                    Bool.eq_false_iff.mpr hfuture, hprice⟩,
                  hprice fun hprice => haccepted' ⟨by rw [← hstore, hchain]; nofun,
                    fun h => htime' (hchecked.mpr h),
                    Bool.eq_false_iff.mpr (by unfold observedText; rwa [← htime]), hprice⟩]

end PriceRow

/-! ### Where outcomes are from -/

/-- A product that was asked for. -/
def IsAsked (context : PriceNormalizationContext) (product : ProductRow) : Prop :=
  isValidGtin product.ean = true ∧ product.ean ∈ context.expectedEans

/-- The outcome of an EAN that a reply does not name. -/
def absentOutcome (reply : Option (List ProductCandidate)) (ean : JsString) : PriceOutcome :=
  match reply with
  | none => failedOutcome ean
  | some _ => missingOutcome ean

/-- The supported chains of a reply to a request of current prices that no store row is of. -/
def IsUncovered (kind : ObservationKind) (context : PriceNormalizationContext)
    (products : List ProductCandidate) (ean : JsString) (entry : JsString × Chain) : Prop :=
  kind = .current ∧ ean ∈ returnedEans context products ∧ entry ∈ chainByCode ∧
    entry.1 ∉ returnedSupportedChains context products ean

section Origins

variable (dateParse : JsString → ℤ) (kind : ObservationKind) (context : PriceNormalizationContext)

/-- The outcomes of what a reply delivers under an EAN, with what follows the EAN in the record: of
rows of prices, and of supported chains without a row. -/
inductive Delivers (products : List ProductCandidate) : JsString → JsString → PriceOutcome → Prop where
  | store {product : ProductRow} {index : ℕ} {store : Option JsString}
      (hrow : .parsed product ∈ products) (hasked : IsAsked context product) (hkind : kind = .current)
      (hstore : product.stores[index]? = some (.malformed store)) :
      Delivers products product.ean (js "store-" ++ JsString.ofNat index)
        (quarantined (fallbackRecordId product.ean index) .malformedRecord
          ⟨malformedChainCode store, malformedChainId store, some product.ean⟩)
  | price {product : ProductRow} {row : PriceRow} (hrow : .parsed product ∈ products)
      (hasked : IsAsked context product) (hprice : row ∈ priceRows kind product) :
      Delivers products product.ean row.tail (row.outcome dateParse context product.ean)
  | coverage {ean : JsString} {entry : JsString × Chain}
      (huncovered : IsUncovered kind context products ean entry) :
      Delivers products ean (entry.1 ++ js ":current:coverage") (coverageOutcome ean entry)

/-- The rows of a reply, or the EANs of its request, that an outcome is of. -/
inductive Origin (reply : Option (List ProductCandidate)) : PriceOutcome → Prop where
  | malformed {products : List ProductCandidate} {index : ℕ} {ean : Option JsString}
      (hreply : reply = some products) (hrow : products[index]? = some (.malformed ean)) :
      Origin reply
        (quarantined (malformedProductId kind index) .malformedRecord { ean := validEan ean })
  | invalid {products : List ProductCandidate} {product : ProductRow} (hreply : reply = some products)
      (hrow : .parsed product ∈ products) (hinvalid : isValidGtin product.ean = false) :
      Origin reply (quarantined product.ean .invalidGtin {})
  | mismatch {products : List ProductCandidate} {product : ProductRow} (hreply : reply = some products)
      (hrow : .parsed product ∈ products) (hvalid : isValidGtin product.ean = true)
      (hunexpected : product.ean ∉ context.expectedEans) :
      Origin reply
        (quarantined product.ean .identifierMismatch (mismatchSubject kind product.ean))
  | delivered {products : List ProductCandidate} {ean tail : JsString} {outcome : PriceOutcome}
      (hreply : reply = some products)
      (hdelivers : Delivers dateParse kind context products ean tail outcome) : Origin reply outcome
  | absent {ean : JsString} (hasked : ean ∈ context.expectedEans)
      (habsent : ∀ products, reply = some products → ean ∉ returnedEans context products) :
      Origin reply (absentOutcome reply ean)

/-- The outcomes of a reply, before those of one record are brought together. -/
def rawOutcomes : Option (List ProductCandidate) → List PriceOutcome
  | none => context.expectedEans.map failedOutcome
  | some products =>
    (products.zipIdx.flatMap fun (candidate, productIndex) =>
        productOutcomes dateParse context kind productIndex candidate) ++
      (match kind with
        | .current => coverageOutcomes context products
        | .historical => []) ++ missingOutcomes context products

variable {dateParse : JsString → ℤ} {kind : ObservationKind} {context : PriceNormalizationContext}
  {outcome : PriceOutcome} {products : List ProductCandidate}

/-- The outcomes of the rows of a product. -/
theorem mem_rowOutcomes {product : ProductRow} :
    outcome ∈ rowOutcomes dateParse context kind product ↔
      (kind = .current ∧ ∃ index store, product.stores[index]? = some (.malformed store) ∧
        quarantined (fallbackRecordId product.ean index) .malformedRecord
          ⟨malformedChainCode store, malformedChainId store, some product.ean⟩ = outcome) ∨
      ∃ row ∈ priceRows kind product, row.outcome dateParse context product.ean = outcome := by
  cases kind with
  | historical =>
    unfold rowOutcomes priceRows
    constructor
    · intro hmem
      obtain ⟨row, hrow, rfl⟩ := List.mem_map.mp hmem
      exact .inr ⟨.historical row, List.mem_map.mpr ⟨row, hrow, rfl⟩, rfl⟩
    · rintro (⟨hkind, -⟩ | ⟨row, hrow, rfl⟩)
      · cases hkind
      · obtain ⟨history, hhistory, rfl⟩ := List.mem_map.mp hrow
        exact List.mem_map.mpr ⟨history, hhistory, rfl⟩
  | current =>
    unfold rowOutcomes priceRows
    constructor
    · intro hmem
      obtain ⟨⟨candidate, index⟩, hcandidate, rfl⟩ := List.mem_map.mp hmem
      have hget := List.mem_zipIdx_iff_getElem?.mp hcandidate
      cases candidate with
      | malformed store => exact .inl ⟨rfl, index, store, hget, rfl⟩
      | parsed row =>
        refine .inr ⟨.current row, List.mem_map.mpr ⟨row, ?_, rfl⟩, rfl⟩
        exact List.mem_filterMap.mpr ⟨_, List.mem_of_getElem? hget, rfl⟩
    · rintro (⟨-, index, store, hget, rfl⟩ | ⟨row, hrow, rfl⟩)
      · exact List.mem_map.mpr
          ⟨(.malformed store, index), List.mem_zipIdx_iff_getElem?.mpr hget, rfl⟩
      · obtain ⟨store, hstore, rfl⟩ := List.mem_map.mp hrow
        obtain ⟨candidate, hcandidate, hparsed⟩ := List.mem_filterMap.mp hstore
        obtain ⟨index, hget⟩ := List.mem_iff_getElem?.mp hcandidate
        cases candidate with
        | malformed store => cases hparsed
        | parsed row' =>
          cases hparsed
          exact List.mem_map.mpr
            ⟨(.parsed store, index), List.mem_zipIdx_iff_getElem?.mpr hget, rfl⟩

/-- The outcomes of supported chains without a row. -/
theorem mem_coverageOutcomes : outcome ∈ coverageOutcomes context products ↔
    ∃ ean entry, IsUncovered .current context products ean entry ∧
      coverageOutcome ean entry = outcome := by
  unfold coverageOutcomes
  rw [List.mem_flatMap]
  constructor
  · rintro ⟨ean, hean, hmem⟩
    obtain ⟨entry, hentry, rfl⟩ := List.mem_map.mp hmem
    obtain ⟨hcode, huncovered⟩ := List.mem_filter.mp hentry
    exact ⟨ean, entry, ⟨rfl, (Sorting.sortBy_perm _ _).mem_iff.mp hean, hcode,
      of_decide_eq_true huncovered⟩, rfl⟩
  · rintro ⟨ean, entry, ⟨-, hean, hcode, huncovered⟩, rfl⟩
    exact ⟨ean, (Sorting.sortBy_perm _ _).mem_iff.mpr hean, List.mem_map.mpr
      ⟨entry, List.mem_filter.mpr ⟨hcode, decide_eq_true huncovered⟩, rfl⟩⟩

/-- The outcomes of EANs that are not in a response. -/
theorem mem_missingOutcomes : outcome ∈ missingOutcomes context products ↔
    ∃ ean ∈ context.expectedEans, ean ∉ returnedEans context products ∧
      missingOutcome ean = outcome := by
  unfold missingOutcomes
  rw [List.mem_map]
  constructor
  · rintro ⟨ean, hean, rfl⟩
    obtain ⟨hasked, habsent⟩ := List.mem_filter.mp hean
    exact ⟨ean, hasked, of_decide_eq_true habsent, rfl⟩
  · rintro ⟨ean, hasked, habsent, rfl⟩
    exact ⟨ean, List.mem_filter.mpr ⟨hasked, decide_eq_true habsent⟩, rfl⟩

/-- The outcomes of a product row that parses. -/
theorem mem_productOutcomes {product : ProductRow} {index : ℕ} :
    outcome ∈ productOutcomes dateParse context kind index (.parsed product) ↔
      (isValidGtin product.ean = false ∧ quarantined product.ean .invalidGtin {} = outcome) ∨
      (isValidGtin product.ean = true ∧ product.ean ∉ context.expectedEans ∧
        quarantined product.ean .identifierMismatch (mismatchSubject kind product.ean) = outcome) ∨
      (IsAsked context product ∧ outcome ∈ rowOutcomes dateParse context kind product) := by
  unfold productOutcomes IsAsked
  dsimp only
  split_ifs with hinvalid hexpected
  · simp [hinvalid, eq_comm]
  · simp [Bool.eq_true_of_not_eq_false hinvalid, hexpected]
  · simp [Bool.eq_true_of_not_eq_false hinvalid, hexpected, eq_comm]

/-- The outcomes of the product rows of a reply: rows that do not parse, and rows that do. -/
theorem mem_flatMap_productOutcomes :
    (outcome ∈ products.zipIdx.flatMap fun (candidate, index) =>
        productOutcomes dateParse context kind index candidate) ↔
      (∃ index ean, products[index]? = some (.malformed ean) ∧
        quarantined (malformedProductId kind index) .malformedRecord { ean := validEan ean } =
          outcome) ∨
      ∃ product index, .parsed product ∈ products ∧
        outcome ∈ productOutcomes dateParse context kind index (.parsed product) := by
  rw [List.mem_flatMap]
  constructor
  · rintro ⟨⟨candidate, index⟩, hcandidate, hmem⟩
    have hget := List.mem_zipIdx_iff_getElem?.mp hcandidate
    cases candidate with
    | malformed ean => exact .inl ⟨index, ean, hget, (List.mem_singleton.mp hmem).symm⟩
    | parsed product => exact .inr ⟨product, index, List.mem_of_getElem? hget, hmem⟩
  · rintro (⟨index, ean, hget, rfl⟩ | ⟨product, _, hrow, hmem⟩)
    · exact ⟨(_, index), List.mem_zipIdx_iff_getElem?.mpr hget, List.mem_singleton_self _⟩
    · obtain ⟨index, hget⟩ := List.mem_iff_getElem?.mp hrow
      exact ⟨(_, index), List.mem_zipIdx_iff_getElem?.mpr hget,
        mem_productOutcomes.mpr (mem_productOutcomes.mp hmem)⟩

/-- What is delivered: the rows of products that were asked for, and chains without a row. -/
theorem exists_delivers_iff :
    (∃ ean tail, Delivers dateParse kind context products ean tail outcome) ↔
      (∃ product, .parsed product ∈ products ∧ IsAsked context product ∧
        outcome ∈ rowOutcomes dateParse context kind product) ∨
      outcome ∈ (match kind with
        | .current => coverageOutcomes context products
        | .historical => []) := by
  constructor
  · rintro ⟨ean, tail, hdelivers⟩
    cases hdelivers with
    | store hrow hasked hkind hstore =>
      exact .inl ⟨_, hrow, hasked, mem_rowOutcomes.mpr (.inl ⟨hkind, _, _, hstore, rfl⟩)⟩
    | price hrow hasked hprice =>
      exact .inl ⟨_, hrow, hasked, mem_rowOutcomes.mpr (.inr ⟨_, hprice, rfl⟩)⟩
    | coverage huncovered =>
      obtain ⟨rfl, -⟩ := id huncovered
      exact .inr (mem_coverageOutcomes.mpr ⟨_, _, huncovered, rfl⟩)
  · rintro (⟨product, hrow, hasked, hmem⟩ | hcoverage)
    · obtain ⟨hkind, index, store, hstore, rfl⟩ | ⟨row, hprice, rfl⟩ := mem_rowOutcomes.mp hmem
      · exact ⟨_, _, .store hrow hasked hkind hstore⟩
      · exact ⟨_, _, .price hrow hasked hprice⟩
    · cases kind with
      | historical => cases hcoverage
      | current =>
        obtain ⟨ean, entry, huncovered, rfl⟩ := mem_coverageOutcomes.mp hcoverage
        exact ⟨_, _, .coverage huncovered⟩

variable {reply : Option (List ProductCandidate)}

/-- An outcome of a reply is of its rows, or of the EANs of its request. -/
theorem origin_of_mem_rawOutcomes (hmem : outcome ∈ rawOutcomes dateParse kind context reply) :
    Origin dateParse kind context reply outcome := by
  cases reply with
  | none =>
    obtain ⟨ean, hean, rfl⟩ := List.mem_map.mp hmem
    exact .absent hean nofun
  | some products =>
    unfold rawOutcomes at hmem
    rw [List.mem_append, List.mem_append, mem_missingOutcomes] at hmem
    obtain (hrows | hcoverage) | ⟨ean, hasked, habsent, rfl⟩ := hmem
    · obtain ⟨index, ean, hget, rfl⟩ | ⟨product, index, hrow, hmem⟩ :=
        mem_flatMap_productOutcomes.mp hrows
      · exact .malformed rfl hget
      · obtain ⟨hinvalid, rfl⟩ | ⟨hvalid, hunexpected, rfl⟩ | ⟨hasked, hmem⟩ :=
          mem_productOutcomes.mp hmem
        · exact .invalid rfl hrow hinvalid
        · exact .mismatch rfl hrow hvalid hunexpected
        · obtain ⟨ean, tail, hdelivers⟩ := exists_delivers_iff.mpr (.inl ⟨product, hrow, hasked, hmem⟩)
          exact .delivered rfl hdelivers
    · obtain ⟨ean, tail, hdelivers⟩ := exists_delivers_iff.mpr (.inr hcoverage)
      exact .delivered rfl hdelivers
    · exact .absent hasked fun products' hproducts => Option.some.inj hproducts ▸ habsent

/-- Every row of a reply, and every EAN of its request, has its outcome. -/
theorem mem_rawOutcomes_of_origin (horigin : Origin dateParse kind context reply outcome) :
    outcome ∈ rawOutcomes dateParse kind context reply := by
  cases reply with
  | none =>
    generalize hnone : (none : Option (List ProductCandidate)) = reply at horigin
    cases horigin with
    | absent hasked habsent => exact hnone ▸ List.mem_map.mpr ⟨_, hasked, rfl⟩
    | malformed hreply | invalid hreply | mismatch hreply | delivered hreply =>
      cases hnone.trans hreply
  | some products =>
    unfold rawOutcomes
    rw [List.mem_append, List.mem_append, mem_missingOutcomes]
    have hrow {product : ProductRow} (hrow : .parsed product ∈ products)
        (hmem : outcome ∈ productOutcomes dateParse context kind 0 (.parsed product)) :=
      mem_flatMap_productOutcomes.mpr (.inr ⟨product, 0, hrow, hmem⟩)
    generalize hsome : some products = reply at horigin
    cases horigin with
    | malformed hreply hget =>
      cases hsome.trans hreply
      exact .inl (.inl (mem_flatMap_productOutcomes.mpr (.inl ⟨_, _, hget, rfl⟩)))
    | invalid hreply hmem hinvalid =>
      cases hsome.trans hreply
      exact .inl (.inl (hrow hmem (mem_productOutcomes.mpr (.inl ⟨hinvalid, rfl⟩))))
    | mismatch hreply hmem hvalid hunexpected =>
      cases hsome.trans hreply
      exact .inl (.inl (hrow hmem
        (mem_productOutcomes.mpr (.inr (.inl ⟨hvalid, hunexpected, rfl⟩)))))
    | delivered hreply hdelivers =>
      cases hsome.trans hreply
      obtain ⟨product, hmem, hasked, houtcome⟩ | hcoverage :=
        exists_delivers_iff.mp ⟨_, _, hdelivers⟩
      · exact .inl (.inl (hrow hmem (mem_productOutcomes.mpr (.inr (.inr ⟨hasked, houtcome⟩)))))
      · exact .inl (.inr hcoverage)
    | absent hasked habsent =>
      subst hsome
      exact .inr ⟨_, hasked, habsent products rfl, rfl⟩

/-- **Where the outcomes of a reply are from.** -/
theorem mem_rawOutcomes :
    outcome ∈ rawOutcomes dateParse kind context reply ↔
      Origin dateParse kind context reply outcome :=
  ⟨origin_of_mem_rawOutcomes, mem_rawOutcomes_of_origin⟩

/-- An accepted outcome is of a row with a price. -/
theorem Origin.exists_acceptable (horigin : Origin dateParse kind context reply outcome)
    (haccepted : outcome.IsAccepted) :
    ∃ products product row, reply = some products ∧ .parsed product ∈ products ∧
      IsAsked context product ∧ row ∈ priceRows kind product ∧ row.IsAcceptable dateParse context ∧
        row.outcome dateParse context product.ean = outcome := by
  cases horigin with
  | delivered hreply hdelivers =>
    cases hdelivers with
    | price hrow hasked hprice =>
      exact ⟨_, _, _, hreply, hrow, hasked, hprice, (PriceRow.isAccepted_outcome _).mp haccepted, rfl⟩
    | store hrow hasked hkind hstore => exact absurd haccepted (not_isAccepted_rejected _)
    | coverage huncovered => exact absurd haccepted (not_isAccepted_rejected _)
  | malformed hreply hrow => exact absurd haccepted (not_isAccepted_rejected _)
  | invalid hreply hrow hinvalid => exact absurd haccepted (not_isAccepted_rejected _)
  | mismatch hreply hrow hvalid hunexpected => exact absurd haccepted (not_isAccepted_rejected _)
  | absent hasked habsent =>
    cases reply with
    | none => exact absurd haccepted (not_isAccepted_rejected _)
    | some products => exact absurd haccepted (not_isAccepted_rejected _)

/-- Whether the outcomes of a record in a reply contradict each other. -/
def Contested (dateParse : JsString → ℤ) (kind : ObservationKind) (context : PriceNormalizationContext)
    (reply : Option (List ProductCandidate)) (sourceRecordId : JsString) : Prop :=
  IsContested (groupOf (rawOutcomes dateParse kind context reply) sourceRecordId)

/-- The record of a row with a price. -/
def IsPriced (dateParse : JsString → ℤ) (kind : ObservationKind) (context : PriceNormalizationContext)
    (products : List ProductCandidate) (sourceRecordId : JsString) : Prop :=
  ∃ product row, .parsed product ∈ products ∧ IsAsked context product ∧
    row ∈ priceRows kind product ∧ row.IsAcceptable dateParse context ∧
      product.ean ++ 58 :: row.tail = sourceRecordId

/-- Where outcomes contradict each other, there is a row with a price. -/
theorem isPriced_of_contested {sourceRecordId : JsString}
    (hcontested : Contested dateParse kind context reply sourceRecordId) :
    ∃ products, reply = some products ∧
      IsPriced dateParse kind context products sourceRecordId := by
  obtain ⟨outcome, hmem, haccepted⟩ := exists_accepted_of_isContested hcontested
  obtain ⟨hraw, rfl⟩ := mem_groupOf.mp hmem
  obtain ⟨products, product, row, hreply, hrow, hasked, hprice, hacceptable, rfl⟩ :=
    (mem_rawOutcomes.mp hraw).exists_acceptable haccepted
  exact ⟨products, hreply, product, row, hrow, hasked, hprice, hacceptable,
    row.sourceRecordId_outcome.symm⟩

/-- Different outcomes of a record with a price contradict each other. -/
theorem Origin.contested {other : PriceOutcome}
    (horigin : Origin dateParse kind context reply outcome)
    (hother : Origin dateParse kind context reply other)
    (hid : outcome.sourceRecordId = other.sourceRecordId) (haccepted : outcome.IsAccepted)
    (hne : outcome ≠ other) : Contested dateParse kind context reply other.sourceRecordId :=
  isContested_of_ne (mem_groupOf.mpr ⟨mem_rawOutcomes.mpr horigin, hid⟩)
    (mem_groupOf.mpr ⟨mem_rawOutcomes.mpr hother, rfl⟩) haccepted hne

/-- **The outcomes of a request.** -/
theorem mem_getSourcePrices {host : Host} {stringify : PriceOutcome → JsString} :
    outcome ∈ getSourcePrices dateParse host stringify kind context.expectedEans
        ⟨context.now, reply⟩ ↔
      (Origin dateParse kind context reply outcome ∧
        ¬ Contested dateParse kind context reply outcome.sourceRecordId) ∨
      (Contested dateParse kind context reply outcome.sourceRecordId ∧
        outcome = duplicateOf (rawOutcomes dateParse kind context reply)
          outcome.sourceRecordId) := by
  cases reply with
  | none =>
    have hcontested : ¬ Contested dateParse kind context none outcome.sourceRecordId := by
      intro h
      obtain ⟨products, hreply, -⟩ := isPriced_of_contested h
      cases hreply
    rw [← mem_rawOutcomes]
    simp only [hcontested, not_false_eq_true, and_true, false_and, or_false]
    exact Iff.rfl
  | some products =>
    rw [← mem_rawOutcomes]
    cases kind with
    | current => exact mem_canonicalize
    | historical =>
      unfold getSourcePrices normalizeHistoricalPriceSourceResponse
      have hraw : rawOutcomes dateParse .historical context (some products) =
          (products.zipIdx.flatMap fun (candidate, productIndex) =>
              productOutcomes dateParse context .historical productIndex candidate) ++
            missingOutcomes context products := by
        dsimp only [rawOutcomes]
        rw [List.append_nil]
      rw [hraw]
      unfold Contested
      rw [hraw]
      exact mem_canonicalize

end Origins

/-! ### Requests -/

section Requests

variable {targets : List PriceTarget} {replies : ℕ → PriceReply}

/-- The slices are all of the list. -/
theorem flatten_slicesOf {α : Type} {size fuel : ℕ} {xs : List α} (hsize : 0 < size)
    (hfuel : xs.length ≤ fuel) : (slicesOf size fuel xs).flatten = xs := by
  induction fuel generalizing xs with
  | zero =>
    obtain rfl := List.length_eq_zero_iff.mp (Nat.le_zero.mp hfuel)
    rfl
  | succ fuel ih =>
    unfold slicesOf
    split_ifs with hempty
    · rw [hempty]
      rfl
    · have hlength : (xs.drop size).length ≤ fuel := by
        have hpos := List.length_pos_of_ne_nil hempty
        rw [List.length_drop]
        omega
      rw [List.flatten_cons, ih hlength, List.take_append_drop]

theorem flatten_requestsOf :
    (requestsOf targets).flatten = targets.map fun target => target.ean :=
  flatten_slicesOf (by decide) (by rw [List.length_map])

/-- What a request asks for, and the rows of the reply to it. -/
structure IsRequest (targets : List PriceTarget) (replies : ℕ → PriceReply) (index : ℕ)
    (context : PriceNormalizationContext) (reply : Option (List ProductCandidate)) : Prop where
  eans : (requestsOf targets)[index]? = some context.expectedEans
  reply : replies index = ⟨context.now, reply⟩

variable {index : ℕ} {row : PriceRow}

theorem IsRequest.valid_of_mem {context : PriceNormalizationContext}
    {reply : Option (List ProductCandidate)} {ean : JsString}
    (hrequest : IsRequest targets replies index context reply)
    (htargets : IsCanonicalTargets targets) (hean : ean ∈ context.expectedEans) :
    isValidGtin ean = true := by
  have hmem : ean ∈ (requestsOf targets).flatten :=
    List.mem_flatten.mpr ⟨_, List.mem_of_getElem? hrequest.eans, hean⟩
  rw [flatten_requestsOf] at hmem
  obtain ⟨target, htarget, rfl⟩ := List.mem_map.mp hmem
  exact htargets.valid target htarget

/-- An EAN is asked for in one request. -/
theorem IsRequest.eq_of_mem {index' : ℕ} {context context' : PriceNormalizationContext}
    {reply reply' : Option (List ProductCandidate)} {ean : JsString}
    (hrequest : IsRequest targets replies index context reply)
    (hrequest' : IsRequest targets replies index' context' reply')
    (htargets : IsCanonicalTargets targets) (hean : ean ∈ context.expectedEans)
    (hean' : ean ∈ context'.expectedEans) : index = index' := by
  have hnodup : (requestsOf targets).flatten.Nodup := by
    rw [flatten_requestsOf]
    exact htargets.nodup
  have hdisjoint := (List.nodup_flatten.mp hnodup).2
  obtain ⟨hindex, heans⟩ := List.getElem?_eq_some_iff.mp hrequest.eans
  obtain ⟨hindex', heans'⟩ := List.getElem?_eq_some_iff.mp hrequest'.eans
  rw [List.pairwise_iff_getElem] at hdisjoint
  obtain hlt | heq | hgt := lt_trichotomy index index'
  · have hapart := hdisjoint index index' hindex hindex' hlt
    rw [heans, heans'] at hapart
    exact (hapart hean hean').elim
  · exact heq
  · have hapart := hdisjoint index' index hindex' hindex hgt
    rw [heans, heans'] at hapart
    exact (hapart hean' hean).elim

/-- A request has one reply. -/
theorem IsRequest.unique {context context' : PriceNormalizationContext}
    {reply reply' : Option (List ProductCandidate)}
    (hrequest : IsRequest targets replies index context reply)
    (hrequest' : IsRequest targets replies index context' reply') :
    context = context' ∧ reply = reply' := by
  obtain ⟨eans, now⟩ := context
  obtain ⟨eans', now'⟩ := context'
  obtain ⟨rfl⟩ := Option.some.inj (hrequest.eans.symm.trans hrequest'.eans)
  obtain ⟨rfl, rfl⟩ := PriceReply.mk.inj (hrequest.reply.symm.trans hrequest'.reply)
  exact ⟨rfl, rfl⟩

/-- **The outcomes of a run.** -/
theorem mem_sourceOutcomes {dateParse : JsString → ℤ} {host : Host}
    {stringify : PriceOutcome → JsString} {kind : ObservationKind} {outcome : PriceOutcome} :
    outcome ∈ sourceOutcomes dateParse host stringify kind targets replies ↔
      ∃ index context reply, IsRequest targets replies index context reply ∧
        outcome ∈ getSourcePrices dateParse host stringify kind context.expectedEans
          ⟨context.now, reply⟩ := by
  unfold sourceOutcomes
  rw [List.mem_flatMap]
  constructor
  · rintro ⟨⟨eans, index⟩, hrequest, hmem⟩
    exact ⟨index, ⟨eans, (replies index).now⟩, (replies index).products,
      ⟨List.mem_zipIdx_iff_getElem?.mp hrequest, rfl⟩, hmem⟩
  · rintro ⟨index, context, reply, hrequest, hmem⟩
    refine ⟨(context.expectedEans, index), List.mem_zipIdx_iff_getElem?.mpr hrequest.eans, ?_⟩
    show outcome ∈ getSourcePrices dateParse host stringify kind context.expectedEans (replies index)
    rw [hrequest.reply]
    exact hmem

/-! ### Rows that are kept apart -/

/-- The records that a response names without a row with a price: those of rows that do not parse
and of supported chains without a row. -/
inductive Names (kind : ObservationKind) (context : PriceNormalizationContext)
    (products : List ProductCandidate) : JsString → Prop where
  | product {index : ℕ} {ean : Option JsString} (hrow : products[index]? = some (.malformed ean)) :
      Names kind context products (malformedProductId kind index)
  | store {product : ProductRow} {index : ℕ} {store : Option JsString}
      (hrow : .parsed product ∈ products) (hasked : IsAsked context product) (hkind : kind = .current)
      (hstore : product.stores[index]? = some (.malformed store)) :
      Names kind context products (fallbackRecordId product.ean index)
  | coverage {ean : JsString} {entry : JsString × Chain}
      (huncovered : IsUncovered kind context products ean entry) :
      Names kind context products (coverageId ean entry.1)

/-- Rows of a run that are kept apart. Rows that do not parse and have the same place, in two
responses or under one EAN, are to agree on the EAN or the chain; an EAN that a request did not get
is in no other response; and what stands for a GTIN without being one is not the record of another
row, unless that row has a price and stands in the same response. -/
structure KeptApart (dateParse : JsString → ℤ) (kind : ObservationKind) (targets : List PriceTarget)
    (replies : ℕ → PriceReply) : Prop where
  products : ∀ {i j : ℕ} {context context' : PriceNormalizationContext}
    {products products' : List ProductCandidate} {index : ℕ} {ean ean' : Option JsString},
    IsRequest targets replies i context (some products) →
    IsRequest targets replies j context' (some products') →
    products[index]? = some (.malformed ean) → products'[index]? = some (.malformed ean') →
      validEan ean = validEan ean'
  absent : ∀ {i j : ℕ} {context context' : PriceNormalizationContext}
    {reply : Option (List ProductCandidate)} {products : List ProductCandidate} {ean : JsString}
    {product : ProductRow},
    IsRequest targets replies i context reply → ean ∈ context.expectedEans →
    (∀ products, reply = some products → ean ∉ returnedEans context products) →
    IsRequest targets replies j context' (some products) → .parsed product ∈ products →
      product.ean ≠ ean
  stores : kind = .current → ∀ {i : ℕ} {context : PriceNormalizationContext}
    {products : List ProductCandidate} {product product' : ProductRow} {index : ℕ}
    {store store' : Option JsString},
    IsRequest targets replies i context (some products) →
    .parsed product ∈ products → .parsed product' ∈ products →
    IsAsked context product → product'.ean = product.ean →
    product.stores[index]? = some (.malformed store) →
    product'.stores[index]? = some (.malformed store') →
      malformedChainCode store = malformedChainCode store'
  texts : ∀ {i j : ℕ} {context context' : PriceNormalizationContext}
    {products products' : List ProductCandidate} {product : ProductRow},
    IsRequest targets replies i context (some products) →
    IsRequest targets replies j context' (some products') →
    .parsed product ∈ products → isValidGtin product.ean = false →
      ¬ Names kind context' products' product.ean
  prices : ∀ {i j : ℕ} {context context' : PriceNormalizationContext}
    {products products' : List ProductCandidate} {product product' : ProductRow} {row : PriceRow},
    IsRequest targets replies i context (some products) →
    IsRequest targets replies j context' (some products') →
    .parsed product ∈ products → isValidGtin product.ean = false →
    .parsed product' ∈ products' → IsAsked context' product' → row ∈ priceRows kind product' →
    product'.ean ++ 58 :: row.tail = product.ean →
      i = j ∧ IsPriced dateParse kind context products product.ean

variable {dateParse : JsString → ℤ} {kind : ObservationKind} {i j : ℕ}
  {context context' : PriceNormalizationContext} {reply reply' : Option (List ProductCandidate)}
  {outcome other : PriceOutcome} {products : List ProductCandidate}

theorem kind_of_mem_priceRows {product : ProductRow} (hrow : row ∈ priceRows kind product) :
    row.kind = kind := by
  cases kind with
  | current =>
    obtain ⟨store, -, rfl⟩ := List.mem_map.mp hrow
    rfl
  | historical =>
    obtain ⟨history, -, rfl⟩ := List.mem_map.mp hrow
    rfl

theorem valid_of_mem_returnedEans {ean : JsString} (hean : ean ∈ returnedEans context products) :
    isValidGtin ean = true := by
  obtain ⟨candidate, -, hreturned⟩ := List.mem_filterMap.mp (List.mem_dedup.mp hean)
  cases candidate with
  | malformed ean' =>
    obtain ⟨-, hvalid⟩ := Option.filter_eq_some_iff.mp hreturned
    exact hvalid
  | parsed product =>
    unfold returnedEan at hreturned
    dsimp only at hreturned
    split_ifs at hreturned with hasked
    cases hreturned
    exact hasked.1

/-- What is delivered is under a valid EAN. -/
theorem Delivers.valid {ean tail : JsString}
    (h : Delivers dateParse kind context products ean tail outcome) : isValidGtin ean = true := by
  cases h with
  | store hrow hasked hkind hstore => exact hasked.1
  | price hrow hasked hprice => exact hasked.1
  | coverage huncovered => exact valid_of_mem_returnedEans huncovered.2.1

/-- The record of what is delivered begins with the EAN. -/
theorem Delivers.sourceRecordId {ean tail : JsString}
    (h : Delivers dateParse kind context products ean tail outcome) :
    outcome.sourceRecordId = ean ++ 58 :: tail := by
  cases h with
  | store hrow hasked hkind hstore => exact fallbackRecordId_eq _ _
  | price hrow hasked hprice => exact PriceRow.sourceRecordId_outcome _
  | coverage huncovered => exact coverageId_eq _ _

/-- The record of a store row that does not parse is not that of a row with a price. -/
theorem store_ne_tail (hrow : row.kind = .current) (index : ℕ) :
    js "store-" ++ JsString.ofNat index ≠ row.tail := by
  cases row with
  | current row => exact store_ne_currentTail
  | historical row => cases hrow

theorem tail_ne_coverage (hrow : row.kind = .current) (code : JsString) :
    row.tail ≠ code ++ js ":current:coverage" := by
  cases row with
  | current row => exact currentTail_ne_coverage
  | historical row => cases hrow

/-- What a response names without a row with a price is not the record of a row with a price. -/
theorem Names.ne_priced {ean : JsString} {sourceRecordId : JsString}
    (hnames : Names kind context products sourceRecordId) (hean : isValidGtin ean = true)
    (hrow : row.kind = kind) : ean ++ 58 :: row.tail ≠ sourceRecordId := by
  cases hnames with
  | product hproduct => exact (malformedProductId_ne_append hean).symm
  | store hproduct hasked hkind hstore =>
    rw [fallbackRecordId_eq]
    intro heq
    exact store_ne_tail (hrow.trans hkind) _ (eq_of_tagged hean hasked.1 heq).2.symm
  | coverage huncovered =>
    rw [coverageId_eq]
    intro heq
    exact tail_ne_coverage (hrow.trans huncovered.1) _
      (eq_of_tagged hean (valid_of_mem_returnedEans huncovered.2.1) heq).2

theorem not_contested_of_ne {sourceRecordId : JsString}
    (hne : ∀ {ean} {row : PriceRow}, isValidGtin ean = true → row.kind = kind →
      ean ++ 58 :: row.tail ≠ sourceRecordId) :
    ¬ Contested dateParse kind context reply sourceRecordId := by
  intro hcontested
  obtain ⟨products, -, product, row, -, hasked, hrow, -, heq⟩ := isPriced_of_contested hcontested
  exact hne hasked.1 (kind_of_mem_priceRows hrow) heq

theorem malformedChainId_eq_bind (store : Option JsString) :
    malformedChainId store = (malformedChainCode store).bind chainOfCode := by
  unfold malformedChainId malformedChainCode
  cases store with
  | none => rfl
  | some store =>
    by_cases hempty : trim store = []
    · simp only [Option.map_some, Option.bind_some, hempty]
      rfl
    · simp only [Option.map_some, Option.bind_some, Option.filter_some, hempty, ne_eq,
        not_false_eq_true, decide_true, if_true]

theorem absentOutcome_eq (reply : Option (List ProductCandidate)) (ean : JsString) :
    ∃ reason, reason ≠ Reason.invalidGtin ∧ reason ≠ .identifierMismatch ∧
      absentOutcome reply ean = unknown ean reason { ean := some ean } := by
  cases reply with
  | none => exact ⟨.batchFailed, by decide, by decide, rfl⟩
  | some products => exact ⟨.missingRequestedEan, by decide, by decide, rfl⟩

theorem sourceRecordId_absentOutcome (reply : Option (List ProductCandidate)) (ean : JsString) :
    (absentOutcome reply ean).sourceRecordId = ean := by
  obtain ⟨reason, -, -, heq⟩ := absentOutcome_eq reply ean
  rw [heq]
  rfl

/-- A code stands for one chain. -/
theorem eq_of_chainByCode {entry entry' : JsString × Chain} (hentry : entry ∈ chainByCode)
    (hentry' : entry' ∈ chainByCode) (hcode : entry.1 = entry'.1) : entry = entry' := by
  have hall : ∀ e ∈ chainByCode, ∀ e' ∈ chainByCode, e.1 = e'.1 → e = e' := by decide
  exact hall _ hentry _ hentry' hcode

section Kept

variable (hkept : KeptApart dateParse kind targets replies) (htargets : IsCanonicalTargets targets)
include hkept htargets

section

variable (hrequest : IsRequest targets replies i context (some products))

include hrequest

/-- A product row that does not parse has one outcome in all responses. -/
theorem Origin.eq_of_malformed {index : ℕ} {ean : Option JsString}
    (hrequest' : IsRequest targets replies j context' reply')
    (hrow : products[index]? = some (.malformed ean))
    (hother : Origin dateParse kind context' reply' other)
    (hid : malformedProductId kind index = other.sourceRecordId) :
    quarantined (malformedProductId kind index) .malformedRecord { ean := validEan ean } = other := by
  cases hother with
  | malformed hreply hrow' =>
    subst hreply
    obtain rfl := malformedProductId_injective kind hid
    rw [hkept.products hrequest hrequest' hrow hrow']
  | invalid hreply hrow' hinvalid =>
    subst hreply
    have hnames : Names kind context products (malformedProductId kind index) := .product hrow
    rw [hid] at hnames
    exact (hkept.texts hrequest' hrequest hrow' hinvalid hnames).elim
  | mismatch hreply hrow' hvalid hunexpected =>
    exact absurd (hid.trans (List.append_nil _).symm) (malformedProductId_ne_append hvalid)
  | delivered hreply hdelivers =>
    exact absurd (hid.trans hdelivers.sourceRecordId) (malformedProductId_ne_append hdelivers.valid)
  | absent hasked habsent =>
    exact absurd ((hid.trans (sourceRecordId_absentOutcome _ _)).trans (List.append_nil _).symm)
      (malformedProductId_ne_append (hrequest'.valid_of_mem htargets hasked))

/-- What stands for a GTIN without being one has one outcome in all responses. -/
theorem Origin.eq_of_invalid {product : ProductRow}
    (hrequest' : IsRequest targets replies j context' reply') (hrow : .parsed product ∈ products)
    (hinvalid : isValidGtin product.ean = false)
    (hother : Origin dateParse kind context' reply' other)
    (hid : product.ean = other.sourceRecordId)
    (hfree : ¬ Contested dateParse kind context (some products) product.ean) :
    quarantined product.ean .invalidGtin {} = other := by
  have hplain : ∀ {ean}, product.ean = ean → isValidGtin ean = true → False := by
    rintro ean rfl hvalid
    rw [hinvalid] at hvalid
    cases hvalid
  cases hother with
  | malformed hreply hrow' =>
    subst hreply
    have hid : product.ean = malformedProductId kind _ := hid
    exact (hkept.texts hrequest hrequest' hrow hinvalid (hid ▸ .product hrow')).elim
  | invalid hreply hrow' hinvalid' =>
    rw [show product.ean = _ from hid]
    rfl
  | mismatch hreply hrow' hvalid hunexpected => exact (hplain hid hvalid).elim
  | delivered hreply hdelivers =>
    subst hreply
    cases hdelivers with
    | store hrow' hasked hkind hstore =>
      have hid : product.ean = fallbackRecordId _ _ := hid
      exact (hkept.texts hrequest hrequest' hrow hinvalid
        (hid ▸ .store hrow' hasked hkind hstore)).elim
    | price hrow' hasked hprice =>
      obtain ⟨rfl, product', row, hproduct, hasked', hprice', hacceptable, heq⟩ :=
        hkept.prices hrequest hrequest' hrow hinvalid hrow' hasked hprice
          (hid.trans (PriceRow.sourceRecordId_outcome _)).symm
      refine absurd ?_ hfree
      refine Origin.contested (.delivered rfl (.price hproduct hasked' hprice'))
        (.invalid rfl hrow hinvalid) ((PriceRow.sourceRecordId_outcome row).trans heq)
        ((PriceRow.isAccepted_outcome row).mpr hacceptable) ?_
      intro heq'
      exact row.outcome_spec.2 (congrArg PriceOutcome.reason? heq')
    | coverage huncovered =>
      have hid : product.ean = coverageId _ _ := hid
      exact (hkept.texts hrequest hrequest' hrow hinvalid (hid ▸ .coverage huncovered)).elim
  | absent hasked habsent =>
    exact (hplain (hid.trans (sourceRecordId_absentOutcome _ _))
      (hrequest'.valid_of_mem htargets hasked)).elim

/-- An EAN that was not asked for, or not delivered, has one outcome in all responses. -/
theorem Origin.eq_of_mismatch {product : ProductRow}
    (hrequest' : IsRequest targets replies j context' reply') (hrow : .parsed product ∈ products)
    (hvalid : isValidGtin product.ean = true) (hunexpected : product.ean ∉ context.expectedEans)
    (hother : Origin dateParse kind context' reply' other)
    (hid : product.ean = other.sourceRecordId) :
    quarantined product.ean .identifierMismatch (mismatchSubject kind product.ean) = other := by
  cases hother with
  | malformed hreply hrow' =>
    subst hreply
    exact (Origin.eq_of_malformed hkept htargets hrequest' hrequest hrow'
      (.mismatch rfl hrow hvalid hunexpected) hid.symm).symm
  | invalid hreply hrow' hinvalid =>
    have hid : product.ean = _ := hid
    rw [hid] at hvalid
    cases hvalid.symm.trans hinvalid
  | mismatch hreply hrow' hvalid' hunexpected' =>
    have hid : product.ean = _ := hid
    rw [hid]
    rfl
  | delivered hreply hdelivers =>
    exact absurd (hid.trans hdelivers.sourceRecordId) (ean_ne_tagged hvalid)
  | absent hasked habsent =>
    exact absurd (hid.trans (sourceRecordId_absentOutcome _ _))
      (hkept.absent hrequest' hasked habsent hrequest hrow)

end

/-- An EAN that was asked for and not delivered has one outcome in all responses. -/
theorem Origin.eq_of_absent {ean : JsString} (hrequest : IsRequest targets replies i context reply)
    (hrequest' : IsRequest targets replies j context' reply') (hasked : ean ∈ context.expectedEans)
    (habsent : ∀ products, reply = some products → ean ∉ returnedEans context products)
    (hother : Origin dateParse kind context' reply' other) (hid : ean = other.sourceRecordId) :
    absentOutcome reply ean = other := by
  have hvalid := hrequest.valid_of_mem htargets hasked
  have hid' : (absentOutcome reply ean).sourceRecordId = ean := sourceRecordId_absentOutcome _ _
  cases hother with
  | malformed hreply hrow' =>
    subst hreply
    exact (Origin.eq_of_malformed hkept htargets hrequest' hrequest hrow'
      (.absent hasked habsent) (hid.symm.trans hid'.symm)).symm
  | invalid hreply hrow' hinvalid =>
    have hid : ean = _ := hid
    rw [hid] at hvalid
    cases hvalid.symm.trans hinvalid
  | mismatch hreply hrow' hvalid' hunexpected' =>
    subst hreply
    exact absurd hid.symm (hkept.absent hrequest hasked habsent hrequest' hrow')
  | delivered hreply hdelivers =>
    exact absurd (hid.trans hdelivers.sourceRecordId) (ean_ne_tagged hvalid)
  | absent hasked' habsent' =>
    obtain rfl := hid.trans (sourceRecordId_absentOutcome _ _)
    obtain rfl := hrequest.eq_of_mem hrequest' htargets hasked hasked'
    rw [(hrequest.unique hrequest').2]

/-- What two responses deliver under one record has one outcome: the records of the three kinds
differ in what follows the EAN. -/
theorem Delivers.eq_of_tail {products' : List ProductCandidate} {ean ean' tail tail' : JsString}
    (hrequest : IsRequest targets replies i context (some products))
    (hrequest' : IsRequest targets replies j context' (some products'))
    (hdelivers : Delivers dateParse kind context products ean tail outcome)
    (hdelivers' : Delivers dateParse kind context' products' ean' tail' other) (hean : ean = ean')
    (htail : tail = tail')
    (hfree : ¬ Contested dateParse kind context (some products) outcome.sourceRecordId)
    (hfree' : ¬ Contested dateParse kind context' (some products') other.sourceRecordId) :
    outcome = other := by
  have hforth := Origin.delivered rfl hdelivers
  have hback := Origin.delivered rfl hdelivers'
  have hid : outcome.sourceRecordId = other.sourceRecordId := by
    rw [hdelivers.sourceRecordId, hdelivers'.sourceRecordId, hean, htail]
  cases hdelivers with
  | store hrow hasked hkind hstore =>
    cases hdelivers' with
    | store hrow' hasked' hkind' hstore' =>
      obtain rfl := hrequest.eq_of_mem hrequest' htargets hasked.2 (hean ▸ hasked'.2)
      obtain ⟨rfl, hreply⟩ := hrequest.unique hrequest'
      cases hreply
      obtain rfl := ofNat_injective (List.append_cancel_left htail)
      have hcode := hkept.stores hkind hrequest hrow hrow' hasked hean.symm hstore hstore'
      rw [malformedChainId_eq_bind, malformedChainId_eq_bind, hcode, hean]
    | price hrow' hasked' hprice =>
      exact absurd htail (store_ne_tail ((kind_of_mem_priceRows hprice).trans hkind) _)
    | coverage huncovered => exact absurd htail store_ne_coverage
  | price hrow hasked hprice =>
    have hrowkind := kind_of_mem_priceRows hprice
    cases hdelivers' with
    | store hrow' hasked' hkind hstore =>
      exact absurd htail.symm (store_ne_tail (hrowkind.trans hkind) _)
    | price hrow' hasked' hprice' =>
      obtain rfl := hrequest.eq_of_mem hrequest' htargets hasked.2 (hean ▸ hasked'.2)
      obtain ⟨rfl, hreply⟩ := hrequest.unique hrequest'
      cases hreply
      by_contra hne
      obtain heq | hacceptable | hacceptable := PriceRow.outcome_eq_or_isAcceptable dateParse context
        (hrowkind.trans (kind_of_mem_priceRows hprice').symm) htail
      · exact hne (heq.trans (by rw [hean]))
      · exact hfree' (hforth.contested hback hid
          ((PriceRow.isAccepted_outcome _).mpr hacceptable) hne)
      · exact hfree (hback.contested hforth hid.symm
          ((PriceRow.isAccepted_outcome _).mpr hacceptable) (Ne.symm hne))
    | coverage huncovered =>
      exact absurd htail (tail_ne_coverage (hrowkind.trans huncovered.1) _)
  | coverage huncovered =>
    cases hdelivers' with
    | store hrow' hasked' hkind hstore => exact absurd htail.symm store_ne_coverage
    | price hrow' hasked' hprice =>
      exact absurd htail.symm
        (tail_ne_coverage ((kind_of_mem_priceRows hprice).trans huncovered.1) _)
    | coverage huncovered' =>
      have hentry := eq_of_chainByCode huncovered.2.2.1 huncovered'.2.2.1
        (List.append_cancel_right htail)
      rw [hean, hentry]

/-- **Outcomes of one record are the same**, where rows are kept apart and the outcomes of a
response do not contradict each other.

**Proof sketch.** An outcome that is not delivered under an EAN has a record that determines it,
whatever the other one is of, and this holds the other way round. Of two that are delivered the
records have the same EAN, and the same tail. -/
theorem Origin.eq_of_keptApart (hrequest : IsRequest targets replies i context reply)
    (hrequest' : IsRequest targets replies j context' reply')
    (horigin : Origin dateParse kind context reply outcome)
    (hother : Origin dateParse kind context' reply' other)
    (hid : outcome.sourceRecordId = other.sourceRecordId)
    (hfree : ¬ Contested dateParse kind context reply outcome.sourceRecordId)
    (hfree' : ¬ Contested dateParse kind context' reply' other.sourceRecordId) :
    outcome = other := by
  have hforth := horigin
  cases horigin with
  | malformed hreply hrow =>
    subst hreply
    exact Origin.eq_of_malformed hkept htargets hrequest hrequest' hrow hother hid
  | invalid hreply hrow hinvalid =>
    subst hreply
    exact Origin.eq_of_invalid hkept htargets hrequest hrequest' hrow hinvalid hother hid hfree
  | mismatch hreply hrow hvalid hunexpected =>
    subst hreply
    exact Origin.eq_of_mismatch hkept htargets hrequest hrequest' hrow hvalid hunexpected hother hid
  | absent hasked habsent =>
    exact Origin.eq_of_absent hkept htargets hrequest hrequest' hasked habsent hother
      ((sourceRecordId_absentOutcome _ _).symm.trans hid)
  | delivered hreply hdelivers =>
    subst hreply
    have htag := hdelivers.sourceRecordId.symm.trans hid
    cases hother with
    | malformed hreply' hrow' =>
      subst hreply'
      exact (Origin.eq_of_malformed hkept htargets hrequest' hrequest hrow' hforth hid.symm).symm
    | invalid hreply' hrow' hinvalid =>
      subst hreply'
      exact (Origin.eq_of_invalid hkept htargets hrequest' hrequest hrow' hinvalid hforth hid.symm
        hfree').symm
    | mismatch hreply' hrow' hvalid hunexpected => exact absurd htag.symm (ean_ne_tagged hvalid)
    | absent hasked' habsent =>
      exact absurd ((sourceRecordId_absentOutcome _ _).symm.trans htag.symm)
        (ean_ne_tagged (hrequest'.valid_of_mem htargets hasked'))
    | delivered hreply' hdelivers' =>
      subst hreply'
      obtain ⟨hean, htail⟩ := eq_of_tagged hdelivers.valid hdelivers'.valid
        (htag.trans hdelivers'.sourceRecordId)
      exact hdelivers.eq_of_tail hkept htargets hrequest hrequest' hdelivers' hean htail hfree hfree'

/-- Where a record has a row with a price, its outcomes are of one response. -/
theorem Origin.index_eq_of_isPriced (hrequest : IsRequest targets replies i context (some products))
    (hrequest' : IsRequest targets replies j context' reply')
    (hpriced : IsPriced dateParse kind context products other.sourceRecordId)
    (hother : Origin dateParse kind context' reply' other) : i = j := by
  obtain ⟨product, row, hproduct, hasked, hrow, -, htag⟩ := hpriced
  have hkind := kind_of_mem_priceRows hrow
  cases hother with
  | malformed hreply' hrow' =>
    subst hreply'
    have hnames : Names kind context' _ (malformedProductId kind _) := .product hrow'
    exact absurd htag (hnames.ne_priced hasked.1 hkind)
  | invalid hreply' hrow' hinvalid =>
    subst hreply'
    exact (hkept.prices hrequest' hrequest hrow' hinvalid hproduct hasked hrow htag).1.symm
  | mismatch hreply' hrow' hvalid hunexpected =>
    exact absurd htag.symm (ean_ne_tagged hvalid)
  | absent hasked' habsent =>
    exact absurd ((sourceRecordId_absentOutcome _ _).symm.trans htag.symm)
      (ean_ne_tagged (hrequest'.valid_of_mem htargets hasked'))
  | delivered hreply' hdelivers =>
    cases hdelivers with
    | store hrow' hasked' hkind' hstore =>
      exact absurd htag ((Names.store hrow' hasked' hkind' hstore).ne_priced hasked.1 hkind)
    | price hrow' hasked' hprice =>
      obtain ⟨hean, -⟩ := eq_of_tagged hasked.1 hasked'.1
        (htag.trans (PriceRow.sourceRecordId_outcome _))
      exact hrequest.eq_of_mem hrequest' htargets hasked.2 (hean ▸ hasked'.2)
    | coverage huncovered =>
      exact absurd htag ((Names.coverage huncovered).ne_priced hasked.1 hkind)

/-- **A run whose rows are kept apart has one outcome for each record.** -/
theorem eq_of_mem_sourceOutcomes {host : Host} {stringify : PriceOutcome → JsString}
    (hmem : outcome ∈ sourceOutcomes dateParse host stringify kind targets replies)
    (hmem' : other ∈ sourceOutcomes dateParse host stringify kind targets replies)
    (hid : outcome.sourceRecordId = other.sourceRecordId) : outcome = other := by
  obtain ⟨i, context, reply, hrequest, hget⟩ := mem_sourceOutcomes.mp hmem
  obtain ⟨j, context', reply', hrequest', hget'⟩ := mem_sourceOutcomes.mp hmem'
  obtain ⟨horigin, hfree⟩ | ⟨hcontested, heq⟩ := mem_getSourcePrices.mp hget
  · obtain ⟨hother, hfree'⟩ | ⟨hcontested', heq'⟩ := mem_getSourcePrices.mp hget'
    · exact Origin.eq_of_keptApart hkept htargets hrequest hrequest' horigin hother hid hfree hfree'
    · -- the record has a price in the response of the other outcome, so both are of that response
      obtain ⟨products', rfl, hpriced⟩ := isPriced_of_contested hcontested'
      rw [← hid] at hpriced hcontested'
      obtain rfl := Origin.index_eq_of_isPriced hkept htargets hrequest' hrequest hpriced horigin
      obtain ⟨rfl, rfl⟩ := hrequest.unique hrequest'
      exact absurd hcontested' hfree
  · obtain ⟨products, rfl, hpriced⟩ := isPriced_of_contested hcontested
    rw [hid] at hpriced hcontested
    obtain ⟨hother, hfree'⟩ | ⟨hcontested', heq'⟩ := mem_getSourcePrices.mp hget'
    · obtain rfl := Origin.index_eq_of_isPriced hkept htargets hrequest hrequest' hpriced hother
      obtain ⟨rfl, rfl⟩ := hrequest.unique hrequest'
      exact absurd hcontested hfree'
    · obtain ⟨products', rfl, hpriced'⟩ := isPriced_of_contested hcontested'
      obtain ⟨product, row, hproduct, hasked, hrow, hacceptable, htag⟩ := hpriced'
      have hother : Origin dateParse kind context' (some products')
          (row.outcome dateParse context' product.ean) :=
        .delivered rfl (.price hproduct hasked hrow)
      have hpriced' : IsPriced dateParse kind context products
          (row.outcome dateParse context' product.ean).sourceRecordId := by
        rw [PriceRow.sourceRecordId_outcome, htag]
        exact hpriced
      obtain rfl := Origin.index_eq_of_isPriced hkept htargets hrequest hrequest' hpriced' hother
      obtain ⟨rfl, hreply⟩ := hrequest.unique hrequest'
      cases hreply
      rw [heq, heq', hid]

end Kept

/-! ### Runs without conflict -/

@[simp] theorem sourceRecordId_mapPriceOutcome (targets : List PriceTarget) (outcome : PriceOutcome) :
    (mapPriceOutcome targets outcome).sourceRecordId = outcome.sourceRecordId := by
  cases outcome <;> rfl

/-- What is written of an outcome that is not accepted tells the outcome. -/
theorem eq_of_mapPriceOutcome_rejected {rejection : Rejection}
    (heq : mapPriceOutcome targets (.rejected rejection) = mapPriceOutcome targets other) :
    PriceOutcome.rejected rejection = other := by
  have hrecord := congrArg SemanticOutcome.normalizedRecord heq
  cases other with
  | accepted record => cases hrecord
  | rejected rejection' =>
    have hrejection := (AuditedRecord.rejection.inj hrecord).1
    rw [hrejection]

section Free

variable {host : Host} {stringify : PriceOutcome → JsString}
  (hfree : ConflictFree (priceOutcomes dateParse host stringify kind targets replies))
include hfree

theorem eq_of_conflictFree {rejection : Rejection}
    (hmem : .rejected rejection ∈ sourceOutcomes dateParse host stringify kind targets replies)
    (hmem' : other ∈ sourceOutcomes dateParse host stringify kind targets replies)
    (hid : rejection.sourceRecordId = other.sourceRecordId) :
    PriceOutcome.rejected rejection = other := by
  have heq := hfree _ (List.mem_map_of_mem hmem) _ (List.mem_map_of_mem hmem') (by
    rw [sourceRecordId_mapPriceOutcome, sourceRecordId_mapPriceOutcome]
    exact hid)
  exact eq_of_mapPriceOutcome_rejected heq

omit hfree in
/-- An outcome is kept where its record has no row with a price. -/
theorem Origin.mem_sourceOutcomes (horigin : Origin dateParse kind context reply outcome)
    (hrequest : IsRequest targets replies i context reply)
    (hcontested : ¬ Contested dateParse kind context reply outcome.sourceRecordId) :
    outcome ∈ sourceOutcomes dateParse host stringify kind targets replies :=
  Kassalapp.mem_sourceOutcomes.mpr
    ⟨i, context, reply, hrequest, mem_getSourcePrices.mpr (.inl ⟨horigin, hcontested⟩)⟩

omit hfree in
variable (dateParse host stringify) in
/-- Of a record there is an outcome that is not about an invalid GTIN, if a row with a price is of
it. -/
theorem exists_mem_sourceOutcomes {product : ProductRow} {row : PriceRow}
    (hrequest : IsRequest targets replies i context (some products))
    (hproduct : .parsed product ∈ products) (hasked : IsAsked context product)
    (hrow : row ∈ priceRows kind product) :
    ∃ outcome ∈ sourceOutcomes dateParse host stringify kind targets replies,
      outcome.sourceRecordId = product.ean ++ 58 :: row.tail ∧
        outcome.reason? ≠ some .invalidGtin := by
  have hid : (row.outcome dateParse context product.ean).sourceRecordId =
      product.ean ++ 58 :: row.tail := row.sourceRecordId_outcome
  by_cases hcontested : Contested dateParse kind context (some products)
      (product.ean ++ 58 :: row.tail)
  · refine ⟨duplicateOf (rawOutcomes dateParse kind context (some products))
      (product.ean ++ 58 :: row.tail), ?_, rfl, nofun⟩
    exact Kassalapp.mem_sourceOutcomes.mpr
      ⟨i, context, _, hrequest, mem_getSourcePrices.mpr (.inr ⟨hcontested, rfl⟩)⟩
  · refine ⟨row.outcome dateParse context product.ean, ?_, hid, row.outcome_spec.2⟩
    exact (Origin.delivered rfl (.price hproduct hasked hrow)).mem_sourceOutcomes hrequest
      (by rwa [hid])

/-- An outcome of the record of a text that is no GTIN is about that. -/
theorem reason?_eq_of_invalid {product : ProductRow}
    (hrequest : IsRequest targets replies i context (some products))
    (hproduct : .parsed product ∈ products) (hinvalid : isValidGtin product.ean = false)
    (hapart : ¬ Contested dateParse kind context (some products) product.ean)
    (hmem : other ∈ sourceOutcomes dateParse host stringify kind targets replies)
    (hid : other.sourceRecordId = product.ean) : other.reason? = some .invalidGtin :=
  eq_of_conflictFree hfree ((Origin.invalid rfl hproduct hinvalid).mem_sourceOutcomes hrequest hapart)
    hmem hid.symm ▸ rfl

variable (htargets : IsCanonicalTargets targets)
include htargets

/-- **The rows of a run without conflict are kept apart.** -/
theorem keptApart_of_conflictFree : KeptApart dateParse kind targets replies where
  products := by
    intro i j context context' products products' index ean ean' hrequest hrequest' hrow hrow'
    have hapart : ∀ {context : PriceNormalizationContext} {reply : Option (List ProductCandidate)},
        ¬ Contested dateParse kind context reply (malformedProductId kind index) :=
      not_contested_of_ne fun hean _ => (malformedProductId_ne_append hean).symm
    have heq := eq_of_conflictFree hfree
      ((Origin.malformed rfl hrow).mem_sourceOutcomes hrequest hapart)
      ((Origin.malformed rfl hrow').mem_sourceOutcomes hrequest' hapart) rfl
    exact congrArg (fun outcome => outcome.subject.ean) heq
  absent := by
    intro i j context context' reply products ean product hrequest hasked habsent hrequest' hproduct
    rintro rfl
    have hvalid := hrequest.valid_of_mem htargets hasked
    have hapart : ∀ {context : PriceNormalizationContext} {reply : Option (List ProductCandidate)},
        ¬ Contested dateParse kind context reply product.ean :=
      not_contested_of_ne fun _ _ => (ean_ne_tagged hvalid).symm
    by_cases hexpected : product.ean ∈ context'.expectedEans
    · obtain rfl := hrequest.eq_of_mem hrequest' htargets hasked hexpected
      obtain ⟨rfl, rfl⟩ := hrequest.unique hrequest'
      refine habsent products rfl (List.mem_dedup.mpr (List.mem_filterMap.mpr ⟨_, hproduct, ?_⟩))
      exact if_pos ⟨hvalid, hexpected⟩
    · have horigin : Origin dateParse kind context reply (absentOutcome reply product.ean) :=
        .absent hasked habsent
      have hmem : absentOutcome reply product.ean ∈
          sourceOutcomes dateParse host stringify kind targets replies :=
        horigin.mem_sourceOutcomes hrequest (by rw [sourceRecordId_absentOutcome]; exact hapart)
      have heq := eq_of_conflictFree hfree
        ((Origin.mismatch rfl hproduct hvalid hexpected).mem_sourceOutcomes hrequest' hapart) hmem
        (sourceRecordId_absentOutcome _ _).symm
      obtain ⟨reason, -, hreason, habsent⟩ := absentOutcome_eq reply product.ean
      rw [habsent] at heq
      exact hreason (congrArg Rejection.reason (PriceOutcome.rejected.inj heq)).symm
  stores := by
    intro hkind i context products product product' index store store' hrequest hproduct hproduct'
      hasked hean hstore hstore'
    have hasked' : IsAsked context product' := by
      unfold IsAsked
      rw [hean]
      exact hasked
    have hapart : ¬ Contested dateParse kind context (some products)
        (fallbackRecordId product.ean index) :=
      not_contested_of_ne fun hean hrow =>
        (Names.store hproduct hasked hkind hstore).ne_priced hean hrow
    have heq := eq_of_conflictFree hfree
      ((Origin.delivered rfl (.store hproduct hasked hkind hstore)).mem_sourceOutcomes hrequest hapart)
      ((Origin.delivered rfl (.store hproduct' hasked' hkind hstore')).mem_sourceOutcomes hrequest
        (by rw [hean]; exact hapart)) (by rw [hean]; rfl)
    exact congrArg (fun outcome => outcome.subject.chainCode) heq
  texts := by
    intro i j context context' products products' product hrequest hrequest' hproduct hinvalid hnames
    have hapart : ∀ {context : PriceNormalizationContext} {reply : Option (List ProductCandidate)},
        ¬ Contested dateParse kind context reply product.ean :=
      not_contested_of_ne fun hean hrow => hnames.ne_priced hean hrow
    obtain ⟨other, hother, hid, hreason⟩ : ∃ other, Origin dateParse kind context' (some products')
        other ∧ other.sourceRecordId = product.ean ∧ other.reason? ≠ some .invalidGtin := by
      generalize product.ean = text at hnames
      cases hnames with
      | product hrow => exact ⟨_, .malformed rfl hrow, rfl, nofun⟩
      | store hrow hasked hkind hstore =>
        exact ⟨_, .delivered rfl (.store hrow hasked hkind hstore), rfl, nofun⟩
      | coverage huncovered => exact ⟨_, .delivered rfl (.coverage huncovered), rfl, nofun⟩
    exact hreason (reason?_eq_of_invalid hfree hrequest hproduct hinvalid hapart
      (hother.mem_sourceOutcomes hrequest' (by rw [hid]; exact hapart)) hid)
  prices := by
    intro i j context context' products products' product product' row hrequest hrequest' hproduct
      hinvalid hproduct' hasked hrow htag
    by_contra hnot
    have hapart : ¬ Contested dateParse kind context (some products) product.ean := by
      intro hcontested
      obtain ⟨priced, hreply, hpriced⟩ := isPriced_of_contested hcontested
      cases hreply
      obtain ⟨product'', row'', -, hasked'', -, -, htag''⟩ := id hpriced
      obtain ⟨hean, -⟩ := eq_of_tagged hasked''.1 hasked.1 (htag''.trans htag.symm)
      exact hnot ⟨hrequest.eq_of_mem hrequest' htargets hasked''.2 (hean ▸ hasked.2), hpriced⟩
    obtain ⟨other, hother, hid, hreason⟩ :=
      exists_mem_sourceOutcomes dateParse host stringify hrequest' hproduct' hasked hrow
    exact hreason (reason?_eq_of_invalid hfree hrequest hproduct hinvalid hapart hother
      (hid.trans htag))

end Free

/-- A ledger takes outcomes whatever the digest, if those of one record are the same. -/
theorem isSome_auditOutcomes_iff {outcomes : List SemanticOutcome} :
    (∀ (H : Type) [DecidableEq H] (hash : SemanticOutcome → H),
      (auditOutcomes hash [] outcomes).isSome) ↔ ConflictFree outcomes := by
  have hledger : ∀ (H : Type) [DecidableEq H] (hash : SemanticOutcome → H),
      (auditOutcomes hash [] outcomes).isSome ↔
        JsMap.Functional (outcomes.map fun outcome => (outcome.sourceRecordId, hash outcome)) := by
    intro H _ hash
    have hnil : JsMap.Functional ([] : List (JsString × H)) := nofun
    unfold auditOutcomes
    rw [← List.foldlM_map (f := fun outcome : SemanticOutcome => (outcome.sourceRecordId, hash outcome))
      (g := fun (m : JsMap JsString H) e => m.setUnlessOther e.1 e.2), Option.isSome_iff_exists]
    constructor
    · rintro ⟨ledger, hsome⟩
      exact ((JsMap.foldlM_setUnlessOther hnil).mp hsome).1
    · intro hfunctional
      exact ⟨_, (JsMap.foldlM_setUnlessOther hnil).mpr ⟨hfunctional, rfl⟩⟩
  constructor
  · intro hall outcome hmem other hother hid
    have hfunctional := (hledger SemanticOutcome id).mp (hall SemanticOutcome id)
    exact hfunctional _ (List.mem_map_of_mem hmem) _ (List.mem_map_of_mem hother) hid
  · intro hfree H _ hash
    refine (hledger H hash).mpr ?_
    intro entry hentry entry' hentry' hid
    obtain ⟨outcome, hmem, rfl⟩ := List.mem_map.mp hentry
    obtain ⟨other, hother, rfl⟩ := List.mem_map.mp hentry'
    exact congrArg hash (hfree _ hmem _ hother hid)

end Requests

/-- **The ledger of a run takes all outcomes exactly when the rows are kept apart.**

**Proof sketch.** What is left of a response comes from its rows; outcomes that contradict each
other are of a record with a price. The records of prices tell their rows, and an EAN is asked for
in one request, so two outcomes of one record are of rows that the condition speaks of. The other
way round, each row that the condition speaks of leaves an outcome, and these outcomes differ if the
rows do. -/
theorem conflictFree_iff_keptApart (dateParse : JsString → ℤ) (host : Host)
    (stringify : PriceOutcome → JsString) (kind : ObservationKind) {targets : List PriceTarget}
    (htargets : IsCanonicalTargets targets) (replies : ℕ → PriceReply) :
    (ConflictFree (priceOutcomes dateParse host stringify kind targets replies) ↔
      KeptApart dateParse kind targets replies) ∧
    ((∀ (H : Type) [DecidableEq H] (hash : SemanticOutcome → H),
      (auditOutcomes hash []
        (priceOutcomes dateParse host stringify kind targets replies)).isSome) ↔
      KeptApart dateParse kind targets replies) := by
  have hiff : ConflictFree (priceOutcomes dateParse host stringify kind targets replies) ↔
      KeptApart dateParse kind targets replies := by
    constructor
    · intro hfree
      exact keptApart_of_conflictFree hfree htargets
    · intro hkept outcome hmem other hother hid
      obtain ⟨source, hsource, rfl⟩ := List.mem_map.mp hmem
      obtain ⟨source', hsource', rfl⟩ := List.mem_map.mp hother
      rw [sourceRecordId_mapPriceOutcome, sourceRecordId_mapPriceOutcome] at hid
      rw [eq_of_mem_sourceOutcomes hkept htargets hsource hsource' hid]
  exact ⟨hiff, isSome_auditOutcomes_iff.trans hiff⟩

/-- A target. -/
def milk : PriceTarget := ⟨js "7038010000065", none⟩

theorem isCanonicalTargets_milk : IsCanonicalTargets [milk] where
  nodup := List.nodup_singleton _
  valid := by
    intro target htarget
    obtain rfl := List.mem_singleton.mp htarget
    decide

/-- A product twice, and in each a store row that does not parse, the second one of a given chain. -/
def twiceRows (chainCode : JsString) : List ProductCandidate :=
  [.parsed ⟨milk.ean, [.malformed (some (js "BUNNPRIS"))], []⟩,
    .parsed ⟨milk.ean, [.malformed (some chainCode)], []⟩]

/-- The response with these rows. -/
def twiceMilk (chainCode : JsString) : PriceReply := ⟨0, some (twiceRows chainCode)⟩

/-- The outcomes of rows that do not parse do not conflict where they are of one chain. -/
theorem conflictFree_same_chain :
    ConflictFree (priceOutcomes (fun _ => 0) Host.ascii PriceOutcome.sourceRecordId .current [milk]
      fun _ => twiceMilk (js "BUNNPRIS")) := by
  refine (conflictFree_iff_keptApart (fun _ => 0) Host.ascii PriceOutcome.sourceRecordId .current
    isCanonicalTargets_milk fun _ => twiceMilk (js "BUNNPRIS")).1.mpr ?_
  have hrows : ∀ {i : ℕ} {context : PriceNormalizationContext} {products : List ProductCandidate},
      IsRequest [milk] (fun _ => twiceMilk (js "BUNNPRIS")) i context
        (some products) → products = twiceRows (js "BUNNPRIS") :=
    fun hrequest => (Option.some.inj (congrArg PriceReply.products hrequest.reply)).symm
  have hmilk : ∀ {product : ProductRow},
      .parsed product ∈ twiceRows (js "BUNNPRIS") →
        product = ⟨milk.ean, [.malformed (some (js "BUNNPRIS"))], []⟩ :=
    fun hmem => by simpa [twiceRows] using hmem
  have hvalid : ∀ {product : ProductRow},
      .parsed product ∈ twiceRows (js "BUNNPRIS") →
        isValidGtin product.ean ≠ false := by
    rintro product hmem
    rw [hmilk hmem]
    decide
  refine ⟨fun hrequest hrequest' hrow hrow' => ?_, fun hrequest hean habsent hrequest' hmem heq => ?_,
    fun _ _ _ _ _ _ _ _ _ hrequest hmem hmem' _ _ hstore hstore' => ?_,
    fun hrequest _ hmem hinvalid => ?_, fun hrequest _ hmem hinvalid => ?_⟩
  · rw [hrows hrequest] at hrow
    rw [hrows hrequest', hrow] at hrow'
    cases hrow'
    rfl
  · obtain rfl := heq
    rw [hrows hrequest'] at hmem
    rw [hmilk hmem] at hean habsent
    refine habsent _ (congrArg PriceReply.products hrequest.reply).symm
      (List.mem_dedup.mpr (List.mem_filterMap.mpr ⟨_, List.mem_cons_self, ?_⟩))
    exact if_pos ⟨by decide, hean⟩
  · rw [hrows hrequest] at hmem hmem'
    rw [hmilk hmem] at hstore
    rw [hmilk hmem', hstore] at hstore'
    cases hstore'
    rfl
  · exact absurd hinvalid (hvalid (hrows hrequest ▸ hmem))
  · exact absurd hinvalid (hvalid (hrows hrequest ▸ hmem))

/-- The outcomes of one run can conflict. -/
theorem not_conflictFree_twice :
    ¬ ConflictFree (priceOutcomes (fun _ => 0) Host.ascii
        (fun outcome => outcome.subject.chainCode.getD []) .current [milk]
        fun _ => twiceMilk (js "COOP_EXTRA")) ∧
      auditOutcomes id [] (priceOutcomes (fun _ => 0) Host.ascii
        (fun outcome => outcome.subject.chainCode.getD []) .current [milk]
        fun _ => twiceMilk (js "COOP_EXTRA")) =
          none := by
  have hfind : ∃ outcome ∈ priceOutcomes (fun _ => 0) Host.ascii
        (fun outcome => outcome.subject.chainCode.getD []) .current [milk]
        (fun _ => twiceMilk (js "COOP_EXTRA")),
      ∃ other ∈ priceOutcomes (fun _ => 0) Host.ascii
        (fun outcome => outcome.subject.chainCode.getD []) .current [milk]
        (fun _ => twiceMilk (js "COOP_EXTRA")),
      outcome.sourceRecordId = other.sourceRecordId ∧ outcome ≠ other := by
    decide +kernel
  refine ⟨?_, by decide +kernel⟩
  intro hfree
  obtain ⟨outcome, hmem, other, hother, hid, hne⟩ := hfind
  exact hne (hfree outcome hmem other hother hid)

end Handleplan.Kassalapp
