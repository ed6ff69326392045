import Handleplan.Db.PublicCatalogIndexReader

/-!
# When a page of the public catalog is served

The checks of the reader were made for catalog rows, which the database has searched and of which no
two are of one product. The rows of offers are not searched, and a product may have several.

## Main definitions

* `PublicCatalog.Satisfies` — an entry is one that was asked for.
* `PublicCatalog.IsServable` — the condition on the rows of a page.

## Main results

* `PublicCatalog.foldlM_pageStep` — what the loop over a page does.
* `PublicCatalog.servesPage_iff_isServable` — a page is served, with what was asked for,
  exactly when its rows are servable.
-/

namespace Handleplan.PublicCatalog

open JsString

/-! ### Rows of the database -/

section Database

variable {env : Env} {filter : DiscoveryFilter} {cursor : Option Position} {state : CatalogState}
  {rows : List DiscoveryRow} {row : DiscoveryRow}

section FirstPer

variable {α κ : Type} [DecidableEq κ] {key : α → κ} {l : List α} {a : α}

theorem mem_of_mem_firstPer (h : a ∈ firstPer key l) : a ∈ l := by
  induction l with
  | nil => exact h
  | cons b l ih =>
    obtain rfl | h := List.mem_cons.mp h
    · exact List.mem_cons_self
    · exact List.mem_cons_of_mem _ (ih (List.mem_of_mem_filter h))

theorem pairwise_firstPer (key : α → κ) (l : List α) :
    (firstPer key l).Pairwise fun a b => key a ≠ key b := by
  induction l with
  | nil => exact List.Pairwise.nil
  | cons b l ih =>
    refine List.pairwise_cons.mpr ⟨?_, ih.filter _⟩
    intro a ha
    exact (of_decide_eq_true (List.mem_filter.mp ha).2).symm

end FirstPer

/-- What the database says of a row. -/
theorem mem_matchingRows (h : row ∈ matchingRows env filter state) :
    row.toCatalogRow ∈ state.observations ∧ IsCandidate env filter state row.toCatalogRow ∧
      row.sortRank = sortRank env filter.query row.toCatalogRow ∧
        row.sortName = env.lower row.displayName := by
  obtain ⟨catalogRow, hmem, rfl⟩ := List.mem_map.mp h
  obtain ⟨hlatest, hcandidate⟩ := List.mem_filter.mp hmem
  exact ⟨mem_of_mem_firstPer hlatest, of_decide_eq_true hcandidate, rfl, rfl⟩

/-- No two rows of a request have one key. -/
theorem pairwise_matchingRows : (matchingRows env filter state).Pairwise fun left right =>
    catalogKey filter.query left.canonicalProductId left.gtin ≠
      catalogKey filter.query right.canonicalProductId right.gtin := by
  unfold matchingRows
  rw [List.pairwise_map]
  exact (pairwise_firstPer _ _).filter _

section

variable (hscan : IsScan env filter cursor state rows)

include hscan

theorem IsScan.mem (hrow : row ∈ rows) :
    row ∈ matchingRows env filter state := by
  obtain ⟨ordered, hperm, -, rfl⟩ := hscan
  exact List.mem_of_mem_filter (hperm.mem_iff.mp (List.mem_of_mem_take hrow))

theorem IsScan.length_le :
    rows.length ≤ discoveryScanLimitMaximum + 1 := by
  obtain ⟨ordered, -, -, rfl⟩ := hscan
  exact List.length_take_le _ _

/-- No two rows of an answer have one key. -/
theorem IsScan.nodup_keys :
    (rows.map fun row => catalogKey filter.query row.canonicalProductId row.gtin).Nodup := by
  obtain ⟨ordered, hperm, -, rfl⟩ := hscan
  unfold List.Nodup
  rw [List.pairwise_map]
  have hrows : (cursorCandidates cursor (matchingRows env filter state)).Pairwise fun left right =>
      catalogKey filter.query left.canonicalProductId left.gtin ≠
        catalogKey filter.query right.canonicalProductId right.gtin :=
    pairwise_matchingRows.filter _
  exact ((hperm.pairwise_iff fun h => Ne.symm h).mpr hrows).sublist (List.take_sublist _ _)

end

/-- The database can answer so. -/
theorem isScan_scan : IsScan env filter cursor state (scan env filter cursor state) := by
  refine ⟨Sorting.sortBy (Sorting.on DiscoveryRow.position comparePositionsInDatabase)
    (cursorCandidates cursor (matchingRows env filter state)), Sorting.sortBy_perm _ _, ?_, rfl⟩
  exact Sorting.pairwise_sortBy (Sorting.on DiscoveryRow.position comparePositionsInDatabase) _

theorem sortRank_le (query : Option JsString) (row : CatalogRow) : sortRank env query row ≤ 4 := by
  cases query with
  | none => exact Nat.zero_le _
  | some query =>
    unfold sortRank
    dsimp only
    split_ifs <;> decide

end Database

/-! ### Rows of offers -/

section Offers

variable {env : Env} {offers : List OfferRow} {offer : OfferRow} {seen seen' : Seen}

theorem length_trim_le (s : JsString) : (trim s).length ≤ s.length := by
  unfold trim
  exact (List.rdropWhile_prefix _ _).length_le.trans (List.dropWhile_suffix _).length_le

/-- What is known of a usable offer row. -/
theorem offerBackedEligibilityRow_eq_some {row : OfferBackedRow}
    (h : offerBackedEligibilityRow row = some offer) :
    offer.canonicalProductId = row.productId ∧ offer.product.gtin = row.gtin ∧
      gtinShape offer.product.gtin = true ∧
        IsCanonicalIdentifier 64 offer.product.catalogEvidence.source.id := by
  unfold offerBackedEligibilityRow at h
  split_ifs at h
  obtain ⟨product, hproduct, rfl⟩ := Option.map_eq_some_iff.mp h
  unfold offerBackedSummaryFromRow at hproduct
  split_ifs at hproduct with hrow hschema hbut
  · cases hproduct
    refine ⟨rfl, rfl, hrow.gtin, ?_, (length_trim_le _).trans hrow.sourceId.2⟩
    exact hschema.source.1.2.1
  · cases hproduct
    exact ⟨rfl, rfl, hrow.gtin, hrow.sourceId⟩

theorem mem_offerRows {rows : List OfferBackedRow} :
    offer ∈ offerRows env rows ↔ ∃ row ∈ rows, offerBackedEligibilityRow row = some offer := by
  unfold offerRows
  rw [Sorting.mem_sortBy, List.mem_filterMap]

theorem Seen.has_add {productId productId' : ℕ} {gtin gtin' : JsString} :
    (seen.add productId gtin).Has productId' gtin' ↔
      (productId' = productId ∨ gtin' = gtin) ∨ seen.Has productId' gtin' := by
  simp only [Seen.Has, Seen.add, List.mem_cons]
  tauto

/-- The loop over the offer rows ends, with what they are of, if no two share a product or a
GTIN. -/
theorem foldlM_see : offers.foldlM Seen.see seen = .ok seen' ↔
    ((offers.map fun row => row.canonicalProductId).Nodup ∧
      (offers.map fun row => row.product.gtin).Nodup ∧
      ∀ row ∈ offers, ¬ seen.Has row.canonicalProductId row.product.gtin) ∧
    seen' = ⟨(offers.map fun row => row.canonicalProductId).reverse ++ seen.canonicalProductIds,
      (offers.map fun row => row.product.gtin).reverse ++ seen.gtins⟩ := by
  induction offers generalizing seen with
  | nil =>
    rw [List.foldlM_nil]
    simp [pure, Except.pure, eq_comm]
  | cons offer offers ih =>
    rw [List.foldlM_cons, Seen.see]
    by_cases hhas : seen.Has offer.canonicalProductId offer.product.gtin
    · rw [if_pos hhas]
      refine iff_of_false nofun ?_
      rintro ⟨⟨-, -, hnone⟩, -⟩
      exact hnone offer List.mem_cons_self hhas
    · rw [if_neg hhas]
      show offers.foldlM Seen.see (seen.add offer.canonicalProductId offer.product.gtin) = _ ↔ _
      rw [ih]
      simp only [Seen.has_add, List.map_cons, List.nodup_cons, List.mem_map, List.forall_mem_cons,
        List.reverse_cons, List.append_assoc, List.singleton_append]
      constructor
      · rintro ⟨⟨hids, hgtins, hnone⟩, rfl⟩
        refine ⟨⟨⟨?_, hids⟩, ⟨?_, hgtins⟩, hhas, fun row hrow h => hnone row hrow (.inr h)⟩, rfl⟩
        · rintro ⟨row, hrow, heq⟩
          exact hnone row hrow (.inl (.inl heq))
        · rintro ⟨row, hrow, heq⟩
          exact hnone row hrow (.inl (.inr heq))
      · rintro ⟨⟨⟨hid, hids⟩, ⟨hgtin, hgtins⟩, -, hnone⟩, rfl⟩
        refine ⟨⟨hids, hgtins, ?_⟩, rfl⟩
        rintro row hrow ((heq | heq) | h)
        · exact hid ⟨row, hrow, heq⟩
        · exact hgtin ⟨row, hrow, heq⟩
        · exact hnone row hrow h

/-- What is seen of the offer rows. -/
theorem seeOffers_eq_ok : seeOffers offers = .ok seen' ↔
    ((offers.map fun row => row.canonicalProductId).Nodup ∧
      (offers.map fun row => row.product.gtin).Nodup) ∧
    seen' = ⟨(offers.map fun row => row.canonicalProductId).reverse,
      (offers.map fun row => row.product.gtin).reverse⟩ := by
  unfold seeOffers
  rw [foldlM_see]
  simp [Seen.Has]

end Offers

/-! ### The loop over a page -/

section Page

variable (env : Env) (filter : DiscoveryFilter) (offers : List OfferRow)

/-- Whether a candidate is shown: all but rows that are ineligible. -/
def IsShown (candidate : Candidate) : Prop :=
  IsOffered offers candidate ∨ candidate.classification = .eligible

instance : DecidablePred (IsShown offers) := fun _ => inferInstanceAs (Decidable (_ ∨ _))

/-- The entry of a candidate. -/
def entryOf (candidate : Candidate) : Option DiscoveryEntry :=
  (candidate.categoryPath env).bind fun categoryPath =>
    (shownProduct offers candidate categoryPath).map fun product =>
      ⟨candidate.position env, categoryPath, product⟩

/-- Whether an entry is of the category and matches the query that were asked for. -/
structure Answers (entry : DiscoveryEntry) : Prop where
  category : ∀ categoryId ∈ filter.categoryId,
    ∃ path ∈ entry.categoryPath, ∃ category ∈ path, category.id = categoryId
  query : ∀ query ∈ filter.query, summaryMatchesQuery env entry.product query

/-- A candidate in which the reader finds nothing malformed. -/
structure IsReadable (candidate : Candidate) : Prop where
  classification : candidate.classification ≠ .malformed
  position : positionOf env offers candidate = some (candidate.position env)
  entry : ∃ entry, entryOf env offers candidate = some entry

/-- Candidates of which the later one is not of an offered product are of different products and
have different GTINs. -/
def Apart (first second : Candidate) : Prop :=
  ¬ IsOffered offers second → second.productId ≠ first.productId ∧
    (second.position env).gtin ≠ (first.position env).gtin

instance : DecidableRel (Apart env offers) := fun _ _ => inferInstanceAs (Decidable (¬ _ → _ ∧ _))

variable {env filter offers} {candidate : Candidate} {page : List Candidate} {seen : Seen}
  {entries result : List DiscoveryEntry} {state : Seen × List DiscoveryEntry}

/-- What the loop does with a candidate. -/
theorem pageStep_eq_ok (hreadable : IsReadable env offers candidate) :
    pageStep env filter offers (seen, entries) candidate = .ok state ↔
      (¬ IsShown offers candidate ∧ state = (seen, entries)) ∨
      (IsShown offers candidate ∧ ∃ entry, entryOf env offers candidate = some entry ∧
        Answers env filter entry ∧
        (¬ IsOffered offers candidate →
          ¬ seen.Has candidate.productId (candidate.position env).gtin) ∧
        state = (seen.add candidate.productId (candidate.position env).gtin, entries ++ [entry])) := by
  obtain ⟨hclass, hposition, entry, hentry⟩ := hreadable
  obtain ⟨categoryPath, hpath, hproduct⟩ := Option.bind_eq_some_iff.mp hentry
  obtain ⟨product, hshown, rfl⟩ := Option.map_eq_some_iff.mp hproduct
  unfold pageStep
  simp only [hposition, hpath, hshown]
  have hmalformed : ¬ (¬ IsOffered offers candidate ∧ candidate.classification = .malformed) :=
    fun h => hclass h.2
  rw [if_neg hmalformed]
  have hskip : (¬ IsOffered offers candidate ∧ candidate.classification = .ineligible) ↔
      ¬ IsShown offers candidate := by
    unfold IsShown
    cases hcase : candidate.classification with
    | eligible => simp
    | ineligible => simp
    | malformed => exact absurd hcase hclass
  by_cases hshow : IsShown offers candidate
  · rw [if_neg (fun h => hskip.mp h hshow)]
    have hcategory : (∃ categoryId ∈ filter.categoryId,
        ∀ path ∈ categoryPath, ∀ category ∈ path, category.id ≠ categoryId) ↔
          ¬ ∀ categoryId ∈ filter.categoryId,
            ∃ path ∈ categoryPath, ∃ category ∈ path, category.id = categoryId := by
      push Not
      exact Iff.rfl
    have hquery : (∃ query ∈ filter.query, ¬ summaryMatchesQuery env product query) ↔
        ¬ ∀ query ∈ filter.query, summaryMatchesQuery env product query := by
      push Not
      exact Iff.rfl
    have hnot : ¬ (¬ IsShown offers candidate ∧ state = (seen, entries)) := fun h => h.1 hshow
    constructor
    · intro hok
      split_ifs at hok with hc hs hq
      refine .inr ⟨hshow, _, hentry, ⟨?_, ?_⟩, ?_, (Except.ok.inj hok).symm⟩
      · exact not_not.mp fun h => hc (hcategory.mpr h)
      · exact not_not.mp fun h => hq (hquery.mpr h)
      · exact fun hoffered hhas => hs ⟨hoffered, hhas⟩
    · rintro (h | ⟨-, entry, hentry', ⟨hc, hq⟩, hs, rfl⟩)
      · exact absurd h hnot
      · obtain rfl := Option.some.inj (hentry.symm.trans hentry')
        rw [if_neg (fun h => hcategory.mp h hc), if_neg (fun h => hs h.1 h.2),
          if_neg (fun h => hquery.mp h hq)]
  · rw [if_pos (hskip.mpr hshow)]
    constructor
    · intro hok
      exact .inl ⟨hshow, (Except.ok.inj hok).symm⟩
    · rintro (⟨-, rfl⟩ | ⟨h, -⟩)
      · rfl
      · exact absurd h hshow

/-- The entries of a page. -/
def entriesOf (env : Env) (offers : List OfferRow) (page : List Candidate) : List DiscoveryEntry :=
  (page.filter fun candidate => decide (IsShown offers candidate)).filterMap (entryOf env offers)

variable (env filter offers) in
/-- A page that the loop goes through when some candidates were seen: those that are shown answer
what was asked for, those that are not of an offered product were not seen, and no two clash. -/
structure GoesThrough (seen : Seen) (page : List Candidate) : Prop where
  answers : ∀ candidate ∈ page, IsShown offers candidate →
    ∀ entry, entryOf env offers candidate = some entry → Answers env filter entry
  unseen : ∀ candidate ∈ page, IsShown offers candidate → ¬ IsOffered offers candidate →
    ¬ seen.Has candidate.productId (candidate.position env).gtin
  apart : (page.filter fun candidate => decide (IsShown offers candidate)).Pairwise (Apart env offers)

/-- A candidate that is shown comes first. -/
theorem goesThrough_cons_of_shown (hshow : IsShown offers candidate) {entry : DiscoveryEntry}
    (hentry : entryOf env offers candidate = some entry) :
    GoesThrough env filter offers seen (candidate :: page) ↔
      Answers env filter entry ∧
      (¬ IsOffered offers candidate →
        ¬ seen.Has candidate.productId (candidate.position env).gtin) ∧
      GoesThrough env filter offers
        (seen.add candidate.productId (candidate.position env).gtin) page := by
  have hfilter : (candidate :: page).filter (fun candidate => decide (IsShown offers candidate)) =
      candidate :: page.filter fun candidate => decide (IsShown offers candidate) :=
    List.filter_cons_of_pos (by simpa using hshow)
  constructor
  · rintro ⟨hall, hnone, hapart⟩
    rw [hfilter, List.pairwise_cons] at hapart
    obtain ⟨hclash, hapart⟩ := hapart
    refine ⟨hall candidate List.mem_cons_self hshow entry hentry,
      hnone candidate List.mem_cons_self hshow,
      ⟨fun other hother => hall other (List.mem_cons_of_mem _ hother), ?_, hapart⟩⟩
    intro other hother hshown hoffered hhas
    obtain hsame | hhas := Seen.has_add.mp hhas
    · have hdiffer := hclash other (List.mem_filter.mpr ⟨hother, decide_eq_true hshown⟩) hoffered
      exact hsame.elim hdiffer.1 hdiffer.2
    · exact hnone other (List.mem_cons_of_mem _ hother) hshown hoffered hhas
  · rintro ⟨hanswers, hfresh, hall, hnone, hapart⟩
    refine ⟨List.forall_mem_cons.mpr ⟨fun _ entry' hentry' => ?_, hall⟩,
      List.forall_mem_cons.mpr ⟨fun _ => hfresh, fun other hother hshown hoffered hhas =>
        hnone other hother hshown hoffered (Seen.has_add.mpr (.inr hhas))⟩, ?_⟩
    · rwa [← Option.some.inj (hentry.symm.trans hentry')]
    · rw [hfilter, List.pairwise_cons]
      refine ⟨fun other hother hoffered => ?_, hapart⟩
      obtain ⟨hmem, hshown⟩ := List.mem_filter.mp hother
      have hfree := hnone other hmem (of_decide_eq_true hshown) hoffered
      rw [Seen.has_add] at hfree
      push Not at hfree
      exact hfree.1

/-- A candidate that is not shown comes first. -/
theorem goesThrough_cons_of_not_shown (hshow : ¬ IsShown offers candidate) :
    GoesThrough env filter offers seen (candidate :: page) ↔
      GoesThrough env filter offers seen page := by
  have hfilter : (candidate :: page).filter (fun candidate => decide (IsShown offers candidate)) =
      page.filter fun candidate => decide (IsShown offers candidate) :=
    List.filter_cons_of_neg (by simpa using hshow)
  constructor
  · rintro ⟨hall, hnone, hapart⟩
    exact ⟨fun other hother => hall other (List.mem_cons_of_mem _ hother),
      fun other hother => hnone other (List.mem_cons_of_mem _ hother), hfilter ▸ hapart⟩
  · rintro ⟨hall, hnone, hapart⟩
    exact ⟨List.forall_mem_cons.mpr ⟨fun h => absurd h hshow, hall⟩,
      List.forall_mem_cons.mpr ⟨fun h => absurd h hshow, hnone⟩, hfilter ▸ hapart⟩

/-- **The loop over a page** ends if it goes through it, and collects the entries of the page. -/
theorem foldlM_pageStep (hreadable : ∀ candidate ∈ page, IsReadable env offers candidate) :
    (∃ seen', page.foldlM (pageStep env filter offers) (seen, entries) = .ok (seen', result)) ↔
      GoesThrough env filter offers seen page ∧ result = entries ++ entriesOf env offers page := by
  induction page generalizing seen entries with
  | nil =>
    have hnil : GoesThrough env filter offers seen [] := ⟨by simp, by simp, .nil⟩
    simp [hnil, entriesOf, pure, Except.pure, eq_comm]
  | cons candidate page ih =>
    obtain ⟨hhead, htail⟩ := List.forall_mem_cons.mp hreadable
    have hbind : (∃ seen', (candidate :: page).foldlM (pageStep env filter offers) (seen, entries) =
          .ok (seen', result)) ↔
        ∃ state', pageStep env filter offers (seen, entries) candidate = .ok state' ∧
          ∃ seen', page.foldlM (pageStep env filter offers) state' = .ok (seen', result) := by
      simp only [List.foldlM_cons, bind_eq_ok_iff]
      exact ⟨fun ⟨seen', state', h, h'⟩ => ⟨state', h, seen', h'⟩,
        fun ⟨state', h, seen', h'⟩ => ⟨seen', state', h, h'⟩⟩
    rw [hbind]
    simp only [pageStep_eq_ok hhead]
    by_cases hshow : IsShown offers candidate
    · obtain ⟨entry, hentry⟩ := hhead.entry
      have hentries : entriesOf env offers (candidate :: page) =
          entry :: entriesOf env offers page := by
        unfold entriesOf
        rw [List.filter_cons_of_pos (by simpa using hshow), List.filterMap_cons_some hentry]
      rw [goesThrough_cons_of_shown hshow hentry, hentries, List.append_cons]
      constructor
      · rintro ⟨state', ⟨h, -⟩ | ⟨-, entry', hentry', hanswers, hfresh, rfl⟩, hrest⟩
        · exact absurd hshow h
        · obtain rfl := Option.some.inj (hentry.symm.trans hentry')
          obtain ⟨hpage, heq⟩ := (ih htail).mp hrest
          exact ⟨⟨hanswers, hfresh, hpage⟩, heq⟩
      · rintro ⟨⟨hanswers, hfresh, hpage⟩, heq⟩
        exact ⟨_, .inr ⟨hshow, entry, hentry, hanswers, hfresh, rfl⟩, (ih htail).mpr ⟨hpage, heq⟩⟩
    · have hentries : entriesOf env offers (candidate :: page) = entriesOf env offers page := by
        unfold entriesOf
        rw [List.filter_cons_of_neg (by simpa using hshow)]
      rw [goesThrough_cons_of_not_shown hshow, hentries, ← ih htail]
      constructor
      · rintro ⟨state', ⟨-, rfl⟩ | ⟨h, -⟩, hrest⟩
        · exact hrest
        · exact absurd h hshow
      · exact fun hrest => ⟨_, .inl ⟨hshow, rfl⟩, hrest⟩

end Page

/-! ### Rows that are well formed -/

section WellFormed

variable (env : Env)

/-- A catalog row in which nothing is malformed. -/
structure IsWellFormedRow (row : CatalogRow) : Prop where
  classification : row.classification ≠ .malformed
  gtin : isValidGtin row.gtin = true
  categoryPath : ∃ path, categoryPathOf env row = some path
  summary : ∃ summary, catalogSummaryFromRow row = some summary
  sortName : 1 ≤ (env.lower row.displayName).length ∧
    (env.lower row.displayName).length ≤ discoverySortNameMaxLength

/-- A state in which no row is malformed. Rows of offers that are not usable are left out by the
reader. -/
structure CatalogState.IsWellFormed (state : CatalogState) : Prop where
  observations : ∀ row ∈ state.observations, IsWellFormedRow env row
  offers : ∀ row ∈ state.offers, ∀ offer, offerBackedEligibilityRow row = some offer →
    1 ≤ (offer.sortName env).length ∧ (offer.sortName env).length ≤ discoverySortNameMaxLength

/-- The rows of offers that are read. -/
def offersRead (offerBackedDiscoveryEnabled : Bool) (state : CatalogState) : List OfferBackedRow :=
  if offerBackedDiscoveryEnabled then state.offers else []

/-- Whether a GTIN is of a product that a chain has: one with a price that is not stale, or an
offer. -/
def SoldBy (state : CatalogState) (chain gtin : JsString) : Prop :=
  (∃ row ∈ state.observations, row.gtin = gtin ∧
      state.freshPrice row.canonicalProductId chain = true) ∨
    ∃ row ∈ state.offers, row.gtin = gtin ∧
      (row.chain = chain ∨ state.freshPrice row.productId chain = true)

/-- An entry that was asked for. -/
structure Satisfies (state : CatalogState) (filter : DiscoveryFilter) (entry : DiscoveryEntry) :
    Prop where
  answers : Answers env filter entry
  chain : ∀ chain ∈ filter.chain, SoldBy state chain entry.catalogPosition.gtin

/-- The rows that a page is made of: the first in the merged order. -/
def pageRows (filter : DiscoveryFilter) (limit : ℕ) (rows : List DiscoveryRow)
    (offers : List OfferRow) : List Candidate :=
  (mergedCandidates env filter rows offers).take limit

/-- The rows of a page that can be served. The usable rows of offers are of different products and
have different GTINs; of the catalog rows on the page that are not of an offered product, none has
the GTIN of an offer or shares a product or a GTIN with an earlier row; all rows on the page match
the query as the runtime reads it, with the name that is shown; and those of offers are of the
chain. -/
structure IsServable (state : CatalogState) (filter : DiscoveryFilter) (limit : ℕ)
    (rows : List DiscoveryRow) (offers : List OfferRow) : Prop where
  products : (offers.map fun row => row.canonicalProductId).Nodup
  gtins : (offers.map fun row => row.product.gtin).Nodup
  unoffered : ∀ candidate ∈ pageRows env filter limit rows offers, IsShown offers candidate →
    ¬ IsOffered offers candidate →
      (candidate.position env).gtin ∉ offers.map fun row => row.product.gtin
  apart : ((pageRows env filter limit rows offers).filter fun candidate =>
    decide (IsShown offers candidate)).Pairwise (Apart env offers)
  query : ∀ candidate ∈ pageRows env filter limit rows offers, IsShown offers candidate →
    ∀ categoryPath, candidate.categoryPath env = some categoryPath →
    ∀ product, shownProduct offers candidate categoryPath = some product →
    ∀ query ∈ filter.query, summaryMatchesQuery env product query
  chain : ∀ offer, .offer offer ∈ pageRows env filter limit rows offers →
    ∀ chain ∈ filter.chain, SoldBy state chain offer.product.gtin

variable {env} {state : CatalogState} {filter : DiscoveryFilter} {cursor : Option Position}
  {rows : List DiscoveryRow} {offers : List OfferBackedRow} {candidate : Candidate} {limit : ℕ}

theorem mem_mergedCandidates {offers : List OfferRow} :
    candidate ∈ mergedCandidates env filter rows offers ↔
      (∃ row ∈ rows, .catalog row = candidate) ∨
      ∃ offer ∈ offers, (filter.categoryId = none ∧
        catalogKey filter.query offer.canonicalProductId offer.product.gtin ∉
          rows.map fun row => catalogKey filter.query row.canonicalProductId row.gtin) ∧
        .offer offer = candidate := by
  unfold mergedCandidates
  rw [Sorting.mem_sortBy, List.mem_append, List.mem_map, List.mem_map]
  simp only [List.mem_filter, decide_eq_true_iff, and_assoc]

theorem exists_offerOf {offers : List OfferRow} {productId : ℕ}
    (h : productId ∈ offers.map fun row => row.canonicalProductId) :
    ∃ offer, offerOf offers productId = some offer := by
  obtain ⟨offer, hmem, rfl⟩ := List.mem_map.mp h
  rw [← Option.isSome_iff_exists]
  unfold offerOf
  rw [List.find?_isSome]
  exact ⟨offer, List.mem_reverse.mpr hmem, decide_eq_true rfl⟩

theorem isOfferBackedPosition_of_isPosition {position : Position} (h : IsPosition position) :
    IsOfferBackedPosition position :=
  ⟨gtinShape_of_isValidGtin h.1, h.2⟩

/-- A catalog row that is well formed is readable. -/
theorem isReadable_catalog {offers : List OfferRow} {row : DiscoveryRow}
    (hrow : row ∈ matchingRows env filter state) (hwell : IsWellFormedRow env row.toCatalogRow) :
    IsReadable env offers (.catalog row) := by
  obtain ⟨-, -, hrank, hname⟩ := mem_matchingRows hrow
  obtain ⟨hclass, hgtin, ⟨path, hpath⟩, ⟨summary, hsummary⟩, hlength⟩ := hwell
  have hposition : IsPosition ((Candidate.catalog row).position env) := by
    refine ⟨hgtin, ?_, ?_⟩
    · show row.sortRank ≤ 4
      rw [hrank]
      exact sortRank_le _ _
    · show 1 ≤ row.sortName.length ∧ row.sortName.length ≤ discoverySortNameMaxLength
      rw [hname]
      exact hlength
  refine ⟨hclass, ?_, ?_⟩
  · unfold positionOf
    rw [if_pos (isOfferBackedPosition_of_isPosition hposition), if_pos hposition, ite_self]
  · obtain ⟨product, hproduct⟩ : ∃ product, shownProduct offers (.catalog row) path = some product := by
      unfold shownProduct
      split_ifs with hoffered
      · obtain ⟨offer, hoffer⟩ := exists_offerOf hoffered.1
        exact ⟨offer.product, by rw [hoffer]; rfl⟩
      · exact ⟨summary, hsummary⟩
    exact ⟨⟨(Candidate.catalog row).position env, path, product⟩, Option.bind_eq_some_iff.mpr
      ⟨path, hpath, Option.map_eq_some_iff.mpr ⟨product, hproduct, rfl⟩⟩⟩

theorem isOffered_offer {offers : List OfferRow} {offer : OfferRow} (hoffer : offer ∈ offers) :
    IsOffered offers (.offer offer) :=
  List.mem_map.mpr ⟨offer, hoffer, rfl⟩

/-- A usable offer row is readable. -/
theorem isReadable_offer {offer : OfferRow} (hoffer : offer ∈ offerRows env offers)
    (hlength : 1 ≤ (offer.sortName env).length ∧
      (offer.sortName env).length ≤ discoverySortNameMaxLength) :
    IsReadable env (offerRows env offers) (.offer offer) := by
  obtain ⟨row, -, hrow⟩ := mem_offerRows.mp hoffer
  obtain ⟨-, -, hshape, hid⟩ := offerBackedEligibilityRow_eq_some hrow
  have hoffered := isOffered_offer hoffer
  refine ⟨nofun, ?_, ?_⟩
  · have hposition : IsOfferBackedPosition ((Candidate.offer offer).position env) :=
      ⟨hshape, Nat.zero_le _, hlength⟩
    unfold positionOf
    rw [if_pos hoffered, if_pos hposition]
  · obtain ⟨shown, hshown⟩ := exists_offerOf hoffered
    refine ⟨⟨(Candidate.offer offer).position env, none, shown.product⟩,
      Option.bind_eq_some_iff.mpr ⟨none, if_pos hid, Option.map_eq_some_iff.mpr
        ⟨shown.product, ?_, rfl⟩⟩⟩
    unfold shownProduct
    rw [if_pos ⟨hoffered, rfl⟩, hshown]
    rfl

section Scan

variable (hwell : state.IsWellFormed env) (hscan : IsScan env filter cursor state rows)
  (hoffers : ∀ row ∈ offers, row ∈ state.offers)
include hwell hscan hoffers

/-- All merged rows of a state in which no row is malformed are readable. -/
theorem isReadable_of_mem
    (hmem : candidate ∈ mergedCandidates env filter rows (offerRows env offers)) :
    IsReadable env (offerRows env offers) candidate := by
  obtain ⟨row, hrow, rfl⟩ | ⟨offer, hoffer, -, rfl⟩ := mem_mergedCandidates.mp hmem
  · have hmatching := hscan.mem hrow
    exact isReadable_catalog hmatching (hwell.observations _ (mem_matchingRows hmatching).1)
  · obtain ⟨row, hrow, heligible⟩ := mem_offerRows.mp hoffer
    exact isReadable_offer hoffer (hwell.offers row (hoffers row hrow) offer heligible)

omit hwell hoffers in
/-- A merged row is of the category that was asked for: catalog rows were selected by it, and with a
category there are no others. -/
theorem category_of_mem {offers : List OfferRow}
    (hmem : candidate ∈ mergedCandidates env filter rows offers)
    {categoryPath : Option (List PublicCatalogCategory)}
    (hpath : candidate.categoryPath env = some categoryPath) :
    ∀ categoryId ∈ filter.categoryId,
      ∃ path ∈ categoryPath, ∃ category ∈ path, category.id = categoryId := by
  intro categoryId hcategory
  obtain ⟨row, hrow, rfl⟩ | ⟨offer, -, ⟨hnone, -⟩, rfl⟩ := mem_mergedCandidates.mp hmem
  · obtain ⟨-, ⟨hin, -, -⟩, -, -⟩ := mem_matchingRows (hscan.mem hrow)
    obtain ⟨entries, hentries, entry, hentry, hid⟩ := hin categoryId hcategory
    have hparse : categoryPathOf env row.toCatalogRow = some categoryPath := hpath
    unfold categoryPathOf parseCategoryPath at hparse
    rw [Option.mem_def.mp hentries] at hparse
    dsimp only at hparse
    split_ifs at hparse
    cases hparse
    exact ⟨_, rfl, _, List.mem_map.mpr ⟨entry, hentry, rfl⟩, hid⟩
  · rw [hnone] at hcategory
    cases hcategory

omit hwell hoffers in
/-- A catalog row is of the chain that was asked for. -/
theorem soldBy_of_mem {row : DiscoveryRow} (hrow : row ∈ rows) :
    ∀ chain ∈ filter.chain, SoldBy state chain row.gtin := by
  intro chain hchain
  obtain ⟨hmem, ⟨-, -, hfresh⟩, -, -⟩ := mem_matchingRows (hscan.mem hrow)
  exact .inl ⟨_, hmem, rfl, hfresh chain hchain⟩

end Scan

/-- The entry of a candidate, taken apart. -/
theorem entryOf_eq_some {offers : List OfferRow} {entry : DiscoveryEntry} :
    entryOf env offers candidate = some entry ↔
      entry.catalogPosition = candidate.position env ∧
        candidate.categoryPath env = some entry.categoryPath ∧
          shownProduct offers candidate entry.categoryPath = some entry.product := by
  unfold entryOf
  rw [Option.bind_eq_some_iff]
  constructor
  · rintro ⟨path, hpath, hmap⟩
    obtain ⟨product, hproduct, rfl⟩ := Option.map_eq_some_iff.mp hmap
    exact ⟨rfl, hpath, hproduct⟩
  · rintro ⟨hposition, hpath, hproduct⟩
    refine ⟨_, hpath, Option.map_eq_some_iff.mpr ⟨_, hproduct, ?_⟩⟩
    rw [← hposition]

end WellFormed

/-! ### Pages that are served -/

section Served

variable {env : Env} {state : CatalogState} {filter : DiscoveryFilter} {cursor : Option Position}
  {rows : List DiscoveryRow} {offers : List OfferBackedRow} {limit : ℕ}

/-- A page is read if both loops end; its entries are those collected by the second. -/
theorem exists_readDiscovery_iff (hlength : rows.length ≤ discoveryScanLimitMaximum + 1)
    (hkeys : (rows.map fun row => catalogKey filter.query row.canonicalProductId row.gtin).Nodup)
    (P : DiscoveryEntry → Prop) :
    (∃ page, readDiscovery env filter limit rows offers = .ok page ∧ ∀ entry ∈ page.entries, P entry) ↔
      ∃ seen, seeOffers (offerRows env offers) = .ok seen ∧ ∃ entries,
        (∃ seen', (pageRows env filter limit rows (offerRows env offers)).foldlM
          (pageStep env filter (offerRows env offers)) (seen, []) = .ok (seen', entries)) ∧
        ∀ entry ∈ entries, P entry := by
  unfold readDiscovery
  rw [if_neg (Nat.not_lt.mpr hlength)]
  simp only [hkeys, not_true_eq_false, if_false]
  constructor
  · rintro ⟨page, hpage, hall⟩
    obtain ⟨seen, hseen, hrest⟩ := bind_eq_ok_iff.mp hpage
    obtain ⟨⟨seen', entries⟩, hfold, hreturn⟩ := bind_eq_ok_iff.mp hrest
    cases hreturn
    refine ⟨seen, hseen, entries, ⟨seen', hfold⟩, ?_⟩
    intro entry hentry
    exact hall entry (Sorting.mem_sortBy.mpr hentry)
  · rintro ⟨seen, hseen, entries, ⟨seen', hfold⟩, hall⟩
    refine ⟨_, bind_eq_ok_iff.mpr ⟨seen, hseen, bind_eq_ok_iff.mpr ⟨(seen', entries), hfold, rfl⟩⟩, ?_⟩
    intro entry hentry
    exact hall entry (Sorting.mem_sortBy.mp hentry)

/-- A page is served exactly when its rows can be. -/
theorem exists_satisfies_iff (hwell : state.IsWellFormed env)
    (hscan : IsScan env filter cursor state rows) (hoffers : ∀ row ∈ offers, row ∈ state.offers) :
    (∃ page, readDiscovery env filter limit rows offers = .ok page ∧
        ∀ entry ∈ page.entries, Satisfies env state filter entry) ↔
      IsServable env state filter limit rows (offerRows env offers) := by
  rw [exists_readDiscovery_iff hscan.length_le hscan.nodup_keys]
  have hmerged : ∀ candidate ∈ pageRows env filter limit rows (offerRows env offers),
      candidate ∈ mergedCandidates env filter rows (offerRows env offers) :=
    fun _ hmem => List.mem_of_mem_take hmem
  have hreadable : ∀ candidate ∈ pageRows env filter limit rows (offerRows env offers),
      IsReadable env (offerRows env offers) candidate :=
    fun candidate hmem => isReadable_of_mem hwell hscan hoffers (hmerged candidate hmem)
  constructor
  · rintro ⟨seen, hseen, entries, hfold, hall⟩
    obtain ⟨⟨hproducts, hgtins⟩, rfl⟩ := seeOffers_eq_ok.mp hseen
    obtain ⟨⟨hanswers, hfresh, hapart⟩, heq⟩ :=
      (foldlM_pageStep hreadable).mp hfold
    refine ⟨hproducts, hgtins, ?_, hapart, ?_, ?_⟩
    · intro candidate hmem hshown hoffered hgtin
      exact hfresh candidate hmem hshown hoffered (.inr (List.mem_reverse.mpr hgtin))
    · intro candidate hmem hshown path hpath product hproduct
      exact (hanswers candidate hmem hshown ⟨candidate.position env, path, product⟩
        (entryOf_eq_some.mpr ⟨rfl, hpath, hproduct⟩)).query
    · intro offer hmem chain hchain
      obtain ⟨entry, hentry⟩ := (hreadable _ hmem).entry
      have hoffer : offer ∈ offerRows env offers := by
        obtain ⟨row, -, hrow⟩ | ⟨offer', hoffer, -, heq⟩ := mem_mergedCandidates.mp (hmerged _ hmem)
        · cases hrow
        · cases heq
          exact hoffer
      have hin : entry ∈ entries := by
        rw [show entries = _ from heq, List.nil_append]
        exact List.mem_filterMap.mpr ⟨_, List.mem_filter.mpr
          ⟨hmem, decide_eq_true (.inl (isOffered_offer hoffer))⟩, hentry⟩
      have hsold := (hall entry hin).chain chain hchain
      rw [(entryOf_eq_some.mp hentry).1] at hsold
      exact hsold
  · intro hservable
    have hanswers : ∀ candidate ∈ pageRows env filter limit rows (offerRows env offers),
        IsShown (offerRows env offers) candidate → ∀ entry,
          entryOf env (offerRows env offers) candidate = some entry → Answers env filter entry := by
      intro candidate hmem hshown entry hentry
      obtain ⟨-, hpath, hproduct⟩ := entryOf_eq_some.mp hentry
      exact ⟨category_of_mem hscan (hmerged candidate hmem) hpath,
        hservable.query candidate hmem hshown _ hpath _ hproduct⟩
    refine ⟨_, seeOffers_eq_ok.mpr ⟨⟨hservable.products, hservable.gtins⟩, rfl⟩, _,
      (foldlM_pageStep hreadable).mpr ⟨⟨hanswers, ?_, hservable.apart⟩, rfl⟩, ?_⟩
    · rintro candidate hmem hshown hoffered (hid | hgtin)
      · exact hoffered (List.mem_reverse.mp hid)
      · exact hservable.unoffered candidate hmem hshown hoffered (List.mem_reverse.mp hgtin)
    · intro entry hentry
      obtain ⟨candidate, hcandidate, heq⟩ := List.mem_filterMap.mp hentry
      obtain ⟨hmem, hshown⟩ := List.mem_filter.mp hcandidate
      obtain ⟨hposition, hpath, hproduct⟩ := entryOf_eq_some.mp heq
      refine ⟨⟨category_of_mem hscan (hmerged candidate hmem) hpath,
        hservable.query candidate hmem (of_decide_eq_true hshown) _ hpath _ hproduct⟩, ?_⟩
      intro chain hchain
      rw [hposition]
      obtain ⟨row, hrow, rfl⟩ | ⟨offer, -, -, rfl⟩ := mem_mergedCandidates.mp (hmerged _ hmem)
      · exact soldBy_of_mem hscan hrow chain hchain
      · exact hservable.chain offer hmem chain hchain

end Served

/-- **A page is served, with what was asked for, exactly when its rows can be**: for every state in
which no row is malformed, every valid request and every answer of the database to it.

**Proof sketch.** The answer of the database passes the checks that were made for it. Of the two
loops the first ends if no two offers share a product or a GTIN; the second, by induction on the
rows of the page, if each row that is shown answers the query and category and was not seen
before. -/
theorem servesPage_iff_isServable (env : Env) (offerBackedDiscoveryEnabled : Bool)
    {state : CatalogState} {options : PageOptions} {filter : DiscoveryFilter}
    {rows : List DiscoveryRow} (hwell : state.IsWellFormed env)
    (hoptions : discoveryFilter options = some filter)
    (hscan : IsScan env filter options.cursor state rows) :
    (∃ page, readDiscoveryPage env offerBackedDiscoveryEnabled state options rows = .ok page ∧
        ∀ entry ∈ page.entries, Satisfies env state filter entry) ↔
      IsServable env state filter options.limit rows
        (offerRows env (offersRead offerBackedDiscoveryEnabled state)) := by
  have hread : readDiscoveryPage env offerBackedDiscoveryEnabled state options rows =
      readDiscovery env filter options.limit rows (offersRead offerBackedDiscoveryEnabled state) := by
    unfold readDiscoveryPage
    rw [hoptions]
    rfl
  rw [hread]
  refine exists_satisfies_iff hwell hscan ?_
  intro row hrow
  unfold offersRead at hrow
  split_ifs at hrow
  · exact hrow
  · cases hrow

/-! ### A state -/

/-- Surroundings in which the database lowers the case of texts as the runtime does. -/
def plainEnv : Env where
  host := Host.ascii
  lower := Host.ascii.toLocaleLowerCase
  publicCategoryId _ sourceCategoryId := js "category:" ++ JsString.ofNat sourceCategoryId

/-- A catalog row. -/
def milkRow : CatalogRow where
  canonicalProductId := 1
  gtin := js "7038010000065"
  displayName := js "Milk"
  brand := none
  packageMeasure := none
  unitsPerPack := 1
  categoryPath := none
  evidence :=
    { observedAt := 0
      source := ⟨js "kassalapp", js "Kassalapp", .catalog⟩
      sourceRecordId := js "source-record:" ++ List.replicate 64 97 }
  classification := .eligible

/-- A row of an offer. -/
def breadOffer (offerId : ℕ) : OfferBackedRow where
  offerId := offerId
  productId := 2
  productIsOfferBacked := true
  chain := js "extra"
  gtin := js "7038010000072"
  displayName := js "Bread"
  brand := none
  packageAmount := none
  packageUnit := none
  unitsPerPack := 1
  capturedAt := 0
  identifierVerifiedAt := 0
  sourceId := js "extra-offers"
  sourceDisplayName := js "Extra"
  sourceRecordId := js "official-source-record:" ++ List.replicate 64 97

/-- A state with a catalog row and some offers of another product. -/
def milkAndBread (offers : List OfferBackedRow) : CatalogState where
  observations := [milkRow]
  offers := offers
  freshPrice _ _ := false

theorem isWellFormed_milkAndBread {offers : List OfferBackedRow}
    (hoffers : ∀ row ∈ offers, row ∈ [breadOffer 1, breadOffer 2]) :
    (milkAndBread offers).IsWellFormed plainEnv where
  observations := by
    intro row hrow
    obtain rfl := List.mem_singleton.mp hrow
    exact ⟨by decide, by decide, Option.isSome_iff_exists.mp (by decide),
      Option.isSome_iff_exists.mp (by decide), by decide⟩
  offers := by
    intro row hrow offer hoffer
    have hname : ∀ row ∈ [breadOffer 1, breadOffer 2], ∀ offer ∈ offerBackedEligibilityRow row,
        1 ≤ (offer.sortName plainEnv).length ∧
          (offer.sortName plainEnv).length ≤ discoverySortNameMaxLength := by
      decide
    exact hname row (hoffers row hrow) offer hoffer

/-- A page with a catalog row and one offer of another product is served. -/
theorem servesPage_oneOffer :
    ∃ page, readDiscoveryPage plainEnv true (milkAndBread [breadOffer 1]) { limit := 10 }
        (scan plainEnv {} none (milkAndBread [breadOffer 1])) = .ok page ∧
      ∀ entry ∈ page.entries, Satisfies plainEnv (milkAndBread [breadOffer 1]) {} entry := by
  refine (servesPage_iff_isServable plainEnv true (isWellFormed_milkAndBread (by decide)) rfl
    isScan_scan).mpr ?_
  exact
    { products := by decide +kernel
      gtins := by decide +kernel
      unoffered := by decide +kernel
      apart := by decide +kernel
      query := fun _ _ _ _ _ _ _ _ h => by cases h
      chain := fun _ _ _ h => by cases h }

/-- A product with two offers makes the whole catalog unavailable. -/
theorem not_servesPage_twoOffers :
    (milkAndBread [breadOffer 1, breadOffer 2]).IsWellFormed plainEnv ∧
      IsScan plainEnv {} none (milkAndBread [breadOffer 1, breadOffer 2])
        (scan plainEnv {} none (milkAndBread [breadOffer 1, breadOffer 2])) ∧
      readDiscoveryPage plainEnv true (milkAndBread [breadOffer 1, breadOffer 2]) { limit := 10 }
        (scan plainEnv {} none (milkAndBread [breadOffer 1, breadOffer 2])) =
          .error .unavailable :=
  ⟨isWellFormed_milkAndBread (fun _ h => h), isScan_scan, by rfl⟩

end Handleplan.PublicCatalog
