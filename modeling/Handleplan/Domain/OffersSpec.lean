import Handleplan.Domain.Offers

/-!
# Geographic precedence

The offers of one product at one chain are told apart from others by a text of the two identifiers,
joined by a NUL. Identifiers may contain one, so that two pairs can have one text.

## Main definitions

* `offerRank` — the product and the chain of an offer that applies, with its specificity.
* `SelectsMostSpecific` — what a selection should be.
* `ShadowsOtherPair` — an offer is more specific than one of another pair, of its text.

## Main results

* `selectOfficialOffers_perm` — the selection, by the texts.
* `selectOfficialOffers_idempotent` — what has been selected is selected again.
* `selectsMostSpecific_iff` — the selection is that of the pairs exactly when none
  shadows another one.
-/

namespace Handleplan

open JsString Sorting

variable (host : Host) (location : GeographicContext)
  (geographicDirectory : Option GeographicDirectoryEvidence)

/-- The product and the chain of an exact offer whose scope applies, with its specificity: at a
location that is not valid none does. -/
def offerRank (offer : OfficialOffer) : Option ((JsString × JsString) × ℕ) :=
  if ¬ GeographicContextSchema location ∨ ¬ OfficialOfferSchema host offer then none
  else
    match offer.exactProductId, geographicScopeSpecificity offer.applicability.geographicScope
      location geographicDirectory with
    | some canonicalProductId, some specificity =>
      some ((canonicalProductId, offer.chainId), specificity)
    | _, _ => none

/-- **What a selection should be**: the offers of which none of the product and the chain is more
specific, whatever the order, and again when they are selected from. -/
structure SelectsMostSpecific (input : List OfficialOffer) : Prop where
  exact : (selectOfficialOffersAtHighestGeographicSpecificity host input location
    geographicDirectory).Perm
      (input.filter (JsMap.IsHighest (offerRank host location geographicDirectory) input))
  idempotent : selectOfficialOffersAtHighestGeographicSpecificity host
      (selectOfficialOffersAtHighestGeographicSpecificity host input location geographicDirectory)
      location geographicDirectory =
    selectOfficialOffersAtHighestGeographicSpecificity host input location geographicDirectory
  permuted : ∀ input' : List OfficialOffer, input'.Perm input →
    (selectOfficialOffersAtHighestGeographicSpecificity host input' location
      geographicDirectory).Perm
        (selectOfficialOffersAtHighestGeographicSpecificity host input location geographicDirectory)

/-- An applicable offer of another product or chain, joined to the same text, is more specific than
one of the most specific offers of its own. -/
def ShadowsOtherPair (input : List OfficialOffer) : Prop :=
  ∃ offer ∈ input, ∃ rank ∈ offerRank host location geographicDirectory offer,
    (∀ other ∈ input, ∀ r ∈ offerRank host location geographicDirectory other,
      r.1 = rank.1 → r.2 ≤ rank.2) ∧
    ∃ other ∈ input, ∃ r ∈ offerRank host location geographicDirectory other,
      r.1 ≠ rank.1 ∧ productChainKey r.1.1 r.1.2 = productChainKey rank.1.1 rank.1.2 ∧
        rank.2 < r.2

variable {host location geographicDirectory} {input : List OfficialOffer}

/-- The group of an offer is that of its pair. -/
theorem offerGroup_eq_map (hlocation : GeographicContextSchema location) :
    offerGroup host location geographicDirectory = fun offer =>
      (offerRank host location geographicDirectory offer).map
        (Prod.map (fun pair => productChainKey pair.1 pair.2) id) := by
  funext offer
  unfold offerGroup offerRank
  by_cases hschema : OfficialOfferSchema host offer
  · rw [if_neg (not_not.mpr hschema), if_neg (by simp [hlocation, hschema])]
    cases offer.exactProductId with
    | none => rfl
    | some canonicalProductId =>
      cases geographicScopeSpecificity offer.applicability.geographicScope location
          geographicDirectory with
      | none => rfl
      | some specificity => rfl
  · rw [if_pos hschema, if_pos (.inr hschema)]
    rfl

/-- The groups that are built. -/
theorem foldl_addAtHighestSpecificity (input : List OfficialOffer) :
    input.foldl (addAtHighestSpecificity host location geographicDirectory) [] =
      JsMap.ofHighest (offerGroup host location geographicDirectory) input := by
  unfold JsMap.ofHighest
  congr 1
  funext groups offer
  rw [addAtHighestSpecificity_eq]
  cases offerGroup host location geographicDirectory offer <;> rfl

/-- The selection of a valid location. -/
theorem selectOfficialOffers_eq (hlocation : GeographicContextSchema location) :
    selectOfficialOffersAtHighestGeographicSpecificity host input location geographicDirectory =
      (sortBy (on Prod.fst compareText)
        (JsMap.ofHighest (offerGroup host location geographicDirectory) input)).flatMap
          fun group => sortBy (on (·.id) compareText) group.2.1 := by
  unfold selectOfficialOffersAtHighestGeographicSpecificity
  rw [if_neg (not_not.mpr hlocation)]
  dsimp only
  rw [foldl_addAtHighestSpecificity]

theorem selectOfficialOffers_of_not (hlocation : ¬ GeographicContextSchema location) :
    selectOfficialOffersAtHighestGeographicSpecificity host input location geographicDirectory =
      [] :=
  if_pos hlocation

/-- **The selected offers** are those that no offer of their text outranks. -/
theorem selectOfficialOffers_perm (hlocation : GeographicContextSchema location) :
    (selectOfficialOffersAtHighestGeographicSpecificity host input location
      geographicDirectory).Perm
        (input.filter (JsMap.IsHighest (offerGroup host location geographicDirectory) input)) := by
  rw [selectOfficialOffers_eq hlocation]
  refine .trans ?_ (JsMap.flatMap_ofHighest_perm _ _)
  exact (sortBy_perm _ _).flatMap fun group _ => sortBy_perm _ _

/-- **What has been selected is selected again.** -/
theorem selectOfficialOffers_idempotent :
    selectOfficialOffersAtHighestGeographicSpecificity host
        (selectOfficialOffersAtHighestGeographicSpecificity host input location geographicDirectory)
        location geographicDirectory =
      selectOfficialOffersAtHighestGeographicSpecificity host input location geographicDirectory := by
  by_cases hlocation : GeographicContextSchema location
  · -- The selection consists of groups, each with its offers in order.
    let groups := (sortBy (on Prod.fst compareText)
      (JsMap.ofHighest (offerGroup host location geographicDirectory) input)).map
        fun group => (group.1, sortBy (on OfficialOffer.id compareText) group.2.1, group.2.2)
    have hselect : selectOfficialOffersAtHighestGeographicSpecificity host input location
        geographicDirectory = groups.flatMap fun group => group.2.1 := by
      rw [selectOfficialOffers_eq hlocation, List.flatMap_map]
    have hkeys : (JsMap.keys groups).Nodup := by
      have hperm : (JsMap.keys groups).Perm
          (JsMap.keys (JsMap.ofHighest (offerGroup host location geographicDirectory) input)) := by
        unfold JsMap.keys
        rw [List.map_map]
        exact (sortBy_perm _ _).map _
      exact hperm.nodup_iff.mpr (JsMap.nodup_keys_ofHighest _ _)
    have hgroups : ∀ group ∈ groups, group.2.1 ≠ [] ∧
        ∀ offer ∈ group.2.1,
          offerGroup host location geographicDirectory offer = some (group.1, group.2.2) := by
      intro group hgroup
      obtain ⟨held, hheld, rfl⟩ := List.mem_map.mp hgroup
      obtain ⟨hne, hrank⟩ := JsMap.ofHighest_spec (mem_sortBy.mp hheld)
      exact ⟨fun h => hne (sortBy_eq_nil_iff.mp h), fun offer h => hrank offer (mem_sortBy.mp h)⟩
    have hsorted : groups.Pairwise fun a b => (on Prod.fst compareText a b).isLE = true :=
      List.pairwise_map.mpr (pairwise_sortBy (on Prod.fst compareText) _)
    rw [hselect, selectOfficialOffers_eq hlocation, JsMap.ofHighest_flatMap hkeys hgroups,
      sortBy_of_pairwise hsorted]
    refine List.flatMap_congr fun group hgroup => ?_
    obtain ⟨held, hheld, rfl⟩ := List.mem_map.mp hgroup
    exact sortBy_sortBy
  · rw [selectOfficialOffers_of_not hlocation, selectOfficialOffers_of_not hlocation]

/-- **The order of the offers** does not change which are selected. -/
theorem selectOfficialOffers_permuted {input' : List OfficialOffer} (hperm : input'.Perm input) :
    (selectOfficialOffersAtHighestGeographicSpecificity host input' location
      geographicDirectory).Perm
        (selectOfficialOffersAtHighestGeographicSpecificity host input location
          geographicDirectory) := by
  by_cases hlocation : GeographicContextSchema location
  · refine (selectOfficialOffers_perm hlocation).trans (.trans ?_
      (selectOfficialOffers_perm hlocation).symm)
    have hsame : ∀ offer, decide (JsMap.IsHighest (offerGroup host location geographicDirectory) input'
        offer) = decide (JsMap.IsHighest (offerGroup host location geographicDirectory) input offer) :=
      fun offer => decide_eq_decide.mpr (JsMap.isHighest_congr (fun _ => hperm.mem_iff) offer)
    rw [List.filter_congr fun offer _ => hsame offer]
    exact hperm.filter _
  · rw [selectOfficialOffers_of_not hlocation, selectOfficialOffers_of_not hlocation]

/-- Without a shadow of another pair the texts outrank what the pairs do. -/
theorem isHighest_offerGroup_iff (hlocation : GeographicContextSchema location)
    (hshadow : ¬ ShadowsOtherPair host location geographicDirectory input) {offer : OfficialOffer}
    (hoffer : offer ∈ input) :
    JsMap.IsHighest (offerGroup host location geographicDirectory) input offer ↔
      JsMap.IsHighest (offerRank host location geographicDirectory) input offer := by
  rw [offerGroup_eq_map hlocation, JsMap.isHighest_map_iff]
  constructor
  · rintro ⟨rank, hrank, hle⟩
    exact ⟨rank, hrank, fun other hother r hr hpair => hle other hother r hr (by rw [hpair])⟩
  · rintro ⟨rank, hrank, hle⟩
    refine ⟨rank, hrank, fun other hother r hr hkey => ?_⟩
    by_cases hpair : r.1 = rank.1
    · exact hle other hother r hr hpair
    · by_contra hlt
      exact hshadow ⟨offer, hoffer, rank, hrank, hle, other, hother, r, hr, hpair, hkey,
        Nat.not_le.mp hlt⟩

/-- A selection by the pairs shadows none of them. -/
theorem not_shadowsOtherPair (hlocation : GeographicContextSchema location)
    (hexact : (selectOfficialOffersAtHighestGeographicSpecificity host input location
      geographicDirectory).Perm
        (input.filter (JsMap.IsHighest (offerRank host location geographicDirectory) input))) :
    ¬ ShadowsOtherPair host location geographicDirectory input := by
  rintro ⟨offer, hoffer, rank, hrank, hle, other, hother, r, hr, -, hkey, hlt⟩
  have hmem : offer ∈ input.filter
      (JsMap.IsHighest (offerRank host location geographicDirectory) input) :=
    List.mem_filter.mpr ⟨hoffer, decide_eq_true ⟨rank, hrank, hle⟩⟩
  have hselected := (hexact.symm.trans (selectOfficialOffers_perm hlocation)).mem_iff.mp hmem
  have hhighest := of_decide_eq_true (List.mem_filter.mp hselected).2
  rw [offerGroup_eq_map hlocation, JsMap.isHighest_map_iff] at hhighest
  obtain ⟨rank', hrank', hle'⟩ := hhighest
  obtain rfl := Option.mem_unique hrank hrank'
  exact Nat.not_le.mpr hlt (hle' other hother r hr hkey)

/-- **The most specific offers of each product at each chain are selected** exactly when no
applicable offer of another product or chain, joined to the same text, is more specific than one of
them; the selection is idempotent, and its offers are those of any order of the input, in every
case. The offers are those that a parse returns, with trimmed identifiers.

**Proof sketch.** The map holds for each text the offers of it that none outranks
(`JsMap.flatMap_ofHighest_perm`). An offer that no offer of its pair outranks is outranked under its
text only by a shadow. -/
theorem selectsMostSpecific_iff :
    SelectsMostSpecific host location geographicDirectory input ↔
      ¬ ShadowsOtherPair host location geographicDirectory input := by
  have hrest : (selectOfficialOffersAtHighestGeographicSpecificity host input location
      geographicDirectory).Perm
        (input.filter (JsMap.IsHighest (offerRank host location geographicDirectory) input)) →
      SelectsMostSpecific host location geographicDirectory input := fun hexact =>
    ⟨hexact, selectOfficialOffers_idempotent, fun _ hperm => selectOfficialOffers_permuted hperm⟩
  by_cases hlocation : GeographicContextSchema location
  · refine ⟨fun h => not_shadowsOtherPair hlocation h.exact, fun hshadow => hrest ?_⟩
    rw [← List.filter_congr fun offer hoffer =>
      decide_eq_decide.mpr (isHighest_offerGroup_iff hlocation hshadow hoffer)]
    exact selectOfficialOffers_perm hlocation
  · have hnone : ∀ offer, offerRank host location geographicDirectory offer = none :=
      fun offer => if_pos (.inl hlocation)
    constructor
    · rintro - ⟨offer, -, rank, hrank, -⟩
      rw [hnone] at hrank
      cases hrank
    · intro _
      refine hrest ?_
      rw [selectOfficialOffers_of_not hlocation, List.filter_eq_nil_iff.mpr]
      rintro offer - hhighest
      obtain ⟨rank, hrank, -⟩ := of_decide_eq_true hhighest
      rw [hnone] at hrank
      cases hrank

/-- An offer of a product at a chain, in a scope. -/
def exactOffer (id canonicalProductId chainId : JsString) (scope : GeographicScope) :
    OfficialOffer where
  id := id
  sourceId := js "source"
  sourceRecordId := id
  chainId := chainId
  productMatch := .exact canonicalProductId
  pricing := .unit 100
  beforePriceOre := none
  conditions := [.everyone]
  applicability := ⟨0, 1, scope, [.inStore]⟩
  evidenceLevel := .authoritative
  capturedAt := 0

/-- The national offer of one product is lost to the regional offer of another one. -/
theorem not_selectsMostSpecific_of_nul :
    ¬ SelectsMostSpecific Host.ascii ⟨js "NO", some (js "03"), none, none⟩ none
      [exactOffer (js "first") [97, 0, 98] [99] (.national (js "NO")),
        exactOffer (js "second") [97] [98, 0, 99] (.regions (js "NO") [js "03"])] := by
  intro h
  have hlength := h.exact.length_eq
  revert hlength
  decide +kernel

end Handleplan
