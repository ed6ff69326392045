import Handleplan.Web.PlanServiceEnvelope
import Handleplan.Web.PriceServiceSpec

/-!
# Offers that shadow others

The price service keeps, of the offers for a product at a chain that apply on the market, those with
the narrowest scope, and it takes every shopper for a member when it decides whether an offer
applies. The memberships of the shopper are looked at later, by the checkout. An offer the shopper
cannot use may therefore push out a broader one that the shopper could have used.

## Main definitions

* `PlanService.checkoutTotal` — what packages of a product cost at an observed price.
* `PlanService.OfferAdded` — two runs of the service, one with one more offer.
* `PlanService.UsableFor` — the shopper can use an offer for a number of packages.
* `PlanService.Shadows` — an added offer pushes out one the shopper saves with.

## Main results

* `PlanService.le_checkoutTotal_iff` — a checkout total is the least of the ordinary
  total and of what the most specific usable offers make of it.
* `PlanService.checkoutTotal_le_iff_not_shadows` — one more unusable offer leaves a
  checkout total as low as it was exactly when it shadows nothing.
-/

namespace Handleplan.PlanService

open JsString PriceService PlannerV2

variable {host : Host}

/-! ### Checkout totals -/

variable (host) in
/-- What a number of packages of a product cost at the checkout where a price was observed. -/
def checkoutTotal (input : ServerPlanningInputV2) (now : ℤ) (product : PlanningProductV2)
    (observation : PriceObservation) (packageCount : ℕ) : Option ℕ :=
  (bestCheckout host product observation packageCount
    (indexOfficialOffers input.officialOffers
      (productChainKey product.canonicalProductId observation.chain.text))
    (offerContext input now)).map (·.checkout.totalOre)

section Market

variable (host) in
/-- The shopper of a request can use an offer for a number of packages: it applies to the members of
the enabled programs, and the packages are enough for it. -/
def UsableFor (request : ExactProductPlanApiRequest)
    (directory : Option GeographicDirectoryEvidence) (at_ : ℤ) (packageCount : ℕ)
    (offer : OfficialOffer) : Prop :=
  AppliesFor host (marketContextToGeographicContext request.marketContext)
      (some (directoryEvidence directory)) at_ request.enabledMembershipProgramIds offer ∧
    minimumQuantity offer ≤ packageCount

variable (host) in
/-- An offer is handed to the planner, and the shopper saves with it. -/
structure Saves (request : ExactProductPlanApiRequest)
    (directory : Option GeographicDirectoryEvidence) (at_ : ℤ) (offers : List OfficialOffer)
    (product : PlanningProductV2) (observation : PriceObservation) (packageCount : ℕ)
    (offer : OfficialOffer) (total : ℕ) : Prop where
  specific : MostSpecific host (marketContextToGeographicContext request.marketContext)
    (some (directoryEvidence directory)) at_ offers offer
  usable : UsableFor host request directory at_ packageCount offer
  lowers : LowersTo product.canonicalProductId observation.chain.text packageCount
    observation.amountOre offer total

variable (host) in
/-- **An added offer shadows** one the shopper saves with: it is for the same product at the same
chain, it applies on the market, and its scope is narrower than that of every other such offer. -/
structure Shadows (request : ExactProductPlanApiRequest) (snapshot : PlanningEvidenceSnapshot)
    (directory : Option GeographicDirectoryEvidence) (at_ : ℤ) (offers : List OfficialOffer)
    (product : PlanningProductV2) (observation : PriceObservation) (packageCount : ℕ)
    (added : OfficialOffer) : Prop where
  requested : product.canonicalProductId ∈ requestedProducts request snapshot
  applies : AppliesInMarket host (marketContextToGeographicContext request.marketContext)
    (some (directoryEvidence directory)) at_ added
  narrower : ∃ specificity,
    offerGroup host (marketContextToGeographicContext request.marketContext)
        (some (directoryEvidence directory)) added =
      some (productChainKey product.canonicalProductId observation.chain.text, specificity) ∧
    ∀ other ∈ offers, AppliesInMarket host (marketContextToGeographicContext request.marketContext)
        (some (directoryEvidence directory)) at_ other →
      ∀ s, offerGroup host (marketContextToGeographicContext request.marketContext)
          (some (directoryEvidence directory)) other =
        some (productChainKey product.canonicalProductId observation.chain.text, s) →
      s < specificity
  saves : ∃ offer total,
    Saves host request directory at_ offers product observation packageCount offer total

variable {request : ExactProductPlanApiRequest} {snapshot : PlanningEvidenceSnapshot}
  {directory : Option GeographicDirectoryEvidence} {offers : PublicOfficialOfferSnapshot} {at_ : ℤ}
  {result : ExactPriceServiceResult} {products : List ExactProductPlanApiProductSummary}
  {input : ServerPlanningInputV2} {product : PlanningProductV2} {observation : PriceObservation}
  {packageCount total : ℕ}

/-- The group of an offer for a product at a chain. -/
theorem eq_key_of_offerGroup {location : GeographicContext}
    {geographicDirectory : Option GeographicDirectoryEvidence} {offer : OfficialOffer}
    {key canonicalProductId chainId : JsString} {specificity : ℕ}
    (h : offerGroup host location geographicDirectory offer = some (key, specificity))
    (hchain : offer.chainId = chainId) (hproduct : offer.exactProductId = some canonicalProductId) :
    key = productChainKey canonicalProductId chainId := by
  obtain ⟨-, ⟨canonicalProductId', hproduct', rfl⟩, -⟩ := offerGroup_eq_some_iff.mp h
  rw [hproduct] at hproduct'
  rw [Option.some.inj hproduct', hchain]

/-- **A checkout total** is the least of the ordinary total and of what it is lowered to by the
offers the shopper saves with. -/
theorem le_checkoutTotal_iff
    (hread : readExact host request snapshot directory offers at_ = .ok result)
    (hinput : exactRequestAsPlannerV2Input request products result = some input)
    (htotal : checkoutTotal host input at_ product observation packageCount = some total) (n : ℕ) :
    n ≤ total ↔ n ≤ packageCount * observation.amountOre ∧
      (product.canonicalProductId ∈ requestedProducts request snapshot →
        ∀ offer t, Saves host request directory at_ offers.offers product observation packageCount
          offer t → n ≤ t) := by
  obtain ⟨entries, sourceById, hreading⟩ := exists_exactReading hread
  obtain ⟨best, hbest, rfl⟩ := Option.map_eq_some_iff.mp htotal
  rw [le_bestCheckout_iff hbest]
  refine and_congr_right fun _ => ?_
  constructor
  · intro h hrequested offer t hsaves
    have hoffer := (mem_officialOffers_iff hreading hinput).mpr
      ⟨hsaves.specific, _, hrequested, hsaves.lowers.product⟩
    refine h offer (mem_indexOfficialOffers.mpr ⟨hoffer, _, hsaves.lowers.product, ?_⟩)
      ((applicable_planner_iff hreading hinput hoffer).mpr hsaves.usable.1) t hsaves.lowers
    rw [hsaves.lowers.chain]
  · intro h offer hindexed happlies t hlowers
    have hoffer := (mem_indexOfficialOffers.mp hindexed).1
    obtain ⟨hspecific, canonicalProductId, hrequested, hexact⟩ :=
      (mem_officialOffers_iff hreading hinput).mp hoffer
    obtain rfl := Option.some.inj (hexact.symm.trans hlowers.product)
    exact h hrequested offer t
      { specific := hspecific
        usable := ⟨(applicable_planner_iff hreading hinput hoffer).mp happlies, hlowers.quantity⟩
        lowers := hlowers }

end Market

/-! ### One more offer -/

variable (host) in
/-- Two runs of the service for one request, on the same prices, directory and catalogue: after an
offer came out, and before. -/
structure OfferAdded (request : ExactProductPlanApiRequest) (snapshot : PlanningEvidenceSnapshot)
    (directory : Option GeographicDirectoryEvidence)
    (products : List ExactProductPlanApiProductSummary) (at_ : ℤ)
    (before after : PublicOfficialOfferSnapshot) (added : OfficialOffer)
    (inputBefore inputAfter : ServerPlanningInputV2) : Prop where
  offers : after.offers.Perm (added :: before.offers)
  before : ∃ result, readExact host request snapshot directory before at_ = .ok result ∧
    exactRequestAsPlannerV2Input request products result = some inputBefore
  after : ∃ result, readExact host request snapshot directory after at_ = .ok result ∧
    exactRequestAsPlannerV2Input request products result = some inputAfter

section Added

variable {request : ExactProductPlanApiRequest} {snapshot : PlanningEvidenceSnapshot}
  {directory : Option GeographicDirectoryEvidence} {at_ : ℤ}
  {products : List ExactProductPlanApiProductSummary} {before after : PublicOfficialOfferSnapshot}
  {added offer : OfficialOffer} {inputBefore inputAfter : ServerPlanningInputV2}
  {product : PlanningProductV2} {observation : PriceObservation} {packageCount total : ℕ}

/-- An offer the shopper saves with stays one, unless the added offer shadows it. -/
theorem Saves.of_not_shadows (hoffers : after.offers.Perm (added :: before.offers))
    (hrequested : product.canonicalProductId ∈ requestedProducts request snapshot)
    (hnot : ¬ Shadows host request snapshot directory at_ before.offers product observation
      packageCount added)
    (h : Saves host request directory at_ before.offers product observation packageCount offer
      total) :
    Saves host request directory at_ after.offers product observation packageCount offer total := by
  obtain ⟨hmem, happlies, hmost⟩ := h.specific
  refine { h with specific := ⟨hoffers.mem_iff.mpr (List.mem_cons_of_mem _ hmem), happlies, ?_⟩ }
  intro key specificity hgroup other hother hmarket s hs
  obtain rfl | hbefore := List.mem_cons.mp (hoffers.mem_iff.mp hother)
  · by_contra hlt
    obtain rfl := eq_key_of_offerGroup hgroup h.lowers.chain h.lowers.product
    refine hnot
      { requested := hrequested
        applies := hmarket
        narrower := ⟨s, hs, fun other' hother' hmarket' s' hs' => ?_⟩
        saves := ⟨offer, total, h⟩ }
    have hle := hmost _ specificity hgroup other' hother' hmarket' s' hs'
    omega
  · exact hmost key specificity hgroup other hbefore hmarket s hs

/-- Where an unusable offer shadows, the shopper saves with nothing. -/
theorem Shadows.not_saves (hoffers : after.offers.Perm (added :: before.offers))
    (hunusable : ¬ UsableFor host request directory at_ packageCount added)
    (hshadows : Shadows host request snapshot directory at_ before.offers product observation
      packageCount added) :
    ¬ Saves host request directory at_ after.offers product observation packageCount offer
      total := by
  intro h
  obtain ⟨hmem, happlies, hmost⟩ := h.specific
  obtain ⟨specificity, hadded, hnarrower⟩ := hshadows.narrower
  obtain ⟨key, s, hgroup⟩ := happlies.exists_offerGroup
  obtain rfl := eq_key_of_offerGroup hgroup h.lowers.chain h.lowers.product
  obtain rfl | hbefore := List.mem_cons.mp (hoffers.mem_iff.mp hmem)
  · exact hunusable h.usable
  · have hle := hmost _ s hgroup added (hoffers.mem_iff.mpr List.mem_cons_self) hshadows.applies
      specificity hadded
    have hlt := hnarrower offer hbefore happlies s hgroup
    omega

/-- **One more offer the shopper cannot use** leaves a checkout total as low as it was exactly when
it does not shadow an offer the shopper saves with.

**Proof sketch.** A total is the least of the ordinary one and of those of the offers the shopper
saves with. When nothing is shadowed, all of these offers are still handed to the planner. When one
is, the planner is handed only the added offer, so that the shopper pays the ordinary total. -/
theorem checkoutTotal_le_iff_not_shadows
    (hruns : OfferAdded host request snapshot directory products at_ before after added inputBefore
      inputAfter)
    (hunusable : ¬ UsableFor host request directory at_ packageCount added)
    {totalBefore : ℕ}
    (htotal : checkoutTotal host inputBefore at_ product observation packageCount =
      some totalBefore) :
    (∃ totalAfter, checkoutTotal host inputAfter at_ product observation packageCount =
        some totalAfter ∧ totalAfter ≤ totalBefore) ↔
      ¬ Shadows host request snapshot directory at_ before.offers product observation packageCount
        added := by
  obtain ⟨resultBefore, hreadBefore, hinputBefore⟩ := hruns.before
  obtain ⟨resultAfter, hreadAfter, hinputAfter⟩ := hruns.after
  obtain ⟨best, hbest, -⟩ := Option.map_eq_some_iff.mp htotal
  have hordinaryBefore := calculateCheckoutCost_ordinary (bestCheckout_spec hbest).1
  -- Without an offer the context of the offers plays no part.
  have hordinary : calculateCheckoutCost host product.canonicalProductId observation.chain.text
      packageCount observation.amountOre none (offerContext inputAfter at_) =
        .ok (ordinaryCheckoutCost (packageCount * observation.amountOre)) :=
    hordinaryBefore
  obtain ⟨bestAfter, hbestAfter⟩ := exists_bestCheckout hordinary
    (indexOfficialOffers inputAfter.officialOffers
      (productChainKey product.canonicalProductId observation.chain.text))
  have hafter : checkoutTotal host inputAfter at_ product observation packageCount =
      some bestAfter.checkout.totalOre := by
    rw [checkoutTotal, hbestAfter]
    rfl
  have hle := le_checkoutTotal_iff hreadBefore hinputBefore htotal
  have hleAfter := le_checkoutTotal_iff hreadAfter hinputAfter hafter
  constructor
  · rintro ⟨totalAfter, htotalAfter, hnotIncreased⟩ hshadows
    obtain rfl := Option.some.inj (hafter.symm.trans htotalAfter)
    obtain ⟨offer, t, hsaves⟩ := hshadows.saves
    have hordinary : packageCount * observation.amountOre ≤ bestAfter.checkout.totalOre :=
      (hleAfter _).mpr ⟨le_rfl, fun _ offer t h =>
        absurd h (hshadows.not_saves hruns.offers hunusable)⟩
    have hsaved : totalBefore ≤ t := ((hle _).mp le_rfl).2 hshadows.requested offer t hsaves
    have hlower := hsaves.lowers.lower
    omega
  · intro hnot
    refine ⟨_, hafter, (hle _).mpr ⟨((hleAfter _).mp le_rfl).1, fun hrequested offer t hsaves => ?_⟩⟩
    exact ((hleAfter _).mp le_rfl).2 hrequested offer t
      (hsaves.of_not_shadows hruns.offers hrequested hnot)

end Added

/-! ### A member edition for Oslo -/

/-- A request for a litre of milk in Oslo, by a shopper who is a member of nothing. -/
def osloRequest : ExactProductPlanApiRequest :=
  { milkRequest 1 with marketContext := .launchRegion (js "no-0301-oslo") }

/-- An offer on the milk. -/
def milkOffer (id : JsString) (unitPriceOre : ℕ) (condition : OfferCondition)
    (scope : GeographicScope) : OfficialOffer where
  id := id
  sourceId := js "tilbud"
  sourceRecordId := id
  chainId := Chain.bunnpris.text
  productMatch := .exact (js "melk")
  pricing := .unit unitPriceOre
  beforePriceOre := none
  conditions := [condition]
  applicability :=
    { startsAt := noon - 1, endsAt := noon + 1, geographicScope := scope, channels := [.inStore] }
  evidenceLevel := .reviewed
  capturedAt := noon

/-- An offer for everyone in the country. -/
def nationalOffer : OfficialOffer :=
  milkOffer (js "landet") 1500 .everyone (.national (js "NO"))

/-- An offer for the members of a program in Oslo. -/
def osloMemberOffer : OfficialOffer :=
  milkOffer (js "oslo") 1000 (.member (js "medlem")) (.regions (js "NO") [js "no-0301-oslo"])

variable (offers : List OfficialOffer)

/-- A snapshot of offers from one source. -/
def milkOffers : PublicOfficialOfferSnapshot where
  offers := offers
  sources := [⟨js "tilbud", js "Tilbud", .offer⟩]

/-- The planner input of the request with some offers out. -/
def osloInput : Option ServerPlanningInputV2 :=
  (readExact Host.ascii osloRequest (milkSnapshot [.bunnpris]) none (milkOffers offers)
    noon).toOption.bind (exactRequestAsPlannerV2Input osloRequest [milkSummary])

/-- The milk, as a product of the planner. -/
def milkProduct : PlanningProductV2 where
  canonicalProductId := js "melk"
  ean := js "00000000"
  name := js "Melk"
  brand := none
  packageMeasure := ⟨1000, .ml⟩
  productFamily := none

/-- The observed price of the milk. -/
def milkObservation : PriceObservation where
  ean := js "00000000"
  chain := .bunnpris
  amountOre := 2000
  observedAt := noon
  source := js "priser"

/-- What the milk costs with some offers out. -/
def osloTotal : Option ℕ :=
  (osloInput offers).bind fun input =>
    checkoutTotal Host.ascii input noon milkProduct milkObservation 1

/-- The two runs, with what the milk costs in each. -/
theorem exists_offerAdded_oslo {before : List OfficialOffer} {added : OfficialOffer}
    {totalBefore totalAfter : ℕ} (hbefore : osloTotal before = some totalBefore)
    (hafter : osloTotal (added :: before) = some totalAfter) :
    ∃ inputBefore inputAfter,
      OfferAdded Host.ascii osloRequest (milkSnapshot [.bunnpris]) none [milkSummary] noon
          (milkOffers before) (milkOffers (added :: before)) added inputBefore inputAfter ∧
        checkoutTotal Host.ascii inputBefore noon milkProduct milkObservation 1 =
          some totalBefore ∧
        checkoutTotal Host.ascii inputAfter noon milkProduct milkObservation 1 =
          some totalAfter := by
  have hread : ∀ {offers input}, osloInput offers = some input →
      ∃ result, readExact Host.ascii osloRequest (milkSnapshot [.bunnpris]) none (milkOffers offers)
          noon = .ok result ∧
        exactRequestAsPlannerV2Input osloRequest [milkSummary] result = some input := by
    intro offers input hinput
    obtain ⟨result, hresult, hplanned⟩ := Option.bind_eq_some_iff.mp hinput
    refine ⟨result, ?_, hplanned⟩
    cases hexact : readExact Host.ascii osloRequest (milkSnapshot [.bunnpris]) none
        (milkOffers offers) noon with
    | error code =>
      rw [hexact] at hresult
      cases hresult
    | ok exact =>
      rw [hexact] at hresult
      exact congrArg Except.ok (Option.some.inj hresult)
  obtain ⟨inputBefore, hinputBefore, hbefore⟩ := Option.bind_eq_some_iff.mp hbefore
  obtain ⟨inputAfter, hinputAfter, hafter⟩ := Option.bind_eq_some_iff.mp hafter
  exact ⟨inputBefore, inputAfter,
    { offers := List.Perm.refl _
      before := hread hinputBefore
      after := hread hinputAfter }, hbefore, hafter⟩

/-- The shopper is no member, so the offer for members is of no use. -/
theorem not_usableFor_osloMemberOffer (directory : Option GeographicDirectoryEvidence) (at_ : ℤ)
    (packageCount : ℕ) :
    ¬ UsableFor Host.ascii osloRequest directory at_ packageCount osloMemberOffer := by
  intro h
  have hmember := h.1.memberships (js "medlem") (by decide)
  exact List.not_mem_nil hmember

/-- The member edition shadows the national offer. -/
theorem shadows_osloMemberOffer :
    Shadows Host.ascii osloRequest (milkSnapshot [.bunnpris]) none noon [nationalOffer] milkProduct
      milkObservation 1 osloMemberOffer := by
  obtain ⟨inputBefore, inputAfter, hruns, hbefore, hafter⟩ :=
    exists_offerAdded_oslo (by decide +kernel : osloTotal [nationalOffer] = some 1500)
      (by decide +kernel : osloTotal [osloMemberOffer, nationalOffer] = some 2000)
  by_contra hnot
  obtain ⟨totalAfter, htotal, hle⟩ := (checkoutTotal_le_iff_not_shadows hruns
    (not_usableFor_osloMemberOffer none noon 1) hbefore).mpr hnot
  obtain rfl := Option.some.inj (hafter.symm.trans htotal)
  omega

/-- A shopper who is a member of nothing pays 15 kroner for the milk as long as only the national
offer is out, and 20 kroner once there is a cheaper one for the members in Oslo. -/
theorem checkoutTotal_increases_member_edition :
    ∃ inputBefore inputAfter,
      OfferAdded Host.ascii osloRequest (milkSnapshot [.bunnpris]) none [milkSummary] noon
          (milkOffers [nationalOffer]) (milkOffers [osloMemberOffer, nationalOffer]) osloMemberOffer
          inputBefore inputAfter ∧
        ¬ UsableFor Host.ascii osloRequest none noon 1 osloMemberOffer ∧
        checkoutTotal Host.ascii inputBefore noon milkProduct milkObservation 1 = some 1500 ∧
        checkoutTotal Host.ascii inputAfter noon milkProduct milkObservation 1 = some 2000 := by
  obtain ⟨inputBefore, inputAfter, hruns, hbefore, hafter⟩ :=
    exists_offerAdded_oslo (by decide +kernel : osloTotal [nationalOffer] = some 1500)
      (by decide +kernel : osloTotal [osloMemberOffer, nationalOffer] = some 2000)
  exact ⟨inputBefore, inputAfter, hruns, not_usableFor_osloMemberOffer none noon 1, hbefore, hafter⟩

end Handleplan.PlanService
