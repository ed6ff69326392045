import Handleplan.Lib.Choices
import Handleplan.OpenPrices.Normalizer

/-!
# The Tjek client

The offers of a catalogue are fetched page by page, or one by one from the views of a publication.
Each row is checked when it is read; a row that fails its check fails the whole catalogue.

## Main definitions

* `Tjek.getPagedOffers` — the offers of the pages of a catalogue.
* `Tjek.findOfferViewIds` — the views of offers in a publication.
* `Tjek.getOffersFromCatalog` — the offers of a catalogue.

## Main results

* `Tjek.id_ne_nil_of_getOffersFromCatalog` — offers that the client returns have an id.

## Implementation notes

A response is the value of its body; there is none where the request is cancelled, not authorized or
not answered with success. A function that throws answers `none`. Numbers are read in double
precision; one that is infinite is not a finite number, and as a price before there is none.
-/

namespace Handleplan.Tjek

open JsString OpenPrices

/-- `TjekCatalog`, what the client reads of it. -/
structure TjekCatalog where
  id : JsString
  dealerId : JsString
  catalogType : JsString
  types : Option (List JsString)
  incitoPublicationId : Option JsString
  offerCount : ℚ

/-- `TjekOffer`. -/
structure TjekOffer where
  id : JsString
  heading : Option JsString
  name : JsString
  price : Option ℚ
  beforePrice : Option ℚ
  quantity : Option JsString
  unit : Option JsString
  runFrom : JsString
  runTill : JsString
  catalogId : JsString
  dealerId : JsString
  imageUrl : Option JsString
  pageNumber : Option ℚ
  description : Option JsString
  currency : Option JsString
  raw : Json

/-- The requests of the client and their responses. -/
structure Service where
  hasApiKey : Bool
  /-- `/v2/offers`, by page. -/
  page : ℕ → Option Json
  /-- `generate_incito_from_publication`. -/
  incito : Option Json
  /-- `get_offer_from_incito_publication_view`, by view. -/
  offerOfView : JsString → Option Json

/-! ### Values -/

/-- A text, where the value is one. -/
def textOf : Option Json → Option JsString
  | some (.string s) => some s
  | _ => none

/-- A number that is finite, where the value is one. -/
def finiteNumberOf : Option Json → Option ℚ
  | some (.number n) => numberValue n
  | _ => none

/-- The text of a number, where the value is one. -/
def numberTextOf : Option Json → Option JsString
  | some (.number n) => toText (.number n)
  | _ => none

/-- A price that may be `null`; `none` where the value is neither `null` nor a finite number. -/
def nullablePriceOf : Option Json → Option (Option ℚ)
  | some .null => some none
  | value => (finiteNumberOf value).map some

/-- A price that may be missing. -/
def optionalPriceOf : Option Json → Option (Option ℚ)
  | none => some none
  | value => nullablePriceOf value

/-- `value?.name`. -/
def optionalMember (value : Option Json) (name : String) : Option Json :=
  value.bind fun value => member value name

/-! ### Dealers -/

/-- `TJEK_NORWEGIAN_DEALERS`: the dealers and their types of catalogues. -/
def tjekNorwegianDealers : List (JsString × List JsString) :=
  [(js "5b11sm", [js "incito"]), (js "80742m", [js "paged"]), (js "faa0Ym", [js "paged"])]

/-- `catalog.types?.includes`. -/
def TjekCatalog.includesType (catalog : TjekCatalog) (type : JsString) : Bool :=
  catalog.types.any fun types => types.contains type

/-- `canExtractOffers`. -/
def canExtractOffers (catalog : TjekCatalog) : Bool :=
  (JsMap.get? tjekNorwegianDealers catalog.dealerId).any fun types => types.any fun type =>
    decide (catalog.catalogType = type) || catalog.includesType type ||
      (decide (type = js "incito") && catalog.incitoPublicationId.any fun id => decide (id ≠ []))

/-! ### Pages -/

/-- The offer of a row of a page; `none` where the row fails its check. -/
def pagedOffer (catalog : TjekCatalog) (raw : Json) : Option TjekOffer :=
  (textOf (member raw "id")).bind fun id =>
  (textOf (member raw "heading")).bind fun heading =>
  (textOf (member raw "run_from")).bind fun runFrom =>
  (textOf (member raw "run_till")).bind fun runTill =>
  (member raw "pricing").bind fun pricing =>
  (nullablePriceOf (member pricing "price")).bind fun price =>
  (optionalPriceOf (member pricing "pre_price")).bind fun beforePrice =>
  if id ≠ [] ∧ textOf (member raw "catalog_id") = some catalog.id ∧
      textOf (member raw "dealer_id") = some catalog.dealerId then
    some
      { id := id
        heading := some heading
        name := heading
        price := price
        beforePrice := beforePrice
        quantity := numberTextOf
          (optionalMember (optionalMember (member raw "quantity") "size") "from")
        unit := textOf (optionalMember (optionalMember (member raw "quantity") "unit") "symbol")
        runFrom := runFrom
        runTill := runTill
        catalogId := catalog.id
        dealerId := catalog.dealerId
        imageUrl := textOf (optionalMember (member raw "images") "view")
        pageNumber := (finiteNumberOf (member raw "catalog_page")).filter fun page => page.den = 1
        description := textOf (member raw "description")
        currency := textOf (member pricing "currency")
        raw := raw }
  else none

/-- The offers with those of the rows of a page; `none` where a row fails its check or an id is
there already. -/
def addPage (catalog : TjekCatalog) : List TjekOffer → List Json → Option (List TjekOffer)
  | offers, [] => some offers
  | offers, raw :: rows => (pagedOffer catalog raw).bind fun offer =>
    if offer.id ∈ offers.map TjekOffer.id then none else addPage catalog (offers ++ [offer]) rows

/-- The loop over the pages, for a number of pages from one on. -/
def addPages (catalog : TjekCatalog) (service : Service) :
    ℕ → ℕ → List TjekOffer → Option (List TjekOffer)
  | 0, _, _ => none
  | fuel + 1, page, offers =>
    match service.page page with
    | some (.array rows) =>
      if 24 < rows.length then none
      else (addPage catalog offers rows).bind fun offers =>
        if 500 < offers.length then none
        else if rows.length < 24 then
          if offers = [] ∧ 0 < catalog.offerCount then none else some offers
        else addPages catalog service fuel (page + 1) offers
    | _ => none

/-- `getPagedOffers`. -/
def getPagedOffers (catalog : TjekCatalog) (service : Service) : Option (List TjekOffer) :=
  if catalog.offerCount.den ≠ 1 ∨ catalog.offerCount < 0 then none
  else addPages catalog service 21 0 []

/-! ### Publications -/

/-- The view of an object that is an offer. -/
def offerViewId (members : List (JsString × Json)) : List JsString :=
  if textOf (JsMap.get? members (js "role")) = some (js "offer") then
    (textOf (JsMap.get? members (js "id"))).toList
  else []

mutual

/-- `findOfferViewIds`. -/
def findOfferViewIds : Json → List JsString
  | .array items => findOfferViewIdsOfItems items
  | .object members => offerViewId members ++ findOfferViewIdsOfMembers members
  | _ => []

/-- The views in the items of an array. -/
def findOfferViewIdsOfItems : List Json → List JsString
  | [] => []
  | item :: items => findOfferViewIds item ++ findOfferViewIdsOfItems items

/-- The views in the members of an object. -/
def findOfferViewIdsOfMembers : List (JsString × Json) → List JsString
  | [] => []
  | (_, value) :: members => findOfferViewIds value ++ findOfferViewIdsOfMembers members

end

/-- `raw.offer ?? raw`. -/
def detailOf (raw : Json) : Json :=
  match member raw "offer" with
  | none => raw
  | some .null => raw
  | some detail => detail

/-- The offer of a view; `none` where its details fail their check. -/
def incitoOffer (catalog : TjekCatalog) (viewId : JsString) (raw : Json) : Option TjekOffer :=
  let detail := detailOf raw
  (textOf (member detail "name")).bind fun name =>
  (finiteNumberOf (member detail "price")).map fun price =>
    { id := catalog.id ++ js ":" ++ viewId
      heading := none
      name := name
      price := some price
      beforePrice := finiteNumberOf (member detail "before_price")
      quantity := numberTextOf (optionalMember (member detail "unit_size") "from")
      unit := textOf (member detail "unit_symbol")
      runFrom := (textOf (optionalMember (member detail "validity") "from")).getD []
      runTill := (textOf (optionalMember (member detail "validity") "to")).getD []
      catalogId := catalog.id
      dealerId := catalog.dealerId
      imageUrl := none
      pageNumber := none
      description := textOf (member detail "description")
      currency := textOf (member detail "currency_code")
      raw := raw }

/-- The offers of the views of a publication. -/
def getIncitoOffers (catalog : TjekCatalog) (service : Service) : Option (List TjekOffer) :=
  service.incito.bind fun incito =>
    (JsMap.ofEntries ((findOfferViewIds incito).map fun viewId => (viewId, ()))).keys.mapM
      fun viewId => (service.offerOfView viewId).bind (incitoOffer catalog viewId)

/-- `getOffersFromCatalog`, of a catalogue. -/
def getOffersFromCatalog (catalog : TjekCatalog) (service : Service) : Option (List TjekOffer) :=
  if canExtractOffers catalog = false then none
  else if catalog.catalogType = js "paged" ∨ catalog.includesType (js "paged") = true then
    getPagedOffers catalog service
  else if service.hasApiKey = false then none
  else getIncitoOffers catalog service

/-! ### What is returned -/

variable {catalog : TjekCatalog} {service : Service}

/-- The offers of a page have an id. -/
theorem id_ne_nil_of_pagedOffer {raw : Json} {offer : TjekOffer}
    (h : pagedOffer catalog raw = some offer) : offer.id ≠ [] := by
  simp only [pagedOffer, Option.bind_eq_some_iff] at h
  obtain ⟨id, -, heading, -, runFrom, -, runTill, -, pricing, -, price, -, beforePrice, -, h⟩ := h
  split_ifs at h with hchecks
  rw [← Option.some.inj h]
  exact hchecks.1

theorem id_ne_nil_of_addPage {rows : List Json} {offers offers' : List TjekOffer}
    (hoffers : ∀ offer ∈ offers, offer.id ≠ []) (h : addPage catalog offers rows = some offers') :
    ∀ offer ∈ offers', offer.id ≠ [] := by
  induction rows generalizing offers with
  | nil => exact Option.some.inj h ▸ hoffers
  | cons raw rows ih =>
    obtain ⟨offer, hoffer, h⟩ := Option.bind_eq_some_iff.mp h
    split_ifs at h
    refine ih (fun other hother => ?_) h
    rcases List.mem_append.mp hother with hother | hother
    · exact hoffers other hother
    · rw [List.mem_singleton.mp hother]
      exact id_ne_nil_of_pagedOffer hoffer

/-- **Pages that are added**: the offers have an id and are no more than 500. -/
theorem length_le_of_addPages {fuel page : ℕ} {offers offers' : List TjekOffer}
    (hoffers : ∀ offer ∈ offers, offer.id ≠ [])
    (h : addPages catalog service fuel page offers = some offers') :
    (∀ offer ∈ offers', offer.id ≠ []) ∧ offers'.length ≤ 500 := by
  induction fuel generalizing page offers with
  | zero => cases h
  | succ fuel ih =>
    unfold addPages at h
    split at h
    case h_1 rows _ =>
      by_cases hlong : 24 < rows.length
      · rw [if_pos hlong] at h
        cases h
      rw [if_neg hlong] at h
      obtain ⟨added, hadded, h⟩ := Option.bind_eq_some_iff.mp h
      have hids := id_ne_nil_of_addPage hoffers hadded
      split_ifs at h with hmany hlast hempty
      · cases h
        exact ⟨hids, not_lt.mp hmany⟩
      · exact ih hids h
    case h_2 => cases h

/-- The offers of a publication have an id. -/
theorem id_ne_nil_of_getIncitoOffers {offers : List TjekOffer}
    (h : getIncitoOffers catalog service = some offers) : ∀ offer ∈ offers, offer.id ≠ [] := by
  obtain ⟨incito, -, h⟩ := Option.bind_eq_some_iff.mp h
  intro offer hoffer
  obtain ⟨viewId, -, hview⟩ := Choices.exists_mem_of_forall₂ (Choices.mapM_eq_some_iff.mp h) hoffer
  obtain ⟨raw, -, hraw⟩ := Option.bind_eq_some_iff.mp hview
  simp only [incitoOffer, Option.bind_eq_some_iff, Option.map_eq_some_iff] at hraw
  obtain ⟨name, -, price, -, rfl⟩ := hraw
  simp [js]

/-- **Offers that the client returns have an id.** -/
theorem id_ne_nil_of_getOffersFromCatalog {offers : List TjekOffer}
    (h : getOffersFromCatalog catalog service = some offers) : ∀ offer ∈ offers, offer.id ≠ [] := by
  unfold getOffersFromCatalog at h
  split_ifs at h
  · unfold getPagedOffers at h
    split_ifs at h
    exact (length_le_of_addPages (by simp) h).1
  · exact id_ne_nil_of_getIncitoOffers h

end Handleplan.Tjek
