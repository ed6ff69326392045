import Handleplan.Domain.OfferIngestionContracts
import Handleplan.Tjek.Client

/-!
# The Tjek extractor

The handler of Tjek catalogues proposes each offer that the client has returned as a candidate, and
hands the candidates on in one envelope, which the pipeline parses.

## Main definitions

* `Tjek.extract` — the envelope of the offers of a catalogue.
* `Tjek.ProposedEnvelope.parse` — what the schema of envelopes makes of it.
* `Tjek.Proposable` — an offer that becomes a candidate of the contract.

## Main results

* `Tjek.accepted_extract_iff` — when the envelope is accepted.

## Implementation notes

The instant of a text is a function of the runtime, `none` where the date is not valid. A digest is
any function into texts of its form. The schema trims the texts of a candidate before it measures
them; the scope is that of the edition, which has been parsed.
-/

namespace Handleplan.Tjek

open JsString DecimalText

/-! ### Extraction -/

/-- What a candidate is built of; `none` as an amount where it is `null` or infinite. -/
structure Proposal where
  candidateKey : JsString
  label : JsString
  offerPriceOre : Option ℤ
  validity : ExtractedValidity
  geographicScope : GeographicScope
  evidenceLocator : JsString

/-- The envelope of the extractor. -/
structure ProposedEnvelope where
  captureChecksumSha256 : JsString
  fingerprint : JsString
  startedAt : ℤ
  completedAt : ℤ
  emptyResult : ExtractionEmptyResult
  candidates : List Proposal

/-- What the extractor gets: the capture, the scope of the edition, and two readings of the
clock. -/
structure Extraction where
  captureChecksumSha256 : JsString
  declaredGeographicScope : GeographicScope
  startedAt : ℤ
  completedAt : ℤ

/-- `Math.round(price * 100)`. -/
def offerPriceOre (price : Option ℚ) : Option ℤ :=
  price.bind fun price => (Double.ofSigned (price * 100)).map fun product => ⌊product + 1 / 2⌋

/-- An offer that names a currency other than `NOK`. -/
def hasForeignCurrency (offer : TjekOffer) : Bool :=
  offer.currency.any fun currency => decide (currency ≠ [] ∧ currency ≠ js "NOK")

/-- `fingerprint`, of the digest. -/
def fingerprint (sha256 : JsString → JsString) : JsString :=
  sha256 (js "tjek-normalized-offers-review-v2")

section Runtime

variable (dateOf : JsString → Option ℤ)

/-- The validity of an offer; `none` where the date of one of its texts is not valid. -/
def validityOf (offer : TjekOffer) : Option ExtractedValidity :=
  if offer.runFrom ≠ [] ∧ offer.runTill ≠ [] then
    (dateOf offer.runFrom).bind fun startsAt => (dateOf offer.runTill).map fun endsAt =>
      .parsed startsAt endsAt
  else some (.unreadable .missing)

/-- The candidate of an offer. -/
def proposalOf (scope : GeographicScope) (entry : TjekOffer × ℕ) : Option Proposal :=
  (validityOf dateOf entry.1).map fun validity =>
    { candidateKey := if entry.1.id ≠ [] then entry.1.id else js "offer-" ++ ofNat entry.2
      label := entry.1.name
      offerPriceOre := offerPriceOre entry.1.price
      validity := validity
      geographicScope := scope
      evidenceLocator := js "offers[" ++ ofNat entry.2 ++ js "]" }

/-- `structuredExtractor.extract`; `none` where it throws. -/
def extract (sha256 : JsString → JsString) (extraction : Extraction) (offers : List TjekOffer) :
    Option ProposedEnvelope :=
  if offers.any hasForeignCurrency then none
  else (offers.zipIdx.mapM (proposalOf dateOf extraction.declaredGeographicScope)).map
    fun candidates =>
      { captureChecksumSha256 := extraction.captureChecksumSha256
        fingerprint := fingerprint sha256
        startedAt := extraction.startedAt
        completedAt := extraction.completedAt
        emptyResult := if offers.length ≠ 0 then .notEmpty else .unexpectedEmpty
        candidates := candidates }

end Runtime

/-! ### The schema -/

/-- An amount that is a natural number. -/
def natAmount : Option ℤ → Option ℕ
  | some (.ofNat n) => some n
  | _ => none

/-- The candidate, as the schema reads it: its texts are trimmed, and its amount is a natural
number. -/
def Proposal.parse (proposal : Proposal) : Option ExtractedOfficialOfferCandidate :=
  (natAmount proposal.offerPriceOre).map fun amount =>
    { candidateKey := trim proposal.candidateKey
      product := .unresolvedLabel (trim proposal.label) none
      package := .unknown .missing
      pricing := .unit amount none
      eligibility := .publicEligibility
      validity := proposal.validity
      geographicScope := proposal.geographicScope
      channels := [.inStore]
      provenance := ⟨.structured, trim proposal.evidenceLocator, 0⟩
      anomalyCodes := [.extractorAnomaly] }

/-- The envelope, as the schema reads it. -/
def ProposedEnvelope.parse (proposed : ProposedEnvelope) :
    Option OfficialOfferExtractionEnvelope :=
  (proposed.candidates.mapM Proposal.parse).map fun candidates =>
    { captureChecksumSha256 := proposed.captureChecksumSha256
      extractorVersion := js "tjek-review-v2"
      method := .structured
      layoutFingerprintSha256 := proposed.fingerprint
      schemaFingerprintSha256 := proposed.fingerprint
      startedAt := proposed.startedAt
      completedAt := proposed.completedAt
      emptyResult := proposed.emptyResult
      emptyConfirmation := none
      candidates := candidates }

/-- **The envelope is accepted**: the schema reads it, and what it reads meets the contract. -/
def ProposedEnvelope.Accepted (proposed : ProposedEnvelope) : Prop :=
  ∃ envelope, proposed.parse = some envelope ∧ OfficialOfferExtractionEnvelopeSchema envelope

/-! ### Offers that become candidates -/

/-- The times of an offer: one is missing, or both are dates of the contract and in order. -/
def ReadableRun (dateOf : JsString → Option ℤ) (offer : TjekOffer) : Prop :=
  offer.runFrom = [] ∨ offer.runTill = [] ∨
    ∃ startsAt ∈ dateOf offer.runFrom, ∃ endsAt ∈ dateOf offer.runTill,
      CanonicalTimestamp startsAt ∧ CanonicalTimestamp endsAt ∧ startsAt < endsAt

/-- **An offer that becomes a candidate of the contract.** -/
@[mk_iff] structure Proposable (dateOf : JsString → Option ℤ) (offer : TjekOffer) : Prop where
  currency : hasForeignCurrency offer = false
  id : trim offer.id ≠ [] ∧ (trim offer.id).length ≤ 160
  name : trim offer.name ≠ [] ∧ (trim offer.name).length ≤ 240
  price : ∃ price ∈ offer.price, ∃ product ∈ Double.ofSigned (price * 100),
    -1 / 2 ≤ product ∧ product < maxPersistedMoneyOre + 1 / 2
  run : ReadableRun dateOf offer

instance (dateOf : JsString → Option ℤ) (offer : TjekOffer) : Decidable (ReadableRun dateOf offer) :=
  inferInstanceAs (Decidable (_ ∨ _ ∨ _))

instance (dateOf : JsString → Option ℤ) (offer : TjekOffer) : Decidable (Proposable dateOf offer) :=
  decidable_of_iff' _ (proposable_iff dateOf offer)

variable {dateOf : JsString → Option ℤ} {sha256 : JsString → JsString} {scope : GeographicScope}
  {offer : TjekOffer} {offers : List TjekOffer} {index : ℕ}

/-- The place of an offer is an identifier of the contract. -/
theorem identifierSchema_evidenceLocator (hindex : index < 500) :
    IdentifierSchema (trim (js "offers[" ++ ofNat index ++ js "]")) := by
  have htrim : trim (js "offers[" ++ ofNat index ++ js "]") =
      js "offers[" ++ ofNat index ++ js "]" := by
    refine trim_eq_self fun u hu => ?_
    simp only [List.mem_append] at hu
    obtain (hu | hu) | hu := hu
    · revert u
      decide
    · exact isSpace_of_isDigit (mem_ofNat hu)
    · revert u
      decide
  have hdigits : (ofNat index).length ≤ 3 := length_ofNat_le (by omega) (by omega)
  refine ⟨by rw [trim_trim], ?_, ?_⟩
  · rw [htrim]
    simp [js]
  · rw [htrim]
    simp only [List.length_append]
    have hhead : (js "offers[").length = 7 := rfl
    have hlast : (js "]").length = 1 := rfl
    omega

/-- Which prices are amounts of the contract. -/
theorem exists_natAmount_iff {price : Option ℚ} :
    (∃ amount, natAmount (offerPriceOre price) = some amount ∧ MoneyOreSchema amount) ↔
      ∃ p ∈ price, ∃ product ∈ Double.ofSigned (p * 100),
        -1 / 2 ≤ product ∧ product < maxPersistedMoneyOre + 1 / 2 := by
  cases price with
  | none => simp [offerPriceOre, natAmount]
  | some p =>
    cases hproduct : Double.ofSigned (p * 100) with
    | none => simp [offerPriceOre, natAmount, hproduct]
    | some product =>
      simp only [offerPriceOre, hproduct, Option.bind_some, Option.map_some, Option.mem_def,
        Option.some.injEq, exists_eq_left']
      have hlow : 0 ≤ ⌊product + 1 / 2⌋ ↔ -1 / 2 ≤ product := by
        rw [Int.le_floor]
        constructor <;> intro h <;> push_cast at h ⊢ <;> linarith
      have hhigh : ⌊product + 1 / 2⌋ < maxPersistedMoneyOre + 1 ↔
          product < maxPersistedMoneyOre + 1 / 2 := by
        rw [Int.floor_lt]
        constructor <;> intro h <;> push_cast at h ⊢ <;> linarith
      rw [← hlow, ← hhigh]
      cases hfloor : ⌊product + 1 / 2⌋ with
      | ofNat amount =>
        simp only [natAmount, MoneyOreSchema, Option.some.injEq, exists_eq_left']
        simp only [Int.ofNat_eq_natCast]
        omega
      | negSucc amount =>
        simp only [natAmount, reduceCtorEq, false_and, exists_false, false_iff]
        omega

/-- The validity of an offer whose times can be read. -/
theorem exists_validityOf_iff :
    (∃ validity, validityOf dateOf offer = some validity ∧ ExtractedValiditySchema validity) ↔
      ReadableRun dateOf offer := by
  unfold validityOf ReadableRun
  split_ifs with hgiven
  · rw [or_iff_right hgiven.1, or_iff_right hgiven.2]
    cases hfrom : dateOf offer.runFrom with
    | none => simp
    | some startsAt =>
      cases htill : dateOf offer.runTill with
      | none => simp
      | some endsAt => simp [ExtractedValiditySchema]
  · rw [not_and_or, not_not, not_not] at hgiven
    refine iff_of_true ⟨_, rfl, trivial⟩ ?_
    rw [← or_assoc]
    exact Or.inl hgiven

/-- **The candidate of an offer meets the contract** when the offer is proposable. -/
theorem exists_parse_proposalOf_iff (hscope : GeographicScopeSchema scope) (hindex : index < 500)
    (hid : offer.id ≠ []) (hcurrency : hasForeignCurrency offer = false) :
    (∃ proposal, proposalOf dateOf scope (offer, index) = some proposal ∧
        ∃ candidate, proposal.parse = some candidate ∧
          ExtractedOfficialOfferCandidateSchema candidate) ↔ Proposable dateOf offer := by
  rw [proposable_iff, ← exists_natAmount_iff, ← exists_validityOf_iff]
  constructor
  · rintro ⟨proposal, hproposal, candidate, hcandidate, hschema⟩
    obtain ⟨validity, hvalidity, rfl⟩ := Option.map_eq_some_iff.mp hproposal
    obtain ⟨amount, hamount, rfl⟩ := Option.map_eq_some_iff.mp hcandidate
    have hkey := hschema.candidateKey
    rw [if_pos hid] at hkey
    exact ⟨hcurrency, ⟨hkey.1.ne_nil, hkey.2⟩, ⟨hschema.product.1.1.ne_nil, hschema.product.1.2⟩,
      ⟨amount, hamount, hschema.pricing.1⟩, validity, hvalidity, hschema.validity⟩
  · rintro ⟨-, hkey, hname, ⟨amount, hamount, hmoney⟩, validity, hvalidity, hrun⟩
    refine ⟨_, Option.map_eq_some_iff.mpr ⟨validity, hvalidity, rfl⟩, _,
      Option.map_eq_some_iff.mpr ⟨amount, hamount, rfl⟩, ?_⟩
    have hkeyLength := List.length_pos_iff.mpr hkey.1
    have hnameLength := List.length_pos_iff.mpr hname.1
    exact
      { candidateKey := by
          rw [if_pos hid]
          exact ⟨⟨trim_trim _, hkeyLength, hkey.2.trans (by norm_num)⟩, hkey.2⟩
        product := ⟨⟨⟨trim_trim _, hnameLength, hname.2.trans (by norm_num)⟩, hname.2⟩, by simp⟩
        package := trivial
        pricing := ⟨hmoney, by simp⟩
        eligibility := trivial
        validity := hrun
        geographicScope := hscope
        channelsBound := by simp
        provenance := ⟨identifierSchema_evidenceLocator hindex, by simp⟩
        anomalyBound := by simp
        anomalyCodes := by simp
        channels := by simp }

/-! ### Envelopes -/

/-- What all candidates of an envelope share. -/
theorem shared_of_parse {proposal : Proposal} {candidate : ExtractedOfficialOfferCandidate}
    {entry : TjekOffer × ℕ} (hproposal : proposalOf dateOf scope entry = some proposal)
    (hcandidate : proposal.parse = some candidate) :
    candidate.provenance.method = .structured ∧ candidate.geographicScope = scope := by
  obtain ⟨validity, -, rfl⟩ := Option.map_eq_some_iff.mp hproposal
  obtain ⟨amount, -, rfl⟩ := Option.map_eq_some_iff.mp hcandidate
  exact ⟨rfl, rfl⟩

theorem extractorVersion_valid :
    IdentifierSchema (js "tjek-review-v2") ∧ (js "tjek-review-v2").length ≤ 80 := by
  decide

/-- The candidates of offers: as many as the offers, and of one scope. -/
theorem shape_of_mapM {proposals : List Proposal} {candidates : List ExtractedOfficialOfferCandidate}
    (hproposals : offers.zipIdx.mapM (proposalOf dateOf scope) = some proposals)
    (hcandidates : proposals.mapM Proposal.parse = some candidates) :
    candidates.length = offers.length ∧
      ∀ c ∈ candidates, c.provenance.method = .structured ∧ c.geographicScope = scope := by
  have hbuilt := Choices.mapM_eq_some_iff.mp hproposals
  have hread := Choices.mapM_eq_some_iff.mp hcandidates
  refine ⟨?_, fun candidate hcandidate => ?_⟩
  · rw [← hread.length_eq, ← hbuilt.length_eq, List.length_zipIdx]
  · obtain ⟨proposal, hproposal, hparse⟩ := Choices.exists_mem_of_forall₂ hread hcandidate
    obtain ⟨entry, -, hentry⟩ := Choices.exists_mem_of_forall₂ hbuilt hproposal
    exact shared_of_parse hentry hparse

/-- **The envelope of the offers of a catalogue is accepted** just when each offer is proposable,
they are no more than 500, the members of their scopes are no more than 10000, and the clock has not
gone back.

**Proof sketch.** The candidate of an offer meets the contract when the offer is proposable; one
that does not keeps the schema from accepting the list of all of them. All candidates share the
scope of the edition, so that the bound on the members of scopes is one on the number of offers. -/
theorem accepted_extract_iff (dateOf : JsString → Option ℤ) (sha256 : JsString → JsString)
    (hsha256 : ∀ s, Sha256Schema (sha256 s)) (catalog : TjekCatalog) (service : Service)
    (offers : List TjekOffer) (hoffers : getOffersFromCatalog catalog service = some offers)
    (extraction : Extraction) (hchecksum : Sha256Schema extraction.captureChecksumSha256)
    (hscope : GeographicScopeSchema extraction.declaredGeographicScope) :
    (∃ proposed, extract dateOf sha256 extraction offers = some proposed ∧ proposed.Accepted) ↔
      (∀ offer ∈ offers, Proposable dateOf offer) ∧ offers.length ≤ 500 ∧
        offers.length * scopeMembers extraction.declaredGeographicScope ≤ 10000 ∧
        (CanonicalTimestamp extraction.startedAt ∧ CanonicalTimestamp extraction.completedAt) ∧
        extraction.startedAt ≤ extraction.completedAt := by
  have hids := id_ne_nil_of_getOffersFromCatalog hoffers
  by_cases hforeign : offers.any hasForeignCurrency = true
  · obtain ⟨offer, hoffer, hcurrency⟩ := List.any_eq_true.mp hforeign
    refine iff_of_false (fun ⟨proposed, h, _⟩ => ?_) fun h => ?_
    · rw [extract, if_pos hforeign] at h
      cases h
    · exact Bool.false_ne_true ((h.1 offer hoffer).currency.symm.trans hcurrency)
  have hlocal : ∀ offer ∈ offers, hasForeignCurrency offer = false := by
    intro offer hoffer
    rw [Bool.eq_false_iff]
    exact fun h => hforeign (List.any_eq_true.mpr ⟨offer, hoffer, h⟩)
  have hentry : ∀ entry ∈ offers.zipIdx, entry.1 ∈ offers ∧ entry.2 < offers.length := by
    intro entry hentry
    obtain ⟨-, hlt, hget⟩ := List.mem_zipIdx hentry
    exact ⟨hget ▸ List.getElem_mem _, by omega⟩
  rw [extract, if_neg hforeign]
  constructor
  · rintro ⟨proposed, hproposed, envelope, hparse, hschema⟩
    obtain ⟨proposals, hproposals, rfl⟩ := Option.map_eq_some_iff.mp hproposed
    obtain ⟨candidates, hcandidates, rfl⟩ := Option.map_eq_some_iff.mp hparse
    obtain ⟨hlength, hshared⟩ := shape_of_mapM hproposals hcandidates
    have hmeets := (officialOfferExtractionEnvelopeSchema_iff_of_shared hchecksum
      extractorVersion_valid ⟨hsha256 _, hsha256 _⟩ rfl (by rw [← hlength]) hshared).mp hschema
    dsimp only at hmeets
    rw [hlength] at hmeets
    refine ⟨fun offer hoffer => ?_, hmeets.2⟩
    obtain ⟨index, hindex, rfl⟩ := List.getElem_of_mem hoffer
    have hmem : (offers[index], index) ∈ offers.zipIdx :=
      List.mem_zipIdx_iff_getElem?.mpr (List.getElem?_eq_getElem hindex)
    have heach := Choices.exists_mapM_iff.mp ⟨proposals, hproposals,
      Choices.exists_mapM_iff.mp ⟨candidates, hcandidates, hmeets.1⟩⟩ _ hmem
    exact (exists_parse_proposalOf_iff hscope (by omega) (hids _ hoffer) (hlocal _ hoffer)).mp heach
  · rintro ⟨hall, hbound, hrest⟩
    obtain ⟨proposals, hproposals, hread⟩ := Choices.exists_mapM_iff.mpr fun entry hmem =>
      (exists_parse_proposalOf_iff hscope (lt_of_lt_of_le (hentry entry hmem).2 hbound)
        (hids _ (hentry entry hmem).1) (hlocal _ (hentry entry hmem).1)).mpr
          (hall _ (hentry entry hmem).1)
    obtain ⟨candidates, hcandidates, hmeet⟩ := Choices.exists_mapM_iff.mpr hread
    obtain ⟨hlength, hshared⟩ := shape_of_mapM hproposals hcandidates
    refine ⟨_, Option.map_eq_some_iff.mpr ⟨proposals, hproposals, rfl⟩, _,
      Option.map_eq_some_iff.mpr ⟨candidates, hcandidates, rfl⟩, ?_⟩
    refine (officialOfferExtractionEnvelopeSchema_iff_of_shared hchecksum extractorVersion_valid
      ⟨hsha256 _, hsha256 _⟩ rfl (by rw [← hlength]) hshared).mpr ?_
    dsimp only
    rw [hlength]
    exact ⟨hmeet, hbound, hrest⟩

namespace Example

/-- A catalogue of pages. -/
def catalog : TjekCatalog where
  id := js "c1"
  dealerId := js "80742m"
  catalogType := js "paged"
  types := none
  incitoPublicationId := none
  offerCount := 2

/-- The row of an offer with a price. -/
def row (id heading : String) (price : Json) : Json :=
  .object [(js "id", .string (js id)), (js "heading", .string (js heading)),
    (js "catalog_id", .string (js "c1")), (js "dealer_id", .string (js "80742m")),
    (js "run_from", .string (js "2026-01-05")), (js "run_till", .string (js "2026-01-11")),
    (js "pricing", .object [(js "price", price), (js "currency", .string (js "NOK"))])]

theorem price_canonical : 249 % 10 ≠ 0 := by decide

/-- The price of the first offer. -/
def price : Json := .number ⟨false, 249, -1, .inl price_canonical⟩

/-- A service with one page of two offers. -/
def service (second : Json) : Service where
  hasApiKey := false
  page _ := some (.array [row "o1" "Melk" price, row "o2" "Smør" second])
  incito := none
  offerOfView _ := none

/-- The dates of the rows. -/
def instantOf (text : JsString) : Option ℤ :=
  if text = js "2026-01-05" then some 1767571200000
  else if text = js "2026-01-11" then some 1768089600000
  else none

/-- A digest. -/
def digest (_ : JsString) : JsString := List.replicate 64 48

theorem sha256Schema_digest (text : JsString) : Sha256Schema (digest text) := by
  unfold digest
  decide

/-- What the extractor gets. -/
def extraction : Extraction where
  captureChecksumSha256 := List.replicate 64 48
  declaredGeographicScope := .national (js "NO")
  startedAt := 1767571200000
  completedAt := 1767571201000

/-- The offers that the client returns. -/
def returned (second : Json) (h : (getOffersFromCatalog catalog (service second)).isSome) :
    List TjekOffer :=
  (getOffersFromCatalog catalog (service second)).get h

theorem isSome_priced : (getOffersFromCatalog catalog (service price)).isSome = true := by
  decide +kernel

theorem isSome_unpriced : (getOffersFromCatalog catalog (service .null)).isSome = true := by
  decide +kernel

end Example

open Example in
/-- The envelope of two offers with a price is accepted. -/
theorem accepted_extract_iff_priced :
    ∃ proposed, extract instantOf digest extraction (returned price isSome_priced) = some proposed ∧
      proposed.Accepted :=
  (accepted_extract_iff instantOf digest sha256Schema_digest catalog (service price)
    (returned price isSome_priced) (Option.some_get _).symm extraction (by decide)
    (by decide)).mpr (by decide +kernel)

open Example in
/-- **An offer without a price discards the envelope**: its amount is `null`, which the schema of
candidates refuses. -/
theorem not_accepted_extract_without_price :
    ¬ ∀ (catalog : TjekCatalog) (service : Service) (offers : List TjekOffer),
        getOffersFromCatalog catalog service = some offers →
          ∃ proposed, extract instantOf digest extraction offers = some proposed ∧
            proposed.Accepted := by
  intro hall
  obtain ⟨proposed, hproposed, envelope, henvelope, -⟩ :=
    hall catalog (service .null) (returned .null isSome_unpriced) (Option.some_get _).symm
  have hnone : ((extract instantOf digest extraction (returned .null isSome_unpriced)).bind
      ProposedEnvelope.parse).isNone = true := by
    decide +kernel
  rw [hproposed, Option.bind_some, henvelope] at hnone
  cases hnone

end Handleplan.Tjek
