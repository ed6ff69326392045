import Handleplan.Domain.Geography
import Handleplan.Lib.JsMap
import Handleplan.Lib.Sorting

/-!
# Official offers

An official offer prices an exact product at one chain for a while, under conditions, inside a
geographic scope. Whether it applies is decided from the evaluation context alone.

## Main definitions

* `OfficialOffer`, `OfficialOfferSchema` — the record and its schema.
* `parseApplicableOfficialOffer` — whether an offer applies, or why not.
* `selectOfficialOffersAtHighestGeographicSpecificity` — the shadowing of broad editions
  by narrow ones.

## Main results

* `parseApplicableOfficialOffer_eq_ok_iff` — an offer applies when each of the
  conditions of `Applicable` holds.
* `mem_selectOfficialOffers` — an offer is selected when no other one of its product and
  chain is more specific.
-/

namespace Handleplan

open JsString Sorting

/-! ### The record -/

/-- `EvidenceLevel`. -/
inductive EvidenceLevel where
  | authoritative | reviewed | observed | ambiguous
  deriving DecidableEq

/-- `EvidenceProductMatch`. -/
inductive EvidenceProductMatch where
  | exact (canonicalProductId : JsString)
  | ambiguous (candidateProductIds : List JsString)
  deriving DecidableEq

/-- `OfferCondition`. -/
inductive OfferCondition where
  | everyone
  | member (programId : JsString)
  | minimumQuantity (quantity : ℕ)
  deriving DecidableEq

/-- The pricing of an offer. -/
inductive OfferPricing where
  | unit (unitPriceOre : ℕ)
  | multibuy (quantity totalOre : ℕ)
  deriving DecidableEq

/-- A sales channel. -/
inductive Channel where
  | inStore | online
  deriving DecidableEq

/-- `OfferApplicability`. -/
structure OfferApplicability where
  startsAt : ℤ
  endsAt : ℤ
  geographicScope : GeographicScope
  channels : List Channel
  deriving DecidableEq

/-- `OfficialOffer`. -/
structure OfficialOffer where
  id : JsString
  sourceId : JsString
  sourceRecordId : JsString
  chainId : JsString
  productMatch : EvidenceProductMatch
  pricing : OfferPricing
  beforePriceOre : Option ℕ
  conditions : List OfferCondition
  applicability : OfferApplicability
  evidenceLevel : EvidenceLevel
  capturedAt : ℤ
  deriving DecidableEq

/-! ### Schemas -/

/-- `evidenceProductMatchSchema`. -/
def EvidenceProductMatchSchema : EvidenceProductMatch → Prop
  | .exact canonicalProductId => IdentifierSchema canonicalProductId
  | .ambiguous candidateProductIds =>
    2 ≤ candidateProductIds.length ∧ (∀ id ∈ candidateProductIds, IdentifierSchema id) ∧
      candidateProductIds.Nodup

instance : DecidablePred EvidenceProductMatchSchema := fun productMatch => by
  cases productMatch <;> unfold EvidenceProductMatchSchema <;> infer_instance

/-- `membershipProgramIdSchema`. -/
def MembershipProgramIdSchema (host : Host) (s : JsString) : Prop :=
  (1 ≤ s.length ∧ s.length ≤ 200) ∧ (s = trim s ∧ s = host.normalizeNFC s) ∧
    host.hasControlOrFormat s = false

instance (host : Host) : DecidablePred (MembershipProgramIdSchema host) :=
  fun _ => inferInstanceAs (Decidable (_ ∧ _ ∧ _))

/-- `offerConditionSchema`. -/
def OfferConditionSchema (host : Host) : OfferCondition → Prop
  | .everyone => True
  | .member programId => MembershipProgramIdSchema host programId
  | .minimumQuantity quantity => PositiveSafeInteger quantity

instance (host : Host) : DecidablePred (OfferConditionSchema host) := fun condition => by
  cases condition <;> unfold OfferConditionSchema <;> infer_instance

/-- `offerPricingSchema`. -/
def OfferPricingSchema : OfferPricing → Prop
  | .unit unitPriceOre => MoneyOreSchema unitPriceOre
  | .multibuy quantity totalOre =>
    PositiveSafeInteger quantity ∧ 2 ≤ quantity ∧ MoneyOreSchema totalOre

instance : DecidablePred OfferPricingSchema := fun pricing => by
  cases pricing <;> unfold OfferPricingSchema <;> infer_instance

/-- `offerApplicabilitySchema`. -/
@[mk_iff] structure OfferApplicabilitySchema (a : OfferApplicability) : Prop where
  startsAt : CanonicalTimestamp a.startsAt
  endsAt : CanonicalTimestamp a.endsAt
  geographicScope : GeographicScopeSchema a.geographicScope
  channels : a.channels ≠ []
  valid : a.startsAt < a.endsAt
  unique : a.channels.Nodup

instance : DecidablePred OfferApplicabilitySchema :=
  fun _ => decidable_of_iff' _ (offerApplicabilitySchema_iff _)

/-- The key by which the conditions of an offer are unique. -/
def OfferCondition.key : OfferCondition → JsString
  | .everyone => js "public"
  | .member programId => js "member:" ++ programId
  | .minimumQuantity _ => js "minimum-quantity"

/-- Whether a condition is of the kind `public`. -/
def OfferCondition.isPublic : OfferCondition → Bool
  | .everyone => true
  | _ => false

/-- Whether a condition is of the kind `member`. -/
def OfferCondition.isMember : OfferCondition → Bool
  | .member _ => true
  | _ => false

/-- The check of the before price against the offer price. -/
def BeforePriceConsistent (pricing : OfferPricing) (beforePriceOre : ℕ) : Prop :=
  match pricing with
  | .unit unitPriceOre => unitPriceOre ≤ beforePriceOre
  | .multibuy quantity totalOre =>
    beforePriceOre * quantity ≤ maxSafeInteger ∧ totalOre ≤ beforePriceOre * quantity

instance (pricing : OfferPricing) : DecidablePred (BeforePriceConsistent pricing) := fun _ => by
  cases pricing <;> unfold BeforePriceConsistent <;> infer_instance

/-- `officialOfferSchema`. -/
@[mk_iff] structure OfficialOfferSchema (host : Host) (offer : OfficialOffer) : Prop where
  id : IdentifierSchema offer.id
  sourceId : IdentifierSchema offer.sourceId
  sourceRecordId : IdentifierSchema offer.sourceRecordId
  chainId : IdentifierSchema offer.chainId
  productMatch : EvidenceProductMatchSchema offer.productMatch
  pricing : OfferPricingSchema offer.pricing
  beforePriceOre : ∀ price ∈ offer.beforePriceOre, MoneyOreSchema price
  conditions : ∀ condition ∈ offer.conditions, OfferConditionSchema host condition
  applicability : OfferApplicabilitySchema offer.applicability
  capturedAt : CanonicalTimestamp offer.capturedAt
  unique : (offer.conditions.map OfferCondition.key).Nodup
  declared : offer.conditions.any OfferCondition.isPublic = true ∨
    offer.conditions.any OfferCondition.isMember = true
  exclusive : ¬ (offer.conditions.any OfferCondition.isPublic = true ∧
    offer.conditions.any OfferCondition.isMember = true)
  consistent : ∀ price ∈ offer.beforePriceOre, BeforePriceConsistent offer.pricing price

instance (host : Host) : DecidablePred (OfficialOfferSchema host) :=
  fun _ => decidable_of_iff' _ (officialOfferSchema_iff _ _)

/-- The product an exact offer is about. -/
def OfficialOffer.exactProductId (offer : OfficialOffer) : Option JsString :=
  match offer.productMatch with
  | .exact canonicalProductId => some canonicalProductId
  | .ambiguous _ => none

/-! ### Applicability -/

/-- `OfficialOfferEvaluationContext`. -/
structure OfficialOfferEvaluationContext where
  now : ℤ
  maxEvidenceAgeMs : ℕ
  location : GeographicContext
  channel : Channel
  enabledSourceIds : List JsString
  enabledMembershipProgramIds : List JsString
  geographicDirectory : Option GeographicDirectoryEvidence

/-- `reason` of an offer that does not apply. -/
inductive InapplicableReason where
  | invalid | sourceDisabled | ambiguous | future | stale | notYetActive | expired | unknownScope
  | ambiguousScope | wrongScope | wrongChannel | membershipDisabled

/-- The programs whose members an offer is for. -/
def requiredMemberships (offer : OfficialOffer) : List JsString :=
  offer.conditions.filterMap fun
    | .member programId => some programId
    | _ => none

variable (host : Host)

/-- `parseApplicableOfficialOffer`: the offer when it applies, or the reason why it does not. -/
def parseApplicableOfficialOffer (offer : OfficialOffer)
    (context : OfficialOfferEvaluationContext) : Except InapplicableReason OfficialOffer :=
  if ¬ OfficialOfferSchema host offer ∨ ¬ GeographicContextSchema context.location ∨
      maxSafeInteger < context.maxEvidenceAgeMs then
    .error .invalid
  else if offer.sourceId ∉ context.enabledSourceIds then .error .sourceDisabled
  else if offer.exactProductId = none ∨ offer.evidenceLevel = .ambiguous then .error .ambiguous
  else if context.now < offer.capturedAt then .error .future
  else if (context.maxEvidenceAgeMs : ℤ) < context.now - offer.capturedAt then .error .stale
  else if context.now < offer.applicability.startsAt then .error .notYetActive
  else if offer.applicability.endsAt ≤ context.now then .error .expired
  else
    match resolveGeographicApplicability offer.applicability.geographicScope context.location
      context.geographicDirectory with
    | .unknown _ => .error .unknownScope
    | .ambiguous _ => .error .ambiguousScope
    | .notApplicable => .error .wrongScope
    | .applicable _ =>
      if context.channel ∉ offer.applicability.channels then .error .wrongChannel
      else if ∃ programId ∈ requiredMemberships offer,
          programId ∉ context.enabledMembershipProgramIds then
        .error .membershipDisabled
      else .ok offer

variable {host}

/-- The conditions under which an offer applies. -/
@[mk_iff] structure Applicable (host : Host) (offer : OfficialOffer)
    (context : OfficialOfferEvaluationContext) : Prop where
  schema : OfficialOfferSchema host offer
  location : GeographicContextSchema context.location
  maxEvidenceAgeMs : context.maxEvidenceAgeMs ≤ maxSafeInteger
  enabled : offer.sourceId ∈ context.enabledSourceIds
  exact : offer.exactProductId ≠ none
  unambiguous : offer.evidenceLevel ≠ .ambiguous
  captured : offer.capturedAt ≤ context.now
  fresh : context.now - offer.capturedAt ≤ (context.maxEvidenceAgeMs : ℤ)
  started : offer.applicability.startsAt ≤ context.now
  running : context.now < offer.applicability.endsAt
  scope : geographicScopeSpecificity offer.applicability.geographicScope context.location
    context.geographicDirectory ≠ none
  channel : context.channel ∈ offer.applicability.channels
  memberships : ∀ programId ∈ requiredMemberships offer,
    programId ∈ context.enabledMembershipProgramIds

/-- An offer is parsed as applicable exactly when every condition holds, and then unchanged. -/
theorem parseApplicableOfficialOffer_eq_ok_iff {offer parsed : OfficialOffer}
    {context : OfficialOfferEvaluationContext} :
    parseApplicableOfficialOffer host offer context = .ok parsed ↔
      Applicable host offer context ∧ parsed = offer := by
  rw [applicable_iff]
  unfold parseApplicableOfficialOffer geographicScopeSpecificity
  simp only [ite_error_eq_ok_iff, not_or, not_not, not_lt, not_le, and_assoc]
  rcases resolveGeographicApplicability offer.applicability.geographicScope context.location
      context.geographicDirectory with s | _ | r | r
  · simp only [ite_error_eq_ok_iff, Except.ok.injEq, not_exists, not_and, not_not, ne_eq,
      reduceCtorEq, not_false_eq_true, true_and, eq_comm (a := offer)]
  all_goals simp

theorem toBool_parseApplicableOfficialOffer {offer : OfficialOffer}
    {context : OfficialOfferEvaluationContext} :
    (parseApplicableOfficialOffer host offer context).toBool = true ↔
      Applicable host offer context := by
  cases hparse : parseApplicableOfficialOffer host offer context with
  | error reason =>
    simp only [Except.toBool, Bool.false_eq_true, false_iff]
    intro happlies
    rw [parseApplicableOfficialOffer_eq_ok_iff.mpr ⟨happlies, rfl⟩] at hparse
    cases hparse
  | ok parsed =>
    simpa only [Except.toBool, true_iff] using
      (parseApplicableOfficialOffer_eq_ok_iff.mp hparse).1

/-! ### Geographic precedence -/

variable (host)

/-- The group key of an exact offer. -/
def productChainKey (canonicalProductId chain : JsString) : JsString :=
  canonicalProductId ++ 0 :: chain

/-- The step of `selectOfficialOffersAtHighestGeographicSpecificity` for one offer. -/
def addAtHighestSpecificity (location : GeographicContext)
    (geographicDirectory : Option GeographicDirectoryEvidence)
    (groups : JsMap JsString (List OfficialOffer × ℕ)) (offer : OfficialOffer) :
    JsMap JsString (List OfficialOffer × ℕ) :=
  if ¬ OfficialOfferSchema host offer then groups
  else
    match offer.exactProductId, geographicScopeSpecificity offer.applicability.geographicScope
      location geographicDirectory with
    | some canonicalProductId, some specificity =>
      let key := productChainKey canonicalProductId offer.chainId
      match groups.get? key with
      | none => groups.set key ([offer], specificity)
      | some (offers, current) =>
        if current < specificity then groups.set key ([offer], specificity)
        else if specificity = current then groups.set key (offers ++ [offer], current)
        else groups
    | _, _ => groups

/-- `selectOfficialOffersAtHighestGeographicSpecificity`. -/
def selectOfficialOffersAtHighestGeographicSpecificity (input : List OfficialOffer)
    (location : GeographicContext) (geographicDirectory : Option GeographicDirectoryEvidence) :
    List OfficialOffer :=
  if ¬ GeographicContextSchema location then []
  else
    let groups := input.foldl (addAtHighestSpecificity host location geographicDirectory) []
    (sortBy (on Prod.fst compareText) groups).flatMap fun group =>
      sortBy (on (·.id) compareText) group.2.1

/-- The group an offer is of, with its specificity: only of a valid exact offer whose scope
applies. -/
def offerGroup (location : GeographicContext)
    (geographicDirectory : Option GeographicDirectoryEvidence) (offer : OfficialOffer) :
    Option (JsString × ℕ) :=
  if ¬ OfficialOfferSchema host offer then none
  else
    match offer.exactProductId, geographicScopeSpecificity offer.applicability.geographicScope
      location geographicDirectory with
    | some canonicalProductId, some specificity =>
      some (productChainKey canonicalProductId offer.chainId, specificity)
    | _, _ => none

variable {host} {location : GeographicContext}
  {geographicDirectory : Option GeographicDirectoryEvidence}

theorem offerGroup_eq_some_iff {offer : OfficialOffer} {key : JsString} {specificity : ℕ} :
    offerGroup host location geographicDirectory offer = some (key, specificity) ↔
      OfficialOfferSchema host offer ∧
        (∃ canonicalProductId, offer.exactProductId = some canonicalProductId ∧
          productChainKey canonicalProductId offer.chainId = key) ∧
        geographicScopeSpecificity offer.applicability.geographicScope location
          geographicDirectory = some specificity := by
  unfold offerGroup
  split_ifs with hschema
  · cases offer.exactProductId <;>
      cases geographicScopeSpecificity offer.applicability.geographicScope location
        geographicDirectory <;>
      simp [hschema]
  · simp [hschema]

/-- One offer is added to the values of its group. -/
theorem addAtHighestSpecificity_eq (groups : JsMap JsString (List OfficialOffer × ℕ))
    (offer : OfficialOffer) :
    addAtHighestSpecificity host location geographicDirectory groups offer =
      match offerGroup host location geographicDirectory offer with
      | none => groups
      | some (key, specificity) => groups.addHighest key specificity offer := by
  unfold addAtHighestSpecificity offerGroup
  split_ifs with hschema
  · cases offer.exactProductId with
    | none => rfl
    | some canonicalProductId =>
      cases geographicScopeSpecificity offer.applicability.geographicScope location
          geographicDirectory with
      | none => rfl
      | some specificity =>
        dsimp only
        unfold JsMap.addHighest
        cases groups.get? (productChainKey canonicalProductId offer.chainId) <;> rfl
  · rfl

/-- **The selected offers** are those of the input with a group, of which no other offer of the
group is more specific. -/
theorem mem_selectOfficialOffers {input : List OfficialOffer}
    (hlocation : GeographicContextSchema location) {offer : OfficialOffer} :
    offer ∈ selectOfficialOffersAtHighestGeographicSpecificity host input location
        geographicDirectory ↔
      offer ∈ input ∧ ∃ key specificity,
        offerGroup host location geographicDirectory offer = some (key, specificity) ∧
        ∀ other ∈ input, ∀ s, offerGroup host location geographicDirectory other = some (key, s) →
          s ≤ specificity := by
  have hgroups : input.foldl (addAtHighestSpecificity host location geographicDirectory) [] =
      JsMap.ofHighest (offerGroup host location geographicDirectory) input := by
    unfold JsMap.ofHighest
    congr 1
    funext groups offer
    rw [addAtHighestSpecificity_eq]
    cases offerGroup host location geographicDirectory offer <;> rfl
  simp only [selectOfficialOffersAtHighestGeographicSpecificity, not_not.mpr hlocation,
    if_false, hgroups, List.mem_flatMap, mem_sortBy]
  constructor
  · rintro ⟨⟨key, offers, highest⟩, hgroup, hoffer⟩
    have hheld := JsMap.holdsHighest_get? (offerGroup host location geographicDirectory) input key
    rw [(JsMap.mem_iff_get? (JsMap.nodup_keys_ofHighest _ _) key _).mp hgroup] at hheld
    obtain ⟨-, hle, hin⟩ := hheld
    obtain ⟨hmem, hrank⟩ := (hin offer).mp hoffer
    exact ⟨hmem, key, highest, hrank, hle⟩
  · rintro ⟨hmem, key, specificity, hrank, hle⟩
    have hheld := JsMap.holdsHighest_get? (offerGroup host location geographicDirectory) input key
    cases hget : (JsMap.ofHighest (offerGroup host location geographicDirectory) input).get? key with
    | none =>
      rw [hget] at hheld
      exact absurd hrank (hheld offer hmem specificity)
    | some held =>
      obtain ⟨offers, highest⟩ := held
      rw [hget] at hheld
      obtain ⟨⟨first, hfirst, hfirstRank⟩, hhighest, hin⟩ := hheld
      have heq : highest = specificity :=
        Nat.le_antisymm (hle first hfirst highest hfirstRank) (hhighest offer hmem _ hrank)
      subst heq
      exact ⟨(key, offers, highest),
        (JsMap.mem_iff_get? (JsMap.nodup_keys_ofHighest _ _) key _).mpr hget,
        (hin offer).mpr ⟨hmem, hrank⟩⟩

end Handleplan
