import Handleplan.Domain.Offers

/-!
# Price evidence

A price with its source, its age and the scope it was observed in, and whether it may be used at a
clock, in a market, from the sources that are enabled.

## Main definitions

* `PriceEvidence`, `PriceEvidenceSchema` — the record and its schema.
* `parseEligiblePriceEvidence` — whether a price is eligible, or why not.
-/

namespace Handleplan

open JsString

/-! ### The record -/

/-- `priceKind`. -/
inductive PriceKind where
  | ordinary | checkout
  deriving DecidableEq

/-- `PriceEvidence`. -/
structure PriceEvidence where
  id : JsString
  sourceId : JsString
  sourceRecordId : JsString
  chainId : JsString
  productMatch : EvidenceProductMatch
  amountOre : ℕ
  priceKind : PriceKind
  evidenceLevel : EvidenceLevel
  observedAt : ℤ
  validFrom : Option ℤ
  validUntil : Option ℤ
  geographicScope : GeographicScope
  deriving DecidableEq

/-- `priceEvidenceSchema`. -/
@[mk_iff] structure PriceEvidenceSchema (evidence : PriceEvidence) : Prop where
  id : IdentifierSchema evidence.id
  sourceId : IdentifierSchema evidence.sourceId
  sourceRecordId : IdentifierSchema evidence.sourceRecordId
  chainId : IdentifierSchema evidence.chainId
  productMatch : EvidenceProductMatchSchema evidence.productMatch
  amountOre : MoneyOreSchema evidence.amountOre
  observedAt : CanonicalTimestamp evidence.observedAt
  validFrom : ∀ t ∈ evidence.validFrom, CanonicalTimestamp t
  validUntil : ∀ t ∈ evidence.validUntil, CanonicalTimestamp t
  geographicScope : GeographicScopeSchema evidence.geographicScope
  valid : ∀ start ∈ evidence.validFrom, ∀ stop ∈ evidence.validUntil, start < stop

instance : DecidablePred PriceEvidenceSchema :=
  fun _ => decidable_of_iff' _ (priceEvidenceSchema_iff _)

/-- The product of an exact match. -/
def EvidenceProductMatch.exactProductId : EvidenceProductMatch → Option JsString
  | .exact canonicalProductId => some canonicalProductId
  | .ambiguous _ => none

/-! ### Eligibility -/

/-- `PriceEvidenceEligibilityContext`. -/
structure PriceEvidenceEligibilityContext where
  now : ℤ
  maxAgeMs : ℕ
  location : GeographicContext
  enabledSourceIds : List JsString
  geographicDirectory : Option GeographicDirectoryEvidence

/-- `reason` of a price that is not eligible. -/
inductive IneligiblePriceReason where
  | invalid | sourceDisabled | ambiguous | future | stale | notYetValid | expired | unknownScope
  | ambiguousScope | wrongScope

/-- `parseEligiblePriceEvidence`: the price when it is eligible, or the reason why it is not. -/
def parseEligiblePriceEvidence (evidence : PriceEvidence)
    (context : PriceEvidenceEligibilityContext) : Except IneligiblePriceReason PriceEvidence :=
  if ¬ PriceEvidenceSchema evidence ∨ ¬ GeographicContextSchema context.location ∨
      maxSafeInteger < context.maxAgeMs then
    .error .invalid
  else if evidence.sourceId ∉ context.enabledSourceIds then .error .sourceDisabled
  else if evidence.productMatch.exactProductId = none ∨ evidence.evidenceLevel = .ambiguous then
    .error .ambiguous
  else if context.now < evidence.observedAt then .error .future
  else if (context.maxAgeMs : ℤ) < context.now - evidence.observedAt then .error .stale
  else if ∃ t ∈ evidence.validFrom, context.now < t then .error .notYetValid
  else if ∃ t ∈ evidence.validUntil, t < context.now then .error .expired
  else
    match resolveGeographicApplicability evidence.geographicScope context.location
      context.geographicDirectory with
    | .unknown _ => .error .unknownScope
    | .ambiguous _ => .error .ambiguousScope
    | .notApplicable => .error .wrongScope
    | .applicable _ => .ok evidence

end Handleplan
