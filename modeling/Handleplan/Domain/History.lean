import Handleplan.Domain.Coverage

/-!
# Historical comparisons

A current price below the median of the prices of the same product, chain, source and scope in the
thirty days before it.

## Main definitions

* `HistoricalComparison`, `HistoricalComparisonSchema` — the record and its schema.
* `geographicScopeFingerprint` — the text by which two scopes are compared.
* `deriveHistoricalComparison` — the comparison of a current price with its baseline.

## Implementation notes

The text order of canonical timestamps is that of their instants, whatever the locale, so only the
comparison of identifiers in `compareEvidenceOrder` depends on the runtime.
-/

namespace Handleplan

open JsString Sorting

/-- `THIRTY_DAYS_MS`. -/
def thirtyDaysMs : ℤ := 30 * 24 * 60 * 60 * 1000

/-- `MAX_CURRENT_EVIDENCE_AGE_MS`: 72 hours. -/
def maxCurrentEvidenceAgeMs : ℤ := 72 * 60 * 60 * 1000

/-- The UTC calendar day of an instant, the first ten characters of its timestamp. -/
def utcObservationDay (t : ℤ) : ℤ := t / (24 * 60 * 60 * 1000)

/-- `calculateBasisPoints`. -/
def calculateBasisPoints (savingsOre baselineOre : ℕ) : ℕ := savingsOre * 10000 / baselineOre

/-- `medianOre`: the middle amount, or the floor of the mean of the two middle amounts. -/
def medianOre (amounts : List ℕ) : Option ℕ :=
  let sorted := amounts.insertionSort (· ≤ ·)
  let upperIndex := sorted.length / 2
  if sorted.length % 2 = 1 then sorted[upperIndex]?
  else
    match sorted[upperIndex - 1]?, sorted[upperIndex]? with
    | some lower, some upper => some ((lower + upper) / 2)
    | _, _ => none

/-! ### Records -/

/-- `HistoricalComparison`; its baseline method is `median-30d`. -/
structure HistoricalComparison where
  id : JsString
  canonicalProductId : JsString
  chainId : JsString
  currentEvidenceId : JsString
  baselineOre : ℕ
  currentOre : ℕ
  savingsOre : ℕ
  savingsBasisPoints : ℕ
  distinctObservationDays : ℕ
  windowStartsAt : ℤ
  windowEndsAt : ℤ
  derivedAt : ℤ
  sourceEvidenceIds : List JsString
  deriving DecidableEq

/-- `historicalComparisonSchema`. -/
@[mk_iff] structure HistoricalComparisonSchema (c : HistoricalComparison) : Prop where
  id : IdentifierSchema c.id
  canonicalProductId : IdentifierSchema c.canonicalProductId
  chainId : IdentifierSchema c.chainId
  currentEvidenceId : IdentifierSchema c.currentEvidenceId
  baselineOre : PositiveSafeInteger c.baselineOre
  currentOre : MoneyOreSchema c.currentOre
  savingsOre : MoneyOreSchema c.savingsOre
  savingsBasisPoints : c.savingsBasisPoints ≤ 10000
  distinctObservationDays : 7 ≤ c.distinctObservationDays ∧ c.distinctObservationDays ≤ 31
  windowStartsAt : CanonicalTimestamp c.windowStartsAt
  windowEndsAt : CanonicalTimestamp c.windowEndsAt
  derivedAt : CanonicalTimestamp c.derivedAt
  sourceEvidenceIds : 7 ≤ c.sourceEvidenceIds.length ∧
    ∀ id ∈ c.sourceEvidenceIds, IdentifierSchema id
  window : c.windowEndsAt - c.windowStartsAt = thirtyDaysMs
  closed : c.windowEndsAt ≤ c.derivedAt
  current : c.derivedAt - c.windowEndsAt ≤ maxCurrentEvidenceAgeMs
  cheaper : c.currentOre < c.baselineOre
  savings : c.savingsOre = c.baselineOre - c.currentOre
  basisPoints : c.savingsBasisPoints =
    calculateBasisPoints (c.baselineOre - c.currentOre) c.baselineOre
  unique : c.sourceEvidenceIds.Nodup
  supported : c.distinctObservationDays ≤ c.sourceEvidenceIds.length
  separate : c.currentEvidenceId ∉ c.sourceEvidenceIds

instance : DecidablePred HistoricalComparisonSchema :=
  fun _ => decidable_of_iff' _ (historicalComparisonSchema_iff _)

/-- `geographicScopeFingerprint`. -/
def geographicScopeFingerprint : GeographicScope → JsString
  | .national countryCode => js "national:" ++ countryCode
  | .regions countryCode regionCodes =>
    js "regions:" ++ countryCode ++ js ":" ++ joinWith (js ",") (sortBy compareText regionCodes)
  | .postalSet countryCode postalCodes =>
    js "postal-set:" ++ countryCode ++ js ":" ++
      joinWith (js ",") (sortBy compareText postalCodes)
  | .stores storeIds => js "stores:" ++ joinWith (js ",") (sortBy compareText storeIds)
  | .unknown reason => js "unknown:" ++ reason

/-! ### Derivation -/

/-- `eligibility` of a derivation. -/
structure HistoricalEligibility where
  currentMaxAgeMs : ℕ
  enabledSourceIds : List JsString
  location : GeographicContext
  geographicDirectory : Option GeographicDirectoryEvidence

/-- The context of a price judged at a clock with a greatest age. -/
def HistoricalEligibility.context (eligibility : HistoricalEligibility) (now : ℤ)
    (maxAgeMs : ℕ) : PriceEvidenceEligibilityContext where
  now := now
  maxAgeMs := maxAgeMs
  location := eligibility.location
  enabledSourceIds := eligibility.enabledSourceIds
  geographicDirectory := eligibility.geographicDirectory

/-- Whether a price belongs to the baseline of a current price of a product. -/
def IsBaseline (current : PriceEvidence) (canonicalProductId : JsString)
    (eligibility : HistoricalEligibility) (evidence : PriceEvidence) : Prop :=
  evidence.id ≠ current.id ∧ evidence.productMatch = .exact canonicalProductId ∧
    evidence.chainId = current.chainId ∧ evidence.sourceId = current.sourceId ∧
    geographicScopeFingerprint evidence.geographicScope =
      geographicScopeFingerprint current.geographicScope ∧
    evidence.priceKind = .ordinary ∧ evidence.evidenceLevel ≠ .ambiguous ∧
    isEligible evidence (eligibility.context evidence.observedAt 0) = true ∧
    current.observedAt - thirtyDaysMs ≤ evidence.observedAt ∧
    evidence.observedAt < current.observedAt

instance (current : PriceEvidence) (canonicalProductId : JsString)
    (eligibility : HistoricalEligibility) :
    DecidablePred (IsBaseline current canonicalProductId eligibility) :=
  fun _ => inferInstanceAs (Decidable (_ ∧ _ ∧ _ ∧ _ ∧ _ ∧ _ ∧ _ ∧ _ ∧ _ ∧ _))

variable (host : Host)

/-- `compareEvidenceOrder`. -/
def compareEvidenceOrder : PriceEvidence → PriceEvidence → Ordering :=
  compareLex (compareOn (·.observedAt)) (on (·.id) host.localeCompare)

/-- The comparison of a current price with a baseline. -/
def comparisonWithBaseline (comparisonId : JsString) (current : PriceEvidence)
    (canonicalProductId : JsString) (baselineEvidence : List PriceEvidence) (derivedAt : ℤ) :
    Option HistoricalComparison :=
  let distinctObservationDays :=
    (baselineEvidence.map fun e => utcObservationDay e.observedAt).dedup.length
  if distinctObservationDays < 7 then none
  else
    let baselineOre := (medianOre (baselineEvidence.map (·.amountOre))).getD 0
    if baselineOre = 0 ∨ baselineOre ≤ current.amountOre then none
    else
      let comparison : HistoricalComparison :=
        { id := comparisonId
          canonicalProductId := canonicalProductId
          chainId := current.chainId
          currentEvidenceId := current.id
          baselineOre := baselineOre
          currentOre := current.amountOre
          savingsOre := baselineOre - current.amountOre
          savingsBasisPoints := calculateBasisPoints (baselineOre - current.amountOre) baselineOre
          distinctObservationDays := distinctObservationDays
          windowStartsAt := current.observedAt - thirtyDaysMs
          windowEndsAt := current.observedAt
          derivedAt := derivedAt
          sourceEvidenceIds := baselineEvidence.map (·.id) }
      if HistoricalComparisonSchema comparison then some comparison else none

/-- `deriveHistoricalComparison`. -/
def deriveHistoricalComparison (comparisonId : JsString) (current : PriceEvidence)
    (historicalEvidence : List PriceEvidence) (derivedAt : ℤ)
    (eligibility : HistoricalEligibility) : Option HistoricalComparison :=
  if ¬ IdentifierSchema comparisonId ∨ ¬ PriceEvidenceSchema current ∨
      maxCurrentEvidenceAgeMs < eligibility.currentMaxAgeMs then
    none
  else if isEligible current (eligibility.context derivedAt eligibility.currentMaxAgeMs) = false
  then none
  else if current.priceKind ≠ .ordinary ∨ current.evidenceLevel = .ambiguous then none
  else if derivedAt < current.observedAt then none
  else
    match current.productMatch.exactProductId,
      dedupeStrictById (·.id)
        (current :: historicalEvidence.filter fun e => PriceEvidenceSchema e) with
    | some canonicalProductId, some uniqueEvidence =>
      comparisonWithBaseline comparisonId current canonicalProductId
        (sortBy (compareEvidenceOrder host)
          (uniqueEvidence.filter fun e => IsBaseline current canonicalProductId eligibility e))
        derivedAt
    | _, _ => none

/-- `historicalComparisonMatchesEvidence`: the comparison is derived again from its evidence. -/
def HistoricalComparisonMatchesEvidence (comparison : HistoricalComparison)
    (current : PriceEvidence) (historicalEvidence : List PriceEvidence) (derivedAt : ℤ)
    (eligibility : HistoricalEligibility) : Prop :=
  HistoricalComparisonSchema comparison ∧
    deriveHistoricalComparison host comparison.id current historicalEvidence derivedAt
      eligibility = some comparison

end Handleplan
