import Handleplan.Domain.Primitives

/-!
# Geographic scopes and postal directories

The scope of a price or an offer, the location of a shopper, and the resolution of one against the
other with the help of a reviewed postal directory.

## Main definitions

* `GeographicScope`, `GeographicContext`, `GeographicDirectoryEvidence` — the data.
* `resolveGeographicApplicability` — whether a scope applies at a location, and how
  specifically.
* `MarketContextV1` — the market of a public request.
* `attestGeographicDirectoryRegionV1`,
  `geographicDirectoryEvidenceFromRegionAttestationV1` — the public projection of a
  directory to one region, and its way back.

## Main results

* `resolve_of_attestation` — judged by the attested region or by the directory it was
  taken from, a scope applies alike.
-/

namespace Handleplan

open JsString

/-- `GeographicScope`. -/
inductive GeographicScope where
  | national (countryCode : JsString)
  | regions (countryCode : JsString) (regionCodes : List JsString)
  | postalSet (countryCode : JsString) (postalCodes : List JsString)
  | stores (storeIds : List JsString)
  | unknown (reason : JsString)
  deriving DecidableEq

/-- `GeographicContext`. -/
structure GeographicContext where
  countryCode : JsString
  regionCode : Option JsString
  postalCode : Option JsString
  storeId : Option JsString

/-- `coverageState` of a directory region. -/
inductive CoverageState where
  | complete | ambiguous
  deriving DecidableEq

/-- `postalDirectoryRegionSchema`, the record. -/
structure PostalDirectoryRegion where
  coverageState : CoverageState
  evidenceReference : JsString
  postalCodes : List JsString
  regionCode : JsString
  deriving DecidableEq

/-- `GeographicPostalDirectory`. -/
structure GeographicPostalDirectory where
  countryCode : JsString
  directoryVersionId : JsString
  evidenceReference : JsString
  publishedAt : ℤ
  regions : List PostalDirectoryRegion
  reviewedAt : ℤ
  validFrom : ℤ
  validUntil : Option ℤ
  deriving DecidableEq

/-- `GeographicDirectoryEvidence`. -/
inductive GeographicDirectoryEvidence where
  | available (directory : GeographicPostalDirectory) (evaluatedAt : ℤ)
  | unknown (reason : JsString)
  | ambiguous (reason : JsString)
  deriving DecidableEq

/-! ### Schemas -/

/-- `countryCodeSchema`, the pattern `/^[A-Z]{2}$/`. -/
def CountryCodeSchema (s : JsString) : Prop := s.length = 2 ∧ ∀ u ∈ s, 65 ≤ u ∧ u ≤ 90

/-- `postalCodeSchema`, the pattern `/^[0-9]{4}$/u`. -/
def PostalCodeSchema (s : JsString) : Prop := s.length = 4 ∧ ∀ u ∈ s, isDigit u = true

/-- `hasCanonicalStringOrder`: strictly ascending. -/
def HasCanonicalStringOrder (values : List JsString) : Prop :=
  values.IsChain fun a b => compareText a b = .lt

instance : DecidablePred CountryCodeSchema := fun _ => inferInstanceAs (Decidable (_ ∧ _))

instance : DecidablePred PostalCodeSchema := fun _ => inferInstanceAs (Decidable (_ ∧ _))

instance : DecidablePred HasCanonicalStringOrder :=
  fun _ => inferInstanceAs (Decidable (List.IsChain _ _))

/-- Texts in canonical order ascend strictly. -/
theorem HasCanonicalStringOrder.pairwise {values : List JsString}
    (h : HasCanonicalStringOrder values) : values.Pairwise fun a b => compareText a b = .lt := by
  have : IsTrans JsString fun a b => compareText a b = .lt := ⟨fun _ _ _ => Std.TransCmp.lt_trans⟩
  exact List.isChain_iff_pairwise.mp h

/-- Texts in canonical order are distinct. -/
theorem HasCanonicalStringOrder.nodup {values : List JsString}
    (h : HasCanonicalStringOrder values) : values.Nodup :=
  h.pairwise.imp fun hlt heq => by
    rw [heq, compareText_eq_iff.mpr rfl] at hlt
    cases hlt

/-- `geographicScopeSchema`. -/
def GeographicScopeSchema : GeographicScope → Prop
  | .national countryCode => CountryCodeSchema countryCode
  | .regions countryCode regionCodes =>
    CountryCodeSchema countryCode ∧ (1 ≤ regionCodes.length ∧ regionCodes.length ≤ 100) ∧
      (∀ code ∈ regionCodes, IdentifierSchema code) ∧ regionCodes.Nodup
  | .postalSet countryCode postalCodes =>
    CountryCodeSchema countryCode ∧ (1 ≤ postalCodes.length ∧ postalCodes.length ≤ 10000) ∧
      (∀ code ∈ postalCodes, PostalCodeSchema code) ∧ postalCodes.Nodup ∧
      HasCanonicalStringOrder postalCodes
  | .stores storeIds =>
    (1 ≤ storeIds.length ∧ storeIds.length ≤ 1000) ∧ (∀ id ∈ storeIds, IdentifierSchema id) ∧
      storeIds.Nodup
  | .unknown reason => NonEmptyStringSchema reason

instance : DecidablePred GeographicScopeSchema := fun scope => by
  cases scope <;> unfold GeographicScopeSchema <;> infer_instance

/-- `geographicContextSchema`. -/
def GeographicContextSchema (location : GeographicContext) : Prop :=
  CountryCodeSchema location.countryCode ∧ (∀ code ∈ location.regionCode, IdentifierSchema code) ∧
    (∀ code ∈ location.postalCode, PostalCodeSchema code) ∧
    ∀ id ∈ location.storeId, IdentifierSchema id

instance : DecidablePred GeographicContextSchema :=
  fun _ => inferInstanceAs (Decidable (_ ∧ _ ∧ _ ∧ _))

/-- `postalDirectoryRegionSchema`. -/
@[mk_iff] structure PostalDirectoryRegionSchema (region : PostalDirectoryRegion) : Prop where
  evidenceReference : NonEmptyStringSchema region.evidenceReference
  length_postalCodes : region.postalCodes.length ≤ 10000
  postalCodes : ∀ code ∈ region.postalCodes, PostalCodeSchema code
  regionCode : IdentifierSchema region.regionCode
  unique : region.postalCodes.Nodup
  canonical : HasCanonicalStringOrder region.postalCodes
  complete : region.coverageState = .complete → region.postalCodes ≠ []

instance : DecidablePred PostalDirectoryRegionSchema :=
  fun _ => decidable_of_iff' _ (postalDirectoryRegionSchema_iff _)

/-- `geographicPostalDirectorySchema`. -/
@[mk_iff] structure GeographicPostalDirectorySchema (d : GeographicPostalDirectory) : Prop where
  countryCode : CountryCodeSchema d.countryCode
  directoryVersionId : IdentifierSchema d.directoryVersionId
  evidenceReference : NonEmptyStringSchema d.evidenceReference
  publishedAt : CanonicalTimestamp d.publishedAt
  length_regions : 1 ≤ d.regions.length ∧ d.regions.length ≤ 100
  regions : ∀ region ∈ d.regions, PostalDirectoryRegionSchema region
  reviewedAt : CanonicalTimestamp d.reviewedAt
  validFrom : CanonicalTimestamp d.validFrom
  validUntil : ∀ t ∈ d.validUntil, CanonicalTimestamp t
  unique : (d.regions.map (·.regionCode)).Nodup
  canonical : HasCanonicalStringOrder (d.regions.map (·.regionCode))
  valid : ∀ t ∈ d.validUntil, d.validFrom < t
  reviewed : d.reviewedAt ≤ d.publishedAt

instance : DecidablePred GeographicPostalDirectorySchema :=
  fun _ => decidable_of_iff' _ (geographicPostalDirectorySchema_iff _)

/-- `geographicDirectoryEvidenceSchema`. -/
def GeographicDirectoryEvidenceSchema : GeographicDirectoryEvidence → Prop
  | .available directory evaluatedAt =>
    GeographicPostalDirectorySchema directory ∧ CanonicalTimestamp evaluatedAt
  | .unknown reason => NonEmptyStringSchema reason
  | .ambiguous reason => NonEmptyStringSchema reason

instance : DecidablePred GeographicDirectoryEvidenceSchema := fun evidence => by
  cases evidence <;> unfold GeographicDirectoryEvidenceSchema <;> infer_instance

/-! ### Applicability -/

/-- `GeographicApplicability`. -/
inductive GeographicApplicability where
  | applicable (specificity : ℕ)
  | notApplicable
  | unknown (reason : JsString)
  | ambiguous (reason : JsString)

/-- The branch of `resolveGeographicApplicability` for a postal set and a location that names a
region only, once the directory is at hand. -/
def resolvePostalSetByDirectory (postalCodes : List JsString) (countryCode regionCode : JsString)
    (directory : GeographicPostalDirectory) (evaluatedAt : ℤ) : GeographicApplicability :=
  if ¬ GeographicPostalDirectorySchema directory then .unknown (js "invalid-postal-directory")
  else if directory.publishedAt > evaluatedAt ∨ directory.reviewedAt > evaluatedAt ∨
      directory.validFrom > evaluatedAt then
    .unknown (js "postal-directory-not-current")
  else if ∃ t ∈ directory.validUntil, t ≤ evaluatedAt then
    .unknown (js "postal-directory-not-current")
  else if directory.countryCode ≠ countryCode then .notApplicable
  else
    match directory.regions.find? (·.regionCode = regionCode) with
    | none => .unknown (js "postal-directory-region-unavailable")
    | some region =>
      if region.coverageState = .ambiguous then
        .ambiguous (js "postal-directory-region-ambiguous")
      else
        let overlapCount := region.postalCodes.countP (· ∈ postalCodes)
        if overlapCount = region.postalCodes.length then .applicable 2
        else if overlapCount = 0 then .notApplicable
        else .ambiguous (js "partial-postal-region-overlap")

/-- `resolveGeographicApplicability`. -/
def resolveGeographicApplicability (scope : GeographicScope) (location : GeographicContext)
    (directoryEvidence : Option GeographicDirectoryEvidence) : GeographicApplicability :=
  match scope with
  | .national countryCode =>
    if countryCode = location.countryCode then .applicable 0 else .notApplicable
  | .regions countryCode regionCodes =>
    if countryCode = location.countryCode ∧ ∃ code ∈ location.regionCode, code ∈ regionCodes then
      .applicable 1
    else .notApplicable
  | .postalSet countryCode postalCodes =>
    if countryCode ≠ location.countryCode then .notApplicable
    else
      match location.postalCode, location.regionCode, directoryEvidence with
      | some postalCode, _, _ =>
        if postalCode ∈ postalCodes then .applicable 2 else .notApplicable
      | none, none, _ => .unknown (js "postal-location-unavailable")
      | none, some _, none => .unknown (js "postal-directory-unavailable")
      | none, some _, some (.unknown reason) => .unknown reason
      | none, some _, some (.ambiguous reason) => .ambiguous reason
      | none, some regionCode, some (.available directory evaluatedAt) =>
        resolvePostalSetByDirectory postalCodes location.countryCode regionCode directory
          evaluatedAt
  | .stores storeIds =>
    if ∃ id ∈ location.storeId, id ∈ storeIds then .applicable 3 else .notApplicable
  | .unknown reason => .unknown reason

/-- `geographicScopeSpecificity`: the specificity of an applicable scope. -/
def geographicScopeSpecificity (scope : GeographicScope) (location : GeographicContext)
    (directoryEvidence : Option GeographicDirectoryEvidence) : Option ℕ :=
  match resolveGeographicApplicability scope location directoryEvidence with
  | .applicable specificity => some specificity
  | _ => none

/-! ### Attested regions -/

/-- `GeographicDirectoryRegionAttestationV1`. -/
structure GeographicDirectoryRegionAttestation where
  countryCode : JsString
  directoryVersionId : JsString
  evaluatedAt : ℤ
  evidenceReference : JsString
  publishedAt : ℤ
  region : PostalDirectoryRegion
  reviewedAt : ℤ
  validFrom : ℤ
  validUntil : Option ℤ

/-- `geographicDirectoryRegionAttestationV1Schema`. -/
@[mk_iff] structure GeographicDirectoryRegionAttestationV1Schema
    (a : GeographicDirectoryRegionAttestation) : Prop where
  countryCode : CountryCodeSchema a.countryCode
  directoryVersionId : IdentifierSchema a.directoryVersionId
  evaluatedAt : CanonicalTimestamp a.evaluatedAt
  evidenceReference : NonEmptyStringSchema a.evidenceReference
  publishedAt : CanonicalTimestamp a.publishedAt
  region : PostalDirectoryRegionSchema a.region
  reviewedAt : CanonicalTimestamp a.reviewedAt
  validFrom : CanonicalTimestamp a.validFrom
  validUntil : ∀ t ∈ a.validUntil, CanonicalTimestamp t
  complete : a.region.coverageState = .complete
  current : a.publishedAt ≤ a.evaluatedAt ∧ a.reviewedAt ≤ a.evaluatedAt ∧
    a.validFrom ≤ a.evaluatedAt ∧ a.reviewedAt ≤ a.publishedAt
  unexpired : ∀ t ∈ a.validUntil, a.evaluatedAt < t

instance : DecidablePred GeographicDirectoryRegionAttestationV1Schema :=
  fun _ => decidable_of_iff' _ (geographicDirectoryRegionAttestationV1Schema_iff _)

/-- The attestation of a region of a directory. -/
def attestationOf (directory : GeographicPostalDirectory) (evaluatedAt : ℤ)
    (region : PostalDirectoryRegion) : GeographicDirectoryRegionAttestation where
  countryCode := directory.countryCode
  directoryVersionId := directory.directoryVersionId
  evaluatedAt := evaluatedAt
  evidenceReference := directory.evidenceReference
  publishedAt := directory.publishedAt
  region := region
  reviewedAt := directory.reviewedAt
  validFrom := directory.validFrom
  validUntil := directory.validUntil

/-- `attestGeographicDirectoryRegionV1`: the selected complete region of a trusted directory. -/
def attestGeographicDirectoryRegionV1 (evidence : Option GeographicDirectoryEvidence)
    (regionCode : Option JsString) : Option GeographicDirectoryRegionAttestation :=
  match evidence, regionCode with
  | some (.available directory evaluatedAt), some regionCode =>
    match directory.regions.find? (·.regionCode = regionCode) with
    | none => none
    | some region =>
      if region.coverageState ≠ .complete then none
      else
        let attestation := attestationOf directory evaluatedAt region
        if GeographicDirectoryRegionAttestationV1Schema attestation then some attestation else none
  | _, _ => none

/-- The one-region directory an attestation stands for. -/
def GeographicDirectoryRegionAttestation.directory (a : GeographicDirectoryRegionAttestation) :
    GeographicPostalDirectory where
  countryCode := a.countryCode
  directoryVersionId := a.directoryVersionId
  evidenceReference := a.evidenceReference
  publishedAt := a.publishedAt
  regions := [a.region]
  reviewedAt := a.reviewedAt
  validFrom := a.validFrom
  validUntil := a.validUntil

/-- `geographicDirectoryEvidenceFromRegionAttestationV1`: accepted only when the attestation binds
the selected region and the evaluation clock. -/
def geographicDirectoryEvidenceFromRegionAttestationV1
    (attestation : GeographicDirectoryRegionAttestation) (location : GeographicContext)
    (evaluatedAt : ℤ) : Option GeographicDirectoryEvidence :=
  if GeographicDirectoryRegionAttestationV1Schema attestation ∧
      attestation.evaluatedAt = evaluatedAt ∧
      attestation.countryCode = location.countryCode ∧
      some attestation.region.regionCode = location.regionCode then
    some (.available attestation.directory attestation.evaluatedAt)
  else none

/-- A directory that was published and reviewed, and is valid, at an instant. -/
structure GeographicPostalDirectory.IsCurrent (directory : GeographicPostalDirectory)
    (evaluatedAt : ℤ) : Prop where
  publishedAt : directory.publishedAt ≤ evaluatedAt
  reviewedAt : directory.reviewedAt ≤ evaluatedAt
  validFrom : directory.validFrom ≤ evaluatedAt
  validUntil : ∀ t ∈ directory.validUntil, evaluatedAt < t

section Attestation

variable {directory : GeographicPostalDirectory} {evaluatedAt : ℤ} {regionCode : JsString}
  {region : PostalDirectoryRegion}

/-- A complete region of a current directory can be attested. -/
theorem attestationSchema_of_isCurrent (hdirectory : GeographicPostalDirectorySchema directory)
    (hevaluatedAt : CanonicalTimestamp evaluatedAt) (hcurrent : directory.IsCurrent evaluatedAt)
    (hregion : region ∈ directory.regions) (hcomplete : region.coverageState = .complete) :
    GeographicDirectoryRegionAttestationV1Schema (attestationOf directory evaluatedAt region) where
  countryCode := hdirectory.countryCode
  directoryVersionId := hdirectory.directoryVersionId
  evaluatedAt := hevaluatedAt
  evidenceReference := hdirectory.evidenceReference
  publishedAt := hdirectory.publishedAt
  region := hdirectory.regions region hregion
  reviewedAt := hdirectory.reviewedAt
  validFrom := hdirectory.validFrom
  validUntil := hdirectory.validUntil
  complete := hcomplete
  current := ⟨hcurrent.publishedAt, hcurrent.reviewedAt, hcurrent.validFrom, hdirectory.reviewed⟩
  unexpired := hcurrent.validUntil

/-- What is attested of a directory: the region that is found, if it is complete and the directory
current. -/
theorem attest_eq_some (hfind : directory.regions.find? (·.regionCode = regionCode) = some region)
    (hcomplete : region.coverageState = .complete)
    (hschema : GeographicDirectoryRegionAttestationV1Schema
      (attestationOf directory evaluatedAt region)) :
    attestGeographicDirectoryRegionV1 (some (.available directory evaluatedAt)) (some regionCode) =
      some (attestationOf directory evaluatedAt region) := by
  unfold attestGeographicDirectoryRegionV1
  simp only [hfind, hcomplete, ne_eq, not_true_eq_false, if_false]
  exact if_pos hschema

/-- The one-region directory of an attestation is well formed. -/
theorem directorySchema_of_attestation {attestation : GeographicDirectoryRegionAttestation}
    (h : GeographicDirectoryRegionAttestationV1Schema attestation) :
    GeographicPostalDirectorySchema attestation.directory where
  countryCode := h.countryCode
  directoryVersionId := h.directoryVersionId
  evidenceReference := h.evidenceReference
  publishedAt := h.publishedAt
  length_regions := ⟨le_rfl, Nat.one_le_ofNat⟩
  regions := by
    intro region hregion
    obtain rfl := List.mem_singleton.mp hregion
    exact h.region
  reviewedAt := h.reviewedAt
  validFrom := h.validFrom
  validUntil := h.validUntil
  unique := List.nodup_singleton _
  canonical := List.isChain_singleton _
  valid := fun t ht => h.current.2.2.1.trans_lt (h.unexpired t ht)
  reviewed := h.current.2.2.2

/-- What a current directory of the country says of a postal set, in a complete region. -/
theorem resolvePostalSet_of_isCurrent {postalCodes : List JsString}
    (hdirectory : GeographicPostalDirectorySchema directory)
    (hcurrent : directory.IsCurrent evaluatedAt)
    (hfind : directory.regions.find? (·.regionCode = regionCode) = some region)
    (hcomplete : region.coverageState = .complete) :
    resolvePostalSetByDirectory postalCodes directory.countryCode regionCode directory evaluatedAt =
      if region.postalCodes.countP (· ∈ postalCodes) = region.postalCodes.length then .applicable 2
      else if region.postalCodes.countP (· ∈ postalCodes) = 0 then .notApplicable
      else .ambiguous (js "partial-postal-region-overlap") := by
  have hearly : ¬ (directory.publishedAt > evaluatedAt ∨ directory.reviewedAt > evaluatedAt ∨
      directory.validFrom > evaluatedAt) := by
    rintro (h | h | h)
    · exact absurd hcurrent.publishedAt (not_le.mpr h)
    · exact absurd hcurrent.reviewedAt (not_le.mpr h)
    · exact absurd hcurrent.validFrom (not_le.mpr h)
  have hlate : ¬ ∃ t ∈ directory.validUntil, t ≤ evaluatedAt := by
    rintro ⟨t, ht, hle⟩
    exact absurd (hcurrent.validUntil t ht) (not_lt.mpr hle)
  unfold resolvePostalSetByDirectory
  rw [if_neg (not_not.mpr hdirectory), if_neg hearly, if_neg hlate, if_neg (not_not.mpr rfl), hfind]
  dsimp only
  rw [if_neg (by rw [hcomplete]; decide)]

/-- A directory that makes a postal set applicable to a region can be attested for it. -/
theorem isCurrent_of_applicable {postalCodes : List JsString} {countryCode : JsString}
    {specificity : ℕ}
    (happlicable : resolvePostalSetByDirectory postalCodes countryCode regionCode directory
      evaluatedAt = .applicable specificity) :
    GeographicPostalDirectorySchema directory ∧ directory.IsCurrent evaluatedAt ∧
      ∃ region, directory.regions.find? (·.regionCode = regionCode) = some region ∧
        region.coverageState = .complete := by
  unfold resolvePostalSetByDirectory at happlicable
  by_cases hdirectory : GeographicPostalDirectorySchema directory
  · rw [if_neg (not_not.mpr hdirectory)] at happlicable
    split_ifs at happlicable with hearly hlate hcountry
    push Not at hearly hlate
    cases hfind : directory.regions.find? (·.regionCode = regionCode) with
    | none =>
      rw [hfind] at happlicable
      cases happlicable
    | some region =>
      rw [hfind] at happlicable
      dsimp only at happlicable
      refine ⟨hdirectory, ⟨hearly.1, hearly.2.1, hearly.2.2, hlate⟩, region, rfl, ?_⟩
      cases hcoverage : region.coverageState with
      | complete => rfl
      | ambiguous =>
        rw [if_pos hcoverage] at happlicable
        cases happlicable
  · rw [if_pos hdirectory] at happlicable
    cases happlicable

end Attestation

/-- **Judged by the attested region or by the directory it was taken from, a scope applies alike**;
and evidence that cannot be attested for a region makes neither a postal set nor stores applicable
to it. -/
theorem resolve_of_attestation :
    (∀ (directory : GeographicPostalDirectory) (evaluatedAt : ℤ) (location : GeographicContext)
        (regionCode : JsString) (region : PostalDirectoryRegion),
      GeographicDirectoryEvidenceSchema (.available directory evaluatedAt) →
      directory.countryCode = location.countryCode → location.regionCode = some regionCode →
      directory.regions.find? (·.regionCode = regionCode) = some region →
      region.coverageState = .complete → directory.IsCurrent evaluatedAt →
      ∃ attestation rehydrated,
        attestGeographicDirectoryRegionV1 (some (.available directory evaluatedAt))
          location.regionCode = some attestation ∧
        geographicDirectoryEvidenceFromRegionAttestationV1 attestation location evaluatedAt =
          some rehydrated ∧
        ∀ scope, resolveGeographicApplicability scope location
            (some (.available directory evaluatedAt)) =
          resolveGeographicApplicability scope location (some rehydrated)) ∧
    ∀ (evidence : Option GeographicDirectoryEvidence) (location : GeographicContext)
        (regionCode : JsString),
      (∀ e ∈ evidence, GeographicDirectoryEvidenceSchema e) →
      location.regionCode = some regionCode → location.postalCode = none → location.storeId = none →
      attestGeographicDirectoryRegionV1 evidence location.regionCode = none →
      ∀ specificity,
        (∀ countryCode postalCodes,
          resolveGeographicApplicability (.postalSet countryCode postalCodes) location evidence ≠
            .applicable specificity) ∧
        ∀ storeIds, resolveGeographicApplicability (.stores storeIds) location evidence ≠
          .applicable specificity := by
  constructor
  · rintro directory evaluatedAt ⟨countryCode, regionCode?, postalCode, storeId⟩ regionCode region
      ⟨hdirectory, hevaluatedAt⟩ rfl rfl hfind hcomplete hcurrent
    have hschema := attestationSchema_of_isCurrent hdirectory hevaluatedAt hcurrent
      (List.mem_of_find?_eq_some hfind) hcomplete
    have hcode : region.regionCode = regionCode := by simpa using List.find?_some hfind
    have hfind' : (attestationOf directory evaluatedAt region).directory.regions.find?
        (·.regionCode = regionCode) = some region :=
      List.find?_cons_of_pos (decide_eq_true hcode)
    have hcurrent' : (attestationOf directory evaluatedAt region).directory.IsCurrent evaluatedAt :=
      ⟨hcurrent.publishedAt, hcurrent.reviewedAt, hcurrent.validFrom, hcurrent.validUntil⟩
    refine ⟨attestationOf directory evaluatedAt region,
      .available (attestationOf directory evaluatedAt region).directory evaluatedAt,
      attest_eq_some hfind hcomplete hschema,
      if_pos ⟨hschema, rfl, rfl, congrArg some hcode⟩, ?_⟩
    intro scope
    cases scope with
    | national => rfl
    | regions => rfl
    | stores => rfl
    | unknown => rfl
    | postalSet countryCode postalCodes =>
      unfold resolveGeographicApplicability
      dsimp only
      split_ifs
      · rfl
      · cases postalCode with
        | some postalCode => rfl
        | none =>
          exact (resolvePostalSet_of_isCurrent hdirectory hcurrent hfind hcomplete).trans
            (resolvePostalSet_of_isCurrent (directorySchema_of_attestation hschema) hcurrent' hfind'
              hcomplete).symm
  · rintro evidence ⟨country, regionCode?, postalCode?, storeId?⟩ regionCode hevidence rfl rfl rfl
      hattest specificity
    constructor
    · intro countryCode postalCodes happlicable
      unfold resolveGeographicApplicability at happlicable
      dsimp only at happlicable
      split_ifs at happlicable
      match evidence, hevidence, hattest, happlicable with
      | some (.available directory evaluatedAt), hevidence, hattest, happlicable =>
        obtain ⟨hdirectory, hcurrent, region, hfind, hcomplete⟩ :=
          isCurrent_of_applicable happlicable
        have hschema := attestationSchema_of_isCurrent hdirectory (hevidence _ rfl).2 hcurrent
          (List.mem_of_find?_eq_some hfind) hcomplete
        rw [attest_eq_some hfind hcomplete hschema] at hattest
        cases hattest
    · intro storeIds happlicable
      unfold resolveGeographicApplicability at happlicable
      dsimp only at happlicable
      rw [if_neg (by rintro ⟨id, hid, -⟩; cases hid)] at happlicable
      cases happlicable

/-- A directory of one region. -/
def osloDirectory : GeographicPostalDirectory where
  countryCode := js "NO"
  directoryVersionId := js "v1"
  evidenceReference := js "post"
  publishedAt := 0
  regions := [⟨.complete, js "post", [js "0150", js "0151"], js "oslo"⟩]
  reviewedAt := 0
  validFrom := 0
  validUntil := none

theorem resolve_of_attestation_oslo :
    ∃ attestation rehydrated,
      attestGeographicDirectoryRegionV1 (some (.available osloDirectory 1)) (some (js "oslo")) =
        some attestation ∧
      geographicDirectoryEvidenceFromRegionAttestationV1 attestation
        ⟨js "NO", some (js "oslo"), none, none⟩ 1 = some rehydrated ∧
      ∀ scope, resolveGeographicApplicability scope ⟨js "NO", some (js "oslo"), none, none⟩
          (some (.available osloDirectory 1)) =
        resolveGeographicApplicability scope ⟨js "NO", some (js "oslo"), none, none⟩
          (some rehydrated) :=
  resolve_of_attestation.1 osloDirectory 1 ⟨js "NO", some (js "oslo"), none, none⟩ (js "oslo")
    ⟨.complete, js "post", [js "0150", js "0151"], js "oslo"⟩ (by decide) rfl rfl (by decide) rfl
    ⟨by decide, by decide, by decide, nofun⟩

/-! ### Market contexts -/

/-- `MarketContextV1`. -/
inductive MarketContextV1 where
  | national
  | launchRegion (regionId : JsString)
  deriving DecidableEq

/-- `launchRegionIdSchema`, the pattern `/^no-[0-9]{4}-[a-z0-9]+(?:-[a-z0-9]+)*$/u`. -/
def LaunchRegionIdSchema (s : JsString) : Prop :=
  match s.splitOn 45 with
  | country :: year :: slug =>
    country = js "no" ∧ (year.length = 4 ∧ ∀ u ∈ year, isDigit u = true) ∧ slug ≠ [] ∧
      ∀ part ∈ slug, part ≠ [] ∧ ∀ u ∈ part, isDigit u = true ∨ (97 ≤ u ∧ u ≤ 122)
  | _ => False

instance : DecidablePred LaunchRegionIdSchema := fun s => by
  unfold LaunchRegionIdSchema
  split <;> infer_instance

/-- `marketContextV1Schema`. -/
def MarketContextV1Schema : MarketContextV1 → Prop
  | .national => True
  | .launchRegion regionId => LaunchRegionIdSchema regionId

instance : DecidablePred MarketContextV1Schema := fun market => by
  cases market <;> unfold MarketContextV1Schema <;> infer_instance

/-- `marketContextToGeographicContext`. -/
def marketContextToGeographicContext : MarketContextV1 → GeographicContext
  | .national => ⟨js "NO", none, none, none⟩
  | .launchRegion regionId => ⟨js "NO", some regionId, none, none⟩

end Handleplan
