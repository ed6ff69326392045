import Handleplan.Domain.OfferIngestion

/-!
# What the validation of official-offer extractions promises

A validated extraction is the input of human review, so its classification has to depend on the
candidates alone: not on their order, and not on whether it has been made before. An exact match has
to be one: of its own key, of its own offer, of one product, and within the edition in time and
place.

All of it holds but for the place. The validation compares the scope of a candidate with that of the
edition by a text that joins the members of their lists with commas, which are also allowed in
members. Two lists of regions or of stores that differ can have the same text, and then the mismatch
is not recorded.

## Main definitions

* `SameGeographicScope` — equality of scopes, their lists read as sets.
* `IsExactMatch` — what an exact match has to be.
* `ValidationHolds` — what the validation promises of one extraction.
* `ListsAreToldApart` — when the joined texts of two scopes tell them apart.

## Main results

* `validate_perm` — permuting the candidates permutes the results.
* `validatedCandidate_normalized` — a classified candidate is classified as before.
* `geographicScopeKey_eq_iff` — when two scopes have the same text.
* `validationHolds_iff` — the promise is kept if and only if the scopes of the candidates
  and that of the edition are told apart.
-/

namespace Handleplan

open JsString Sorting

/-! ### Scopes as sets -/

/-- Two geographic scopes are the same, their lists read as sets. -/
def SameGeographicScope : GeographicScope → GeographicScope → Prop
  | .national countryCode, .national countryCode' => countryCode = countryCode'
  | .regions countryCode codes, .regions countryCode' codes' =>
    countryCode = countryCode' ∧ ∀ code, code ∈ codes ↔ code ∈ codes'
  | .postalSet countryCode codes, .postalSet countryCode' codes' =>
    countryCode = countryCode' ∧ ∀ code, code ∈ codes ↔ code ∈ codes'
  | .stores ids, .stores ids' => ∀ id, id ∈ ids ↔ id ∈ ids'
  | .unknown reason, .unknown reason' => reason = reason'
  | _, _ => False

/-- Whether a scope says where an offer holds. -/
def GeographicScope.IsKnown : GeographicScope → Prop
  | .unknown _ => False
  | _ => True

/-- Whether the sorted members of two lists, joined by commas, are the same text only if the members
are the same. -/
def AreToldApart (members members' : List JsString) : Prop :=
  joinWith (js ",") (sortBy compareText members) = joinWith (js ",") (sortBy compareText members') →
    ∀ member, member ∈ members ↔ member ∈ members'

/-- Whether the texts of two scopes tell their lists apart. Members of a postal set have no
commas. -/
def ListsAreToldApart : GeographicScope → GeographicScope → Prop
  | .regions countryCode codes, .regions countryCode' codes' =>
    countryCode = countryCode' → AreToldApart codes codes'
  | .stores ids, .stores ids' => AreToldApart ids ids'
  | _, _ => True

section Lists

variable {u : UInt16} {members members' : List JsString}

/-- Sorted, two lists of distinct texts are equal exactly when their members are. -/
theorem sortBy_eq_iff_of_nodup (h : members.Nodup) (h' : members'.Nodup) :
    sortBy compareText members = sortBy compareText members' ↔
      ∀ member, member ∈ members ↔ member ∈ members' := by
  rw [← List.perm_ext_iff_of_nodup h h']
  constructor
  · intro heq
    exact (sortBy_perm _ members).symm.trans (heq ▸ sortBy_perm _ members')
  · intro hperm
    exact sortBy_eq_of_perm hperm fun a _ b _ hab => compareText_eq_iff.mp hab

/-- Texts without the separator are read back from their joined text. -/
theorem joinWith_inj (hne : members ≠ []) (hne' : members' ≠ []) (h : ∀ member ∈ members, u ∉ member)
    (h' : ∀ member ∈ members', u ∉ member) (heq : joinWith [u] members = joinWith [u] members') :
    members = members' := by
  have hmem (first second : JsString) (rest : List JsString) :
      u ∈ joinWith [u] (first :: second :: rest) := by
    rw [joinWith]
    exact List.mem_append_left _ (List.mem_append_right _ List.mem_cons_self)
  induction members generalizing members' with
  | nil => exact absurd rfl hne
  | cons first rest ih =>
    obtain ⟨hfirst, hrest⟩ := List.forall_mem_cons.mp h
    cases members' with
    | nil => exact absurd rfl hne'
    | cons first' rest' =>
      obtain ⟨hfirst', hrest'⟩ := List.forall_mem_cons.mp h'
      cases rest with
      | nil =>
        cases rest' with
        | nil => exact congrArg (fun text => [text]) heq
        | cons second' rest' =>
          have hin : u ∈ first := by
            have hcopy := hmem first' second' rest'
            rwa [← heq] at hcopy
          exact absurd hin hfirst
      | cons second rest =>
        cases rest' with
        | nil =>
          have hin : u ∈ first' := by
            have hcopy := hmem first second rest
            rwa [heq] at hcopy
          exact absurd hin hfirst'
        | cons second' rest' =>
          simp only [joinWith, List.append_assoc, List.singleton_append] at heq
          obtain ⟨rfl, htail⟩ := append_sep_inj hfirst hfirst' heq
          exact congrArg (first :: ·)
            (ih (List.cons_ne_nil _ _) (List.cons_ne_nil _ _) hrest hrest' htail)

/-- **Lists are told apart** when none of their members has a comma. -/
theorem areToldApart_of_comma_notMem (hne : members ≠ []) (hne' : members' ≠ [])
    (hnodup : members.Nodup) (hnodup' : members'.Nodup) (h : ∀ member ∈ members, 44 ∉ member)
    (h' : ∀ member ∈ members', 44 ∉ member) : AreToldApart members members' := by
  intro heq
  have hsorted := joinWith_inj (fun hnil => hne (sortBy_eq_nil_iff.mp hnil))
    (fun hnil => hne' (sortBy_eq_nil_iff.mp hnil))
    (fun member hmember => h member (mem_sortBy.mp hmember))
    (fun member hmember => h' member (mem_sortBy.mp hmember)) heq
  exact (sortBy_eq_iff_of_nodup hnodup hnodup').mp hsorted

/-- Lists of the same members have the same joined text. -/
theorem joinWith_sortBy_eq (hnodup : members.Nodup) (hnodup' : members'.Nodup)
    (h : ∀ member, member ∈ members ↔ member ∈ members') :
    joinWith (js ",") (sortBy compareText members) =
      joinWith (js ",") (sortBy compareText members') :=
  congrArg _ ((sortBy_eq_iff_of_nodup hnodup hnodup').mpr h)

end Lists

/-! ### The texts of scopes -/

section Keys

variable {countryCode countryCode' joined joined' kind : JsString} {scope declared : GeographicScope}

/-- Behind one kind, a country code of two letters is read back. -/
theorem append_countryCode_inj (h : CountryCodeSchema countryCode)
    (h' : CountryCodeSchema countryCode')
    (heq : kind ++ countryCode ++ js ":" ++ joined = kind ++ countryCode' ++ js ":" ++ joined') :
    countryCode = countryCode' ∧ joined = joined' := by
  simp only [List.append_assoc] at heq
  obtain ⟨hcode, hrest⟩ := List.append_inj (List.append_cancel_left heq) (h.1.trans h'.1.symm)
  exact ⟨hcode, List.append_cancel_left hrest⟩

/-- Postal codes are told apart. -/
theorem areToldApart_postalCodes {codes codes' : List JsString}
    (h : GeographicScopeSchema (.postalSet countryCode codes))
    (h' : GeographicScopeSchema (.postalSet countryCode' codes')) : AreToldApart codes codes' := by
  obtain ⟨-, ⟨hlength, -⟩, hcodes, hnodup, -⟩ := h
  obtain ⟨-, ⟨hlength', -⟩, hcodes', hnodup', -⟩ := h'
  have hcomma (code : JsString) (hcode : PostalCodeSchema code) : (44 : UInt16) ∉ code := fun hmem =>
    absurd (hcode.2 44 hmem) (by decide)
  exact areToldApart_of_comma_notMem (List.ne_nil_of_length_pos hlength)
    (List.ne_nil_of_length_pos hlength') hnodup hnodup' (fun code hcode => hcomma code (hcodes code hcode))
    fun code hcode => hcomma code (hcodes' code hcode)

/-- **When two scopes have the same text**: two that the schema accepts have it exactly when they
are the same, provided that their lists are told apart, and otherwise not. -/
theorem geographicScopeKey_eq_iff (h : GeographicScopeSchema scope)
    (h' : GeographicScopeSchema declared) (hknown : scope.IsKnown) :
    (geographicScopeKey scope = geographicScopeKey declared ↔ SameGeographicScope scope declared) ↔
      ListsAreToldApart scope declared := by
  -- texts of two kinds differ in their first letter
  have hkinds {a b : JsString} {u v : UInt16} (ha : a.head? = some u)
      (hb : b.head? = some v) (huv : u ≠ v) : ((a = b ↔ False) ↔ True) := by
    refine iff_of_true (iff_of_false (fun hab => huv ?_) id) trivial
    rw [hab, hb] at ha
    exact (Option.some.inj ha).symm
  cases scope with
  | national countryCode =>
    cases declared with
    | national countryCode' =>
      refine iff_of_true ⟨fun heq => List.append_cancel_left heq, fun heq => ?_⟩ trivial
      exact congrArg (js "national:" ++ ·) heq
    | _ => exact hkinds rfl rfl (by decide)
  | regions countryCode codes =>
    cases declared with
    | regions countryCode' codes' =>
      obtain ⟨hcode, -, -, hnodup⟩ := h
      obtain ⟨hcode', -, -, hnodup'⟩ := h'
      constructor
      · rintro hiff rfl hjoined
        exact (hiff.mp (congrArg (js "regions:" ++ countryCode ++ js ":" ++ ·) hjoined)).2
      · intro happart
        constructor
        · intro heq
          obtain ⟨rfl, hjoined⟩ := append_countryCode_inj hcode hcode' heq
          exact ⟨rfl, happart rfl hjoined⟩
        · rintro ⟨rfl, hmembers⟩
          exact congrArg (js "regions:" ++ countryCode ++ js ":" ++ ·)
            (joinWith_sortBy_eq hnodup hnodup' hmembers)
    | _ => exact hkinds rfl rfl (by decide)
  | postalSet countryCode codes =>
    cases declared with
    | postalSet countryCode' codes' =>
      have happart := areToldApart_postalCodes h h'
      obtain ⟨hcode, -, -, hnodup, -⟩ := h
      obtain ⟨hcode', -, -, hnodup', -⟩ := h'
      refine iff_of_true ⟨fun heq => ?_, ?_⟩ trivial
      · obtain ⟨rfl, hjoined⟩ := append_countryCode_inj hcode hcode' heq
        exact ⟨rfl, happart hjoined⟩
      · rintro ⟨rfl, hmembers⟩
        exact congrArg (js "postal-set:" ++ countryCode ++ js ":" ++ ·)
          (joinWith_sortBy_eq hnodup hnodup' hmembers)
    | _ => exact hkinds rfl rfl (by decide)
  | stores ids =>
    cases declared with
    | stores ids' =>
      obtain ⟨-, -, hnodup⟩ := h
      obtain ⟨-, -, hnodup'⟩ := h'
      constructor
      · intro hiff hjoined
        exact hiff.mp (congrArg (js "stores:" ++ ·) hjoined)
      · intro happart
        constructor
        · intro heq
          exact happart (List.append_cancel_left heq)
        · intro hmembers
          exact congrArg (js "stores:" ++ ·) (joinWith_sortBy_eq hnodup hnodup' hmembers)
    | _ => exact hkinds rfl rfl (by decide)
  | unknown reason => exact hknown.elim

end Keys

/-! ### The order of the candidates -/

section Order

variable {envelope : OfficialOfferExtractionEnvelope} {edition : OfficialOfferEdition}
  {context : OfficialOfferExtractionValidationContext}
  {candidates candidates' : List ExtractedOfficialOfferCandidate}
  {candidate : ExtractedOfficialOfferCandidate}

/-- The anomalies of a candidate depend on the keys and on the offers of all, however ordered. -/
theorem raisedAnomalies_congr
    (hkeys : (candidates'.map fun c => c.candidateKey).Perm (candidates.map fun c => c.candidateKey))
    (hoffers : (candidates'.map candidateSignature).Perm (candidates.map candidateSignature)) :
    raisedAnomalies candidates' edition context candidate =
      raisedAnomalies candidates edition context candidate := by
  unfold raisedAnomalies
  rw [hkeys.count_eq, hoffers.count_eq]

/-- The classification of a candidate does not depend on the order of all. -/
theorem validatedCandidate_perm (h : candidates'.Perm candidates) :
    validatedCandidate candidates' edition context =
      validatedCandidate candidates edition context := by
  funext candidate
  unfold validatedCandidate candidateAnomalies
  rw [raisedAnomalies_congr (h.map _) (h.map _)]

theorem requestedGtins_perm (h : candidates'.Perm candidates) :
    requestedGtins candidates' = requestedGtins candidates :=
  sortBy_eq_of_perm (h.filterMap gtinOf).dedup fun _ _ _ _ hab => compareText_eq_iff.mp hab

/-- The schema of an envelope does not depend on the order of its candidates. -/
theorem schema_perm (h : candidates'.Perm envelope.candidates) :
    OfficialOfferExtractionEnvelopeSchema { envelope with candidates := candidates' } ↔
      OfficialOfferExtractionEnvelopeSchema envelope := by
  have hscopes := (h.map fun c => scopeMembers c.geographicScope).sum_eq
  have hempty : candidates' = [] ↔ envelope.candidates = [] :=
    ⟨fun hnil => (hnil ▸ h).nil_eq.symm, fun hnil => (hnil ▸ h).eq_nil⟩
  constructor
  · intro hschema
    exact { hschema with
      candidates := fun c hc => hschema.candidates c (h.mem_iff.mpr hc)
      candidatesBound := h.length_eq ▸ hschema.candidatesBound
      empty := hempty.symm.trans hschema.empty
      method := fun c hc => hschema.method c (h.mem_iff.mpr hc)
      scopeBound := hscopes ▸ hschema.scopeBound }
  · intro hschema
    exact { hschema with
      candidates := fun c hc => hschema.candidates c (h.mem_iff.mp hc)
      candidatesBound := h.length_eq.symm ▸ hschema.candidatesBound
      empty := hempty.trans hschema.empty
      method := fun c hc => hschema.method c (h.mem_iff.mp hc)
      scopeBound := hscopes.symm ▸ hschema.scopeBound }

/-- Whether a validation classifies the candidates of an envelope. -/
def Classifies (envelope : OfficialOfferExtractionEnvelope) (edition : OfficialOfferEdition)
    (context : OfficialOfferExtractionValidationContext) : Prop :=
  OfficialOfferExtractionEnvelopeSchema envelope ∧ OfficialOfferEditionSchema edition ∧
    OfficialOfferExtractionValidationContextSchema context ∧ ReachesCandidates envelope context

instance : Decidable (Classifies envelope edition context) :=
  inferInstanceAs (Decidable (_ ∧ _ ∧ _ ∧ _))

/-- **The results** are the candidates classified, if the validation gets to them. -/
theorem validate_candidates :
    (validateOfficialOfferExtraction envelope edition context).candidates =
      if Classifies envelope edition context then
        envelope.candidates.map (validatedCandidate envelope.candidates edition context)
      else [] := by
  by_cases hvalid : OfficialOfferExtractionEnvelopeSchema envelope ∧
      OfficialOfferEditionSchema edition ∧ OfficialOfferExtractionValidationContextSchema context
  · obtain ⟨henvelope, hedition, hcontext⟩ := hvalid
    rcases validate_eq henvelope hedition hcontext with ⟨-, hreach, heq⟩ | ⟨hnot, _, _, -, heq⟩
    · rw [heq, if_pos ⟨henvelope, hedition, hcontext, hreach⟩]
    · rw [heq, emptyValidation]
      split_ifs with hclassifies
      · have hnil : envelope.candidates = [] :=
          not_not.mp fun hne => hnot ⟨hne, hclassifies.2.2.2⟩
        rw [hnil, List.map_nil]
      · rfl
  · rw [if_neg fun hclassifies => hvalid ⟨hclassifies.1, hclassifies.2.1, hclassifies.2.2.1⟩,
      validateOfficialOfferExtraction, if_pos (by tauto), emptyValidation]

/-- The counts of a validation are those of its results. -/
theorem validate_counts :
    (validateOfficialOfferExtraction envelope edition context).counts =
      countsOf (validateOfficialOfferExtraction envelope edition context).candidates := by
  unfold validateOfficialOfferExtraction
  dsimp only
  split_ifs
  all_goals rfl

/-- Two results differ in the order of the classified candidates only, which follow the candidates
they are of. -/
structure IsPermutedWith (candidates candidates' : List ExtractedOfficialOfferCandidate)
    (result result' : OfficialOfferExtractionValidation) : Prop where
  candidates : ∃ classify : ExtractedOfficialOfferCandidate → ValidatedOfficialOfferCandidate,
    (result.candidates = [] ∧ result'.candidates = []) ∨
      (result.candidates = candidates.map classify ∧ result'.candidates = candidates'.map classify)
  counts : result'.counts = result.counts
  errorClass : result'.errorClass = result.errorClass
  status : result'.status = result.status

/-- The counts of classified candidates do not depend on their order. -/
theorem countsOf_perm {validated validated' : List ValidatedOfficialOfferCandidate}
    (h : validated'.Perm validated) : countsOf validated' = countsOf validated := by
  unfold countsOf
  rw [(h.filter _).length_eq, (h.filter _).length_eq, (h.filter _).length_eq, h.length_eq]

/-- **Permuting the candidates permutes the results**, and changes nothing else. -/
theorem validate_perm (h : candidates'.Perm envelope.candidates) :
    IsPermutedWith envelope.candidates candidates'
      (validateOfficialOfferExtraction envelope edition context)
      (validateOfficialOfferExtraction { envelope with candidates := candidates' } edition
        context) := by
  have hclassifies : Classifies { envelope with candidates := candidates' } edition context ↔
      Classifies envelope edition context := by
    unfold Classifies ReachesCandidates
    rw [schema_perm h, requestedGtins_perm h]
  have hresults : (validateOfficialOfferExtraction { envelope with candidates := candidates' }
      edition context).candidates = if Classifies envelope edition context then
        candidates'.map (validatedCandidate envelope.candidates edition context) else [] := by
    rw [validate_candidates, if_congr hclassifies rfl rfl, validatedCandidate_perm h]
  have hperm : (validateOfficialOfferExtraction { envelope with candidates := candidates' }
      edition context).candidates.Perm
        (validateOfficialOfferExtraction envelope edition context).candidates := by
    rw [hresults, validate_candidates]
    split_ifs
    · exact h.map _
    · exact List.Perm.nil
  have hdegrades : (∃ v ∈ candidates'.map (validatedCandidate candidates' edition context),
      Degrades v) ↔ ∃ v ∈ envelope.candidates.map
        (validatedCandidate envelope.candidates edition context), Degrades v := by
    rw [validatedCandidate_perm h]
    exact exists_congr fun v => and_congr_left' (h.map _).mem_iff
  obtain ⟨herror, hstatus⟩ : (validateOfficialOfferExtraction { envelope with candidates := candidates' }
        edition context).errorClass =
          (validateOfficialOfferExtraction envelope edition context).errorClass ∧
      (validateOfficialOfferExtraction { envelope with candidates := candidates' }
        edition context).status =
          (validateOfficialOfferExtraction envelope edition context).status := by
    unfold validateOfficialOfferExtraction ConfirmsOther
    simp only [schema_perm h, requestedGtins_perm h, h.length_eq, hdegrades]
    split_ifs
    all_goals exact ⟨rfl, rfl⟩
  refine ⟨⟨validatedCandidate envelope.candidates edition context, ?_⟩, ?_, herror, hstatus⟩
  · rw [hresults, validate_candidates]
    split_ifs
    · exact .inr ⟨rfl, rfl⟩
    · exact .inl ⟨rfl, rfl⟩
  · rw [validate_counts, validate_counts, countsOf_perm hperm]

end Order

/-! ### Classified again -/

section Again

variable {envelope : OfficialOfferExtractionEnvelope} {edition : OfficialOfferEdition}
  {context : OfficialOfferExtractionValidationContext}
  {candidates : List ExtractedOfficialOfferCandidate} {candidate : ExtractedOfficialOfferCandidate}

/-- The candidates of classified candidates, with their recorded anomalies. -/
def normalizedCandidates (validated : List ValidatedOfficialOfferCandidate) :
    List ExtractedOfficialOfferCandidate := validated.map fun v => v.candidate

/-- Anomalies that are there already are not added. -/
theorem foldl_addAnomaly_of_subset {raised anomalies : List AnomalyCode} (h : raised ⊆ anomalies) :
    raised.foldl addAnomaly anomalies = anomalies := by
  induction raised with
  | nil => rfl
  | cons anomaly raised ih =>
    obtain ⟨hmem, hsubset⟩ := List.cons_subset.mp h
    rw [List.foldl_cons, addAnomaly, if_pos hmem]
    exact ih hsubset

/-- **A classified candidate is classified as before**, among the classified candidates.

**Proof sketch.** A recorded anomaly changes neither the key of a candidate nor its offer, so that
the same anomalies are raised. All of them are recorded already, and in their order. -/
theorem validatedCandidate_normalized :
    validatedCandidate
        (normalizedCandidates (candidates.map (validatedCandidate candidates edition context)))
        edition context (validatedCandidate candidates edition context candidate).candidate =
      validatedCandidate candidates edition context candidate := by
  have hkeys : ((normalizedCandidates
      (candidates.map (validatedCandidate candidates edition context))).map fun c =>
        c.candidateKey) = candidates.map fun c => c.candidateKey := by
    rw [normalizedCandidates, List.map_map, List.map_map]
    rfl
  have hoffers : (normalizedCandidates
      (candidates.map (validatedCandidate candidates edition context))).map candidateSignature =
        candidates.map candidateSignature := by
    rw [normalizedCandidates, List.map_map, List.map_map]
    rfl
  have hraised : raisedAnomalies
      (normalizedCandidates (candidates.map (validatedCandidate candidates edition context)))
      edition context (validatedCandidate candidates edition context candidate).candidate =
        raisedAnomalies candidates edition context candidate :=
    raisedAnomalies_congr (.of_eq hkeys) (.of_eq hoffers)
  have hanomalies : candidateAnomalies
      (normalizedCandidates (candidates.map (validatedCandidate candidates edition context)))
      edition context (validatedCandidate candidates edition context candidate).candidate =
        candidateAnomalies candidates edition context candidate := by
    have hsubset : raisedAnomalies candidates edition context candidate ⊆
        candidateAnomalies candidates edition context candidate := fun code hcode =>
      mem_candidateAnomalies.mpr (.inr hcode)
    have hsorted (anomalies : List AnomalyCode) :
        sortBy (on AnomalyCode.text compareText) (sortBy (on AnomalyCode.text compareText)
          anomalies) = sortBy (on AnomalyCode.text compareText) anomalies := sortBy_sortBy
    rw [candidateAnomalies, hraised]
    show sortBy _ ((raisedAnomalies candidates edition context candidate).foldl addAnomaly
      (candidateAnomalies candidates edition context candidate)) = _
    rw [foldl_addAnomaly_of_subset hsubset, candidateAnomalies, hsorted]
  show ValidatedOfficialOfferCandidate.mk _ _ _ _ _ = _
  rw [hanomalies]
  rfl

/-- The envelope of the classified candidates passes the schema of envelopes. -/
theorem schema_normalized (h : OfficialOfferExtractionEnvelopeSchema envelope) :
    OfficialOfferExtractionEnvelopeSchema
      { envelope with candidates := normalizedCandidates (envelope.candidates.map
          (validatedCandidate envelope.candidates edition context)) } := by
  have hforall {P : ExtractedOfficialOfferCandidate → Prop}
      (hP : ∀ c ∈ envelope.candidates,
        P (validatedCandidate envelope.candidates edition context c).candidate) :
      ∀ c ∈ normalizedCandidates (envelope.candidates.map
        (validatedCandidate envelope.candidates edition context)), P c := by
    intro c hc
    obtain ⟨v, hv, rfl⟩ := List.mem_map.mp hc
    obtain ⟨candidate, hcandidate, rfl⟩ := List.mem_map.mp hv
    exact hP candidate hcandidate
  have hempty : normalizedCandidates (envelope.candidates.map
      (validatedCandidate envelope.candidates edition context)) = [] ↔ envelope.candidates = [] := by
    rw [normalizedCandidates, List.map_eq_nil_iff, List.map_eq_nil_iff]
  have hscopes : (normalizedCandidates (envelope.candidates.map
      (validatedCandidate envelope.candidates edition context))).map
        (fun c => scopeMembers c.geographicScope) =
      envelope.candidates.map fun c => scopeMembers c.geographicScope := by
    rw [normalizedCandidates, List.map_map, List.map_map]
    rfl
  exact { h with
    candidates := hforall fun c hc => schema_validatedCandidate (h.candidates c hc)
    candidatesBound := by
      rw [normalizedCandidates, List.length_map, List.length_map]
      exact h.candidatesBound
    empty := hempty.trans h.empty
    method := hforall fun c hc => h.method c hc
    scopeBound := hscopes.symm ▸ h.scopeBound }

/-- **Validated again, the results are the same.** -/
theorem validate_normalized :
    (validateOfficialOfferExtraction
        { envelope with
          candidates := normalizedCandidates
            (validateOfficialOfferExtraction envelope edition context).candidates }
        edition context).candidates =
      (validateOfficialOfferExtraction envelope edition context).candidates := by
  by_cases hclassifies : Classifies envelope edition context
  · have hresults : (validateOfficialOfferExtraction envelope edition context).candidates =
        envelope.candidates.map (validatedCandidate envelope.candidates edition context) := by
      rw [validate_candidates, if_pos hclassifies]
    obtain ⟨henvelope, hedition, hcontext, hgtins, hfingerprints⟩ := hclassifies
    have hrequested : requestedGtins (normalizedCandidates (envelope.candidates.map
        (validatedCandidate envelope.candidates edition context))) =
          requestedGtins envelope.candidates := by
      rw [requestedGtins, normalizedCandidates, List.filterMap_map, List.filterMap_map]
      rfl
    have hagain : Classifies
        { envelope with
          candidates := normalizedCandidates
            (envelope.candidates.map (validatedCandidate envelope.candidates edition context)) }
        edition context :=
      ⟨schema_normalized henvelope, hedition, hcontext, hrequested.trans hgtins, hfingerprints⟩
    rw [hresults, validate_candidates, if_pos hagain]
    dsimp only
    rw [normalizedCandidates, List.map_map, List.map_map]
    exact List.map_congr_left fun c _ => validatedCandidate_normalized
  · have hresults : (validateOfficialOfferExtraction envelope edition context).candidates = [] := by
      rw [validate_candidates, if_neg hclassifies]
    rw [hresults, normalizedCandidates, List.map_nil, validate_candidates]
    dsimp only
    rw [List.map_nil, ite_self]

end Again

/-! ### The promise -/

section Promise

variable {envelope : OfficialOfferExtractionEnvelope} {edition : OfficialOfferEdition}
  {context : OfficialOfferExtractionValidationContext}

/-- What an exact match has to be: the only candidate of its key and of its offer, of the only
product of its GTIN, and within the edition in time and place. -/
structure IsExactMatch (envelope : OfficialOfferExtractionEnvelope) (edition : OfficialOfferEdition)
    (context : OfficialOfferExtractionValidationContext)
    (candidate : ExtractedOfficialOfferCandidate) : Prop where
  key : (envelope.candidates.map fun c => c.candidateKey).count candidate.candidateKey = 1
  offer : (envelope.candidates.map candidateSignature).count (candidateSignature candidate) = 1
  product : ∃ gtin id, candidate.product = .exactIdentifier gtin ∧
    (gtin, [id]) ∈ context.exactProductIdsByGtin
  validity : ∃ startsAt endsAt, candidate.validity = .parsed startsAt endsAt ∧
    edition.validFrom ≤ startsAt ∧ endsAt ≤ edition.validUntil
  scope : SameGeographicScope candidate.geographicScope edition.declaredGeographicScope

/-- What the validation promises of one extraction. A candidate and its result stand at one position
of the lists; a code that the extractor gave is recorded as it is. -/
structure ValidationHolds (envelope : OfficialOfferExtractionEnvelope)
    (edition : OfficialOfferEdition) (context : OfficialOfferExtractionValidationContext) :
    Prop where
  /-- The only call that could throw is of the schema, on a candidate with its recorded codes. -/
  neverThrows : ∀ v ∈ (validateOfficialOfferExtraction envelope edition context).candidates,
    ExtractedOfficialOfferCandidateSchema v.candidate
  counts : (validateOfficialOfferExtraction envelope edition context).counts =
    countsOf (validateOfficialOfferExtraction envelope edition context).candidates
  partition : (validateOfficialOfferExtraction envelope edition context).counts.total =
    (validateOfficialOfferExtraction envelope edition context).counts.exactMatch +
      (validateOfficialOfferExtraction envelope edition context).counts.rejected +
      (validateOfficialOfferExtraction envelope edition context).counts.reviewRequired
  permuted : ∀ candidates' : List ExtractedOfficialOfferCandidate,
    candidates'.Perm envelope.candidates →
      IsPermutedWith envelope.candidates candidates'
        (validateOfficialOfferExtraction envelope edition context)
        (validateOfficialOfferExtraction { envelope with candidates := candidates' } edition context)
  again : (validateOfficialOfferExtraction
      { envelope with
        candidates := normalizedCandidates
          (validateOfficialOfferExtraction envelope edition context).candidates }
      edition context).candidates.map (fun v => (v.disposition, v.anomalyCodes)) =
    (validateOfficialOfferExtraction envelope edition context).candidates.map
      fun v => (v.disposition, v.anomalyCodes)
  exactMatch : ∀ result ∈ envelope.candidates.zip
      (validateOfficialOfferExtraction envelope edition context).candidates,
    result.2.disposition = .exactMatch → IsExactMatch envelope edition context result.1
  scopeMismatch : ∀ result ∈ envelope.candidates.zip
      (validateOfficialOfferExtraction envelope edition context).candidates,
    .scopeMismatch ∈ result.2.anomalyCodes ↔ .scopeMismatch ∈ result.1.anomalyCodes ∨
      (result.1.geographicScope.IsKnown ∧
        ¬ SameGeographicScope result.1.geographicScope edition.declaredGeographicScope)

/-- A mismatch is raised when the scope is known and its text is another than that of the
edition. -/
theorem scopeMismatch_mem_raisedAnomalies {candidates : List ExtractedOfficialOfferCandidate}
    {candidate : ExtractedOfficialOfferCandidate} :
    .scopeMismatch ∈ raisedAnomalies candidates edition context candidate ↔
      candidate.geographicScope.IsKnown ∧ geographicScopeKey candidate.geographicScope ≠
        geographicScopeKey edition.declaredGeographicScope := by
  have hscope : .scopeMismatch ∈ scopeAnomalies edition candidate.geographicScope ↔
      candidate.geographicScope.IsKnown ∧ geographicScopeKey candidate.geographicScope ≠
        geographicScopeKey edition.declaredGeographicScope := by
    cases candidate.geographicScope with
    | unknown reason => exact iff_of_false (by simp [scopeAnomalies]) fun h => h.1
    | _ => simp [scopeAnomalies, GeographicScope.IsKnown]
  have hproduct : AnomalyCode.scopeMismatch ∉ productAnomalies context candidate.product := by
    cases candidate.product with
    | exactIdentifier value =>
      rw [productAnomalies]
      split_ifs
      all_goals simp
    | unresolvedLabel label brand => simp [productAnomalies]
  unfold raisedAnomalies
  cases candidate.validity <;> cases candidate.package <;> simp [hscope, hproduct]

/-- **What is recorded of the scope.** A mismatch is recorded when the extractor gave it, or when
the scope is known and its text is another than that of the edition. -/
theorem scopeMismatch_mem_candidateAnomalies {candidates : List ExtractedOfficialOfferCandidate}
    {candidate : ExtractedOfficialOfferCandidate} :
    .scopeMismatch ∈ candidateAnomalies candidates edition context candidate ↔
      .scopeMismatch ∈ candidate.anomalyCodes ∨
        (candidate.geographicScope.IsKnown ∧ geographicScopeKey candidate.geographicScope ≠
          geographicScopeKey edition.declaredGeographicScope) := by
  rw [mem_candidateAnomalies, scopeMismatch_mem_raisedAnomalies]

/-- A candidate is an exact match when it has no anomaly. -/
theorem candidateAnomalies_eq_nil_of_exactMatch {anomalies : List AnomalyCode}
    (h : dispositionOf anomalies = .exactMatch) : anomalies = [] := by
  unfold dispositionOf at h
  split_ifs at h with hrejected hpositive
  exact List.length_eq_zero_iff.mp (Nat.le_zero.mp (Nat.not_lt.mp hpositive))

/-- A product without an anomaly is the only one of its GTIN. -/
theorem exists_product_of_productAnomalies_eq_nil {product : ExtractedProduct}
    (h : productAnomalies context product = []) :
    ∃ gtin id, product = .exactIdentifier gtin ∧ (gtin, [id]) ∈ context.exactProductIdsByGtin := by
  cases product with
  | exactIdentifier gtin =>
    rw [productAnomalies] at h
    split_ifs at h with hone
    obtain ⟨id, hid⟩ := List.length_eq_one_iff.mp hone
    refine ⟨gtin, id, rfl, ?_⟩
    unfold lookup at hid
    cases hfind : context.exactProductIdsByGtin.find? fun e => e.1 = gtin with
    | none =>
      rw [hfind] at hid
      exact absurd hid (by simp)
    | some entry =>
      rw [hfind, Option.map_some, Option.getD_some] at hid
      have hfound := List.find?_some hfind
      have hkey : entry.1 = gtin := of_decide_eq_true hfound
      have hmem := List.mem_of_find?_eq_some hfind
      rwa [← hkey, ← hid]
  | unresolvedLabel label brand => exact absurd h (List.cons_ne_nil _ _)

/-- **An exact match is one**, when the scope of the candidate is told apart from that of the
edition. -/
theorem isExactMatch_of_exactMatch {candidate : ExtractedOfficialOfferCandidate}
    (hmem : candidate ∈ envelope.candidates)
    (hscope : GeographicScopeSchema candidate.geographicScope)
    (hdeclared : GeographicScopeSchema edition.declaredGeographicScope)
    (happart : ListsAreToldApart candidate.geographicScope edition.declaredGeographicScope)
    (h : (validatedCandidate envelope.candidates edition context candidate).disposition =
      .exactMatch) : IsExactMatch envelope edition context candidate := by
  have hnil := candidateAnomalies_eq_nil_of_exactMatch h
  have hraised : raisedAnomalies envelope.candidates edition context candidate = [] :=
    List.eq_nil_iff_forall_not_mem.mpr fun code hcode => by
      have hrecorded := mem_candidateAnomalies.mpr (Or.inr hcode)
      rw [hnil] at hrecorded
      exact absurd hrecorded List.not_mem_nil
  simp only [raisedAnomalies, List.append_eq_nil_iff, ite_eq_right_iff, List.cons_ne_nil,
    imp_false] at hraised
  obtain ⟨⟨⟨⟨⟨⟨⟨⟨hkey, hoffer⟩, -⟩, hreadable⟩, hinside⟩, -⟩, hplace⟩, -⟩, hproduct⟩ := hraised
  have hkeyPos := List.count_pos_iff.mpr
    (List.mem_map_of_mem (f := fun c : ExtractedOfficialOfferCandidate => c.candidateKey) hmem)
  have hofferPos := List.count_pos_iff.mpr (List.mem_map_of_mem (f := candidateSignature) hmem)
  have hsame : SameGeographicScope candidate.geographicScope edition.declaredGeographicScope := by
    have hknown : candidate.geographicScope.IsKnown := by
      cases hkind : candidate.geographicScope with
      | unknown reason =>
        rw [hkind] at hplace
        exact absurd hplace (List.cons_ne_nil _ _)
      | _ => trivial
    refine ((geographicScopeKey_eq_iff hscope hdeclared hknown).mpr happart).mp
      (not_not.mp fun hne => ?_)
    have hmismatch : .scopeMismatch ∈
        candidateAnomalies envelope.candidates edition context candidate :=
      scopeMismatch_mem_candidateAnomalies.mpr (.inr ⟨hknown, hne⟩)
    rw [hnil] at hmismatch
    exact absurd hmismatch List.not_mem_nil
  refine ⟨by omega, by omega, exists_product_of_productAnomalies_eq_nil hproduct, ?_, hsame⟩
  cases hvalidity : candidate.validity with
  | parsed startsAt endsAt =>
    rw [hvalidity, ValidityIsOutside, not_or, not_lt, not_lt] at hinside
    exact ⟨startsAt, endsAt, rfl, hinside⟩
  | unreadable reason =>
    rw [hvalidity] at hreadable
    exact absurd hreadable (List.cons_ne_nil _ _)

/-- What is promised of every candidate, in terms of its classification. -/
theorem forall_results_iff
    {P : ExtractedOfficialOfferCandidate × ValidatedOfficialOfferCandidate → Prop} :
    (∀ result ∈ envelope.candidates.zip
        (validateOfficialOfferExtraction envelope edition context).candidates, P result) ↔
      (Classifies envelope edition context → ∀ candidate ∈ envelope.candidates,
        P (candidate, validatedCandidate envelope.candidates edition context candidate)) := by
  rw [validate_candidates]
  by_cases hclassifies : Classifies envelope edition context
  · rw [if_pos hclassifies, ← List.map_prod_left_eq_zip, List.forall_mem_map]
    exact ⟨fun h _ => h, fun h => h hclassifies⟩
  · rw [if_neg hclassifies, List.zip_nil_right]
    exact iff_of_true (fun _ h => absurd h List.not_mem_nil) fun h => absurd h hclassifies

/-- **The promise is kept if and only if scopes are told apart**: those of the candidates from that
of the edition, wherever the extractor has not recorded the mismatch itself.

**Proof sketch.** Everything else is promised of every extraction. A mismatch that the extractor has
not recorded is recorded when the texts of the scopes differ, which is when the scopes do exactly if
their lists are told apart. -/
theorem validationHolds_iff :
    ValidationHolds envelope edition context ↔
      (Classifies envelope edition context → ∀ candidate ∈ envelope.candidates,
        .scopeMismatch ∉ candidate.anomalyCodes →
          ListsAreToldApart candidate.geographicScope edition.declaredGeographicScope) := by
  constructor
  · rintro ⟨-, -, -, -, -, -, hmismatch⟩ hclassifies candidate hmem hnot
    have hiff := forall_results_iff.mp hmismatch hclassifies candidate hmem
    rw [show (validatedCandidate envelope.candidates edition context candidate).anomalyCodes =
        candidateAnomalies envelope.candidates edition context candidate from rfl,
      scopeMismatch_mem_candidateAnomalies, or_iff_right hnot, or_iff_right hnot] at hiff
    cases hkind : candidate.geographicScope with
    | unknown reason => cases edition.declaredGeographicScope <;> trivial
    | _ =>
      have hknown : candidate.geographicScope.IsKnown := by
        rw [hkind]
        trivial
      rw [and_iff_right hknown, and_iff_right hknown, not_iff_not] at hiff
      rw [← hkind]
      exact (geographicScopeKey_eq_iff (hclassifies.1.candidates candidate hmem).geographicScope
        hclassifies.2.1.declaredGeographicScope hknown).mp hiff
  · intro happart
    have hschemas (hclassifies : Classifies envelope edition context)
        (candidate : ExtractedOfficialOfferCandidate) (hmem : candidate ∈ envelope.candidates) :=
      (hclassifies.1.candidates candidate hmem).geographicScope
    refine
      { neverThrows := ?_
        counts := validate_counts
        partition := ?_
        permuted := fun candidates' hperm => validate_perm hperm
        again := by rw [validate_normalized]
        exactMatch := ?_
        scopeMismatch := ?_ }
    · rw [validate_candidates]
      split_ifs with hclassifies
      · exact List.forall_mem_map.mpr fun candidate hmem =>
          schema_validatedCandidate (hclassifies.1.candidates candidate hmem)
      · exact fun _ h => absurd h List.not_mem_nil
    · rw [validate_counts]
      exact countsOf_sum _
    · refine forall_results_iff.mpr fun hclassifies candidate hmem hexact => ?_
      have hnot : AnomalyCode.scopeMismatch ∉ candidate.anomalyCodes := by
        intro hcode
        have hrecorded : .scopeMismatch ∈
            candidateAnomalies envelope.candidates edition context candidate :=
          scopeMismatch_mem_candidateAnomalies.mpr (.inl hcode)
        rw [candidateAnomalies_eq_nil_of_exactMatch hexact] at hrecorded
        exact absurd hrecorded List.not_mem_nil
      exact isExactMatch_of_exactMatch hmem (hschemas hclassifies candidate hmem)
        hclassifies.2.1.declaredGeographicScope (happart hclassifies candidate hmem hnot) hexact
    · refine forall_results_iff.mpr fun hclassifies candidate hmem => ?_
      refine scopeMismatch_mem_candidateAnomalies.trans ?_
      by_cases hcode : AnomalyCode.scopeMismatch ∈ candidate.anomalyCodes
      · exact iff_of_true (.inl hcode) (.inl hcode)
      · rw [or_iff_right hcode, or_iff_right hcode]
        refine and_congr_right fun hknown => not_congr ?_
        exact (geographicScopeKey_eq_iff (hschemas hclassifies candidate hmem)
          hclassifies.2.1.declaredGeographicScope hknown).mpr
            (happart hclassifies candidate hmem hcode)

end Promise

namespace ScopeExample

/-- A week of offers of the stores `a` and `b`. -/
def edition : OfficialOfferEdition :=
  { catalogEdition with declaredGeographicScope := .stores [js "a", js "b"] }

/-- An offer of the one store `a,b`. -/
def candidate : ExtractedOfficialOfferCandidate where
  candidateKey := js "offer-1"
  product := .exactIdentifier (js "70000011")
  package := .parsed 500 .g 1
  pricing := .unit 1990 none
  eligibility := .publicEligibility
  validity := .parsed 1782684000000 1783288800000
  geographicScope := .stores [js "a,b"]
  channels := [.inStore]
  provenance := ⟨.structured, js "row-1", 100⟩
  anomalyCodes := []

/-- The extraction of that offer. -/
def envelope : OfficialOfferExtractionEnvelope where
  captureChecksumSha256 := List.replicate 64 48
  extractorVersion := js "catalog-1"
  method := .structured
  layoutFingerprintSha256 := List.replicate 64 48
  schemaFingerprintSha256 := List.replicate 64 48
  startedAt := 1782907200000
  completedAt := 1782907201000
  emptyResult := .notEmpty
  emptyConfirmation := none
  candidates := [candidate]

/-- One canonical product has the GTIN of the offer. -/
def context : OfficialOfferExtractionValidationContext where
  expectedLayoutFingerprintsSha256 := [List.replicate 64 48]
  expectedSchemaFingerprintSha256 := List.replicate 64 48
  exactProductIdsByGtin := [(js "70000011", [js "product-1"])]

theorem classifies : Classifies envelope edition context := by decide +kernel

end ScopeExample

open ScopeExample in
/-- **An offer of a store `a,b` is an exact match of an edition of the stores `a` and `b`.** -/
theorem not_validationHolds_comma : ¬ ValidationHolds envelope edition context := by
  intro h
  have hexact := forall_results_iff.mp h.exactMatch classifies candidate List.mem_cons_self
  have hscope : SameGeographicScope candidate.geographicScope edition.declaredGeographicScope :=
    (hexact (by decide +kernel)).scope
  exact absurd ((hscope (js "a")).mpr List.mem_cons_self) (by decide)

end Handleplan
