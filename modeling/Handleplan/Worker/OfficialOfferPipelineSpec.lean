import Handleplan.Worker.OfficialOfferPipeline

/-!
# Authorization precedes every effect of the pipeline

Whatever the policy, the ports, the clock and the signal answer, each effect of the pipeline follows
a positive decision that no other effect separates from it.

## Main definitions

* `Pipeline.Authorized` — a positive decision since the last effect.
* `Pipeline.Permitted` — what each effect needs of the history before it.
* `Pipeline.EffectIsAuthorized` — an effect comes after no negative decision, and is
  permitted.

## Main results

* `Pipeline.safe_assertAuthorized` — what an assertion of the policy adds to the history.
* `Pipeline.authorization_precedes_effects` — every effect of the pipeline, in every
  environment.
* `Pipeline.not_authorized_extract_for_private_review` — an extractor call whose decision
  does not cover the rights classification of the input.

## Design

Safety is proved along the program with one lemma for each of its parts. A part says what it adds to
the history: an assertion adds events without an effect and a decision among them, so that the
decision is one since the last effect whatever was asked before.
-/

namespace Handleplan.Pipeline

open JsString Interaction Prog

/-! ### Histories -/

/-- A question and its answer. -/
abbrev PipelineEvent := Event Query Answer

/-- What was asked and answered. -/
abbrev PipelineHistory := History Query Answer

/-- The effects of the pipeline. -/
def IsEffect : Query → Prop
  | .recordEdition _ _ => True
  | .putIfAbsent _ => True
  | .recordCapture _ _ _ => True
  | .extract _ _ => True
  | .recordExtraction _ => True
  | _ => False

/-- A decision of the policy that is positive for what was asked, and covers a rights
classification. -/
def IsDecision (sourceId : JsString) (capability : AuthorizationCapability)
    (rights : Option RightsClassification) (event : PipelineEvent) : Prop :=
  ∃ asked asOf fence, event = ⟨.getDecision sourceId capability asked asOf, some fence⟩ ∧
    IsPositive sourceId capability asOf fence ∧ Covers rights fence

/-- A decision of the policy that is not positive for what was asked, or does not cover the rights
classification. -/
def IsNegative (event : PipelineEvent) : Prop :=
  ∃ sourceId capability rights asOf, ∃ answer : Option OfficialOfferAuthorizationFence,
    event = ⟨.getDecision sourceId capability rights asOf, answer⟩ ∧
      ¬ ∃ fence ∈ answer, IsPositive sourceId capability asOf fence ∧ Covers rights fence

/-- **A positive decision since the last effect.** -/
def Authorized (sourceId : JsString) (capability : AuthorizationCapability)
    (rights : Option RightsClassification) (h : PipelineHistory) : Prop :=
  ∃ before event after, h = before ++ event :: after ∧
    IsDecision sourceId capability rights event ∧ ∀ e ∈ after, ¬ IsEffect e.query

/-- No decision so far was negative. -/
def NoneNegative (h : PipelineHistory) : Prop := ∀ event ∈ h, ¬ IsNegative event

/-- An extractor has answered that it is unavailable. -/
def AnsweredUnavailable (extractor : Extractor) (h : PipelineHistory) : Prop :=
  ∃ event ∈ h, ∃ input reason, event = ⟨.extract extractor input, some (.unavailable reason)⟩

/-- Bytes with a checksum are stored: they were written, and the store answered with that
checksum. -/
def StoredWith (bytes : List UInt8) (checksum : JsString) (h : PipelineHistory) : Prop :=
  ∃ event ∈ h, ∃ write result, event = ⟨.putIfAbsent write, some result⟩ ∧ write.bytes = bytes ∧
    write.checksumSha256 = checksum ∧ result.checksumSha256 = checksum

section

variable (sha256 : List UInt8 → JsString) (options : PipelineOptions) (input : PipelineInput)

/-- What each effect needs of the history before it: a decision since the last effect for its
capability, and for its rights classification where it stores something; that every extractor but
OCR is unavailable before OCR runs; and that the envelope is of the bytes that are stored. -/
def Permitted (h : PipelineHistory) : Query → Prop
  | .recordEdition edition _ => Authorized edition.sourceId .discover none h
  | .putIfAbsent write =>
    Authorized input.edition.sourceId .capture (some write.rightsClassification) h
  | .recordCapture metadata _ _ =>
    Authorized metadata.sourceId .capture (some metadata.rightsClassification) h
  | .extract extractor _ => Authorized input.edition.sourceId .extract none h ∧
      (extractor.method = .ocr → Authorized input.edition.sourceId .ocr none h ∧
        ∀ other ∈ options.nonOcrExtractors, AnsweredUnavailable other h)
  | .recordExtraction record =>
    Authorized record.edition.sourceId .extract (some input.rightsClassification) h ∧
      (record.envelope.method = .ocr →
        Authorized record.edition.sourceId .ocr (some input.rightsClassification) h) ∧
      record.envelope.captureChecksumSha256 = sha256 input.bytes ∧
      StoredWith input.bytes (sha256 input.bytes) h
  | _ => True

/-- **An effect is authorized**: no decision before it was negative, and it is permitted. -/
def EffectIsAuthorized (h : PipelineHistory) (query : Query) : Prop :=
  IsEffect query → NoneNegative h ∧ Permitted sha256 options input h query

end

/-! ### What is added to a history -/

/-- Events without an effect and without a negative decision. -/
def Quiet (events : PipelineHistory) : Prop :=
  ∀ event ∈ events, ¬ IsEffect event.query ∧ ¬ IsNegative event

variable {h events : PipelineHistory} {sourceId : JsString} {capability : AuthorizationCapability}
  {rights : Option RightsClassification}

theorem Quiet.append {later : PipelineHistory} (hquiet : Quiet events) (hlater : Quiet later) :
    Quiet (events ++ later) :=
  fun event hevent => (List.mem_append.mp hevent).elim (hquiet event) (hlater event)

theorem NoneNegative.append (hh : NoneNegative h) (hquiet : Quiet events) :
    NoneNegative (h ++ events) :=
  fun event hevent => (List.mem_append.mp hevent).elim (hh event) fun hin => (hquiet event hin).2

/-- A decision remains one since the last effect while there is no effect. -/
theorem Authorized.append (hauthorized : Authorized sourceId capability rights h)
    (hquiet : Quiet events) : Authorized sourceId capability rights (h ++ events) := by
  obtain ⟨before, event, after, rfl, hdecision, hafter⟩ := hauthorized
  refine ⟨before, event, after ++ events, by simp, hdecision, fun e he => ?_⟩
  exact (List.mem_append.mp he).elim (hafter e) fun hin => (hquiet e hin).1

/-- A decision among the last events is one since the last effect. -/
theorem Authorized.prepend (hauthorized : Authorized sourceId capability rights events) :
    Authorized sourceId capability rights (h ++ events) := by
  obtain ⟨before, event, after, rfl, hdecision, hafter⟩ := hauthorized
  exact ⟨h ++ before, event, after, by simp, hdecision, hafter⟩

theorem AnsweredUnavailable.append {extractor : Extractor}
    (hunavailable : AnsweredUnavailable extractor h) :
    AnsweredUnavailable extractor (h ++ events) := by
  obtain ⟨event, hevent, hanswer⟩ := hunavailable
  exact ⟨event, List.mem_append_left _ hevent, hanswer⟩

theorem StoredWith.append {bytes : List UInt8} {checksum : JsString}
    (hstored : StoredWith bytes checksum h) : StoredWith bytes checksum (h ++ events) := by
  obtain ⟨event, hevent, hanswer⟩ := hstored
  exact ⟨event, List.mem_append_left _ hevent, hanswer⟩

/-- A positive decision that covers what is asked for is neither an effect nor negative. -/
theorem quiet_decision {asOf : ℤ} {fence : OfficialOfferAuthorizationFence}
    (hpositive : IsPositive sourceId capability asOf fence) (hcovers : Covers rights fence) :
    Quiet [⟨.getDecision sourceId capability rights asOf, some fence⟩] := by
  intro event hevent
  rw [List.mem_singleton.mp hevent]
  refine ⟨id, fun ⟨_, _, _, _, _, heq, hnot⟩ => ?_⟩
  cases heq
  exact hnot ⟨fence, rfl, hpositive, hcovers⟩

/-! ### The parts that only ask -/

section Parts

variable {allowed : PipelineHistory → Query → Prop}

/-- A condition that is required holds afterwards. -/
theorem safe_require {p : Prop} [Decidable p] {code : WorkerError}
    {post : PipelineHistory → Unit → Prop} (hpost : p → post h ()) :
    Safe allowed post h (require p code) := by
  unfold require
  split_ifs with hp
  · exact hpost hp
  · trivial

/-- An answer that is there is used. -/
theorem safe_orThrow {α : Type} {answer : Option α} {code : WorkerError}
    {post : PipelineHistory → α → Prop} (hpost : ∀ a, answer = some a → post h a) :
    Safe allowed post h (orThrow code answer) := by
  cases answer with
  | none => trivial
  | some a => exact hpost a rfl

variable (hquiet : ∀ h query, ¬ IsEffect query → allowed h query)

include hquiet

/-- The signal is read. -/
theorem safe_throwIfCancelled {post : PipelineHistory → Unit → Prop}
    (hpost : ∀ events, Quiet events → post (h ++ events) ()) :
    Safe allowed post h throwIfCancelled := by
  refine Safe.bind (Safe.query (hquiet _ _ id) fun (aborted : Bool) => safe_require fun _ => ?_)
  refine hpost _ fun event hevent => ?_
  rw [List.mem_singleton.mp hevent]
  exact ⟨id, fun ⟨_, _, _, _, _, heq, _⟩ => by cases heq⟩

/-- The clock is read. -/
theorem safe_canonicalNow {post : PipelineHistory → ℤ → Prop}
    (hpost : ∀ events now, Quiet events → post (h ++ events) now) :
    Safe allowed post h canonicalNow := by
  refine Safe.bind (Safe.query (hquiet _ _ id) fun now => safe_orThrow fun now _ => ?_)
  refine hpost _ _ fun event hevent => ?_
  rw [List.mem_singleton.mp hevent]
  exact ⟨id, fun ⟨_, _, _, _, _, heq, _⟩ => by cases heq⟩

/-- **What an assertion of the policy adds**: events without an effect or a negative decision, and
among them a decision that is positive and covers the rights classification. -/
theorem safe_assertAuthorized {edition : OfficialOfferEdition}
    {post : PipelineHistory → OfficialOfferAuthorizationFence → Prop}
    (hpost : ∀ events fence, Quiet events →
      Authorized edition.sourceId capability rights events → post (h ++ events) fence) :
    Safe allowed post h (assertAuthorized edition capability rights) := by
  refine Safe.bind (safe_canonicalNow hquiet fun first now hfirst => ?_)
  refine Safe.bind (safe_require fun _ => ?_)
  refine Safe.bind (Safe.bind (safe_throwIfCancelled hquiet fun second hsecond => ?_))
  refine Safe.bind (safe_canonicalNow hquiet fun third asOf hthird => ?_)
  refine Safe.bind (Safe.query (hquiet _ _ id) fun answer => ?_)
  refine Safe.bind (safe_orThrow fun fence hfence => ?_)
  refine Safe.bind (safe_throwIfCancelled hquiet fun last hlast => ?_)
  refine Safe.bind (safe_require fun hpositive => ?_)
  refine Safe.bind (safe_require fun hcovers => ?_)
  obtain rfl : answer = some fence := hfence
  have hdecision := quiet_decision hpositive hcovers
  have hevents : ∀ event : PipelineEvent, h ++ first ++ second ++ third ++ [event] ++ last =
      h ++ (first ++ second ++ third ++ [event] ++ last) := fun event => by simp
  refine hevents _ ▸ hpost _ _
    ((((hfirst.append hsecond).append hthird).append hdecision).append hlast) ?_
  exact ⟨first ++ second ++ third, ⟨.getDecision _ _ rights _, _⟩, last, by simp,
    ⟨rights, asOf, fence, rfl, hpositive, hcovers⟩, fun e he => (hlast e he).1⟩

end Parts

/-! ### The parts with effects -/

section Effects

variable {sha256 : List UInt8 → JsString} {sha256Text : JsString → JsString}
  {options : PipelineOptions} {input : PipelineInput}

/-- What is not an effect is always allowed. -/
theorem effectIsAuthorized_of_not (sha256 : List UInt8 → JsString) (options : PipelineOptions)
    (input : PipelineInput) (h : PipelineHistory) (query : Query) (hnot : ¬ IsEffect query) :
    EffectIsAuthorized sha256 options input h query := fun heffect => absurd heffect hnot

/-- An effect is not a decision of the policy. -/
theorem NoneNegative.effect (hh : NoneNegative h) {event : PipelineEvent}
    (heffect : IsEffect event.query) : NoneNegative (h ++ [event]) := by
  intro other hother
  obtain hin | hlast := List.mem_append.mp hother
  · exact hh other hin
  · obtain rfl := List.mem_singleton.mp hlast
    rintro ⟨_, _, _, _, _, rfl, -⟩
    exact heffect

theorem safe_recordEditionFirst {post : PipelineHistory → ℕ → Prop} (hh : NoneNegative h)
    (hpost : ∀ h' publicationId, NoneNegative h' → post h' publicationId) :
    Safe (EffectIsAuthorized sha256 options input) post h (recordEditionFirst input) := by
  have hquiet := effectIsAuthorized_of_not sha256 options input
  refine Safe.bind (safe_assertAuthorized hquiet fun events fence hevents hauthorized => ?_)
  have hnone := hh.append hevents
  refine Safe.bind (Safe.query (fun _ => ⟨hnone, hauthorized.prepend⟩) fun (answer : Option ℕ) => ?_)
  refine Safe.bind (safe_orThrow fun publicationId _ => ?_)
  refine Safe.bind (safe_require fun _ => ?_)
  refine Safe.bind (safe_throwIfCancelled hquiet fun later hlater => ?_)
  exact hpost _ _ ((hnone.effect (by trivial)).append hlater)

/-- The bytes are stored with their checksum, and the metadata that goes on has that checksum. -/
theorem safe_storeAndRecordCapture {publicationId : ℕ}
    {post : PipelineHistory → ExtractionInput × BlobWriteResult → Prop} (hh : NoneNegative h)
    (hpost : ∀ h' stored, NoneNegative h' → StoredWith input.bytes (sha256 input.bytes) h' →
      stored.1.captureMetadata.checksumSha256 = sha256 input.bytes → post h' stored) :
    Safe (EffectIsAuthorized sha256 options input) post h
      (storeAndRecordCapture sha256 sha256Text input publicationId) := by
  have hquiet := effectIsAuthorized_of_not sha256 options input
  refine Safe.bind (safe_assertAuthorized hquiet fun first _ hfirst _ => ?_)
  refine Safe.bind (safe_assertAuthorized hquiet fun second _ hsecond hcapture => ?_)
  refine Safe.bind (safe_require fun _ => ?_)
  refine Safe.bind (safe_canonicalNow hquiet fun clock retrievedAt hclock => ?_)
  refine Safe.bind (safe_require fun _ => ?_)
  -- the bytes are written under the decision for the capture
  have hnone := ((hh.append hfirst).append hsecond).append hclock
  refine Safe.bind (Safe.query (fun _ => ⟨hnone, hcapture.prepend.append hclock⟩)
    fun (answer : Option BlobWriteResult) => ?_)
  refine Safe.bind (safe_orThrow fun blobWrite hanswer => ?_)
  refine Safe.bind (safe_throwIfCancelled hquiet fun third hthird => ?_)
  refine Safe.bind (safe_require fun hblob => ?_)
  refine Safe.bind (safe_assertAuthorized hquiet fun fourth authorization hfourth hcapture => ?_)
  -- the capture is recorded under a decision after the write
  refine Safe.bind (Safe.query
    (fun _ => ⟨((hnone.effect (by trivial)).append hthird).append hfourth, hcapture.prepend⟩)
    fun (receipt : Option CaptureReceipt) => ?_)
  refine Safe.bind (safe_orThrow fun capture _ => ?_)
  refine Safe.bind (safe_require fun _ => ?_)
  refine Safe.bind (safe_require fun _ => ?_)
  refine Safe.bind (safe_throwIfCancelled hquiet fun fifth hfifth => ?_)
  refine Safe.bind (safe_assertAuthorized hquiet fun last _ hlast _ => ?_)
  refine hpost _ _ (((NoneNegative.effect
    (((hnone.effect (by trivial)).append hthird).append hfourth) (by trivial)).append
    hfifth).append hlast) ?_ rfl
  refine StoredWith.append (StoredWith.append (StoredWith.append (StoredWith.append
    (StoredWith.append ?_))))
  exact ⟨_, List.mem_append_right _ List.mem_cons_self, _, blobWrite, by rw [hanswer], rfl, rfl,
    hblob.2.1⟩

variable {extraction : ExtractionInput}

/-- An extractor that returns without an envelope has answered that it is unavailable. -/
theorem safe_runExtractor {extractor : Extractor}
    {post : PipelineHistory → Option OfficialOfferExtractionEnvelope → Prop} (hh : NoneNegative h)
    (hocr : extractor.method = .ocr → Authorized input.edition.sourceId .ocr none h ∧
      ∀ other ∈ options.nonOcrExtractors, AnsweredUnavailable other h)
    (hpost : ∀ later outcome, NoneNegative (h ++ later) →
      (outcome = none → AnsweredUnavailable extractor (h ++ later)) → post (h ++ later) outcome) :
    Safe (EffectIsAuthorized sha256 options input) post h
      (runExtractor extractor input.edition extraction) := by
  have hquiet := effectIsAuthorized_of_not sha256 options input
  refine Safe.bind (safe_assertAuthorized hquiet fun first _ hfirst hextract => ?_)
  have hnone := hh.append hfirst
  refine Safe.bind (Safe.query (fun _ => ⟨hnone, hextract.prepend, fun hmethod =>
    ⟨(hocr hmethod).1.append hfirst, fun other hother => ((hocr hmethod).2 other hother).append⟩⟩)
    fun (answer : Option ExtractorOutcome) => ?_)
  refine Safe.bind (safe_orThrow fun outcome hanswer => ?_)
  refine Safe.bind (safe_throwIfCancelled hquiet fun second hsecond => ?_)
  refine Safe.bind (safe_assertAuthorized hquiet fun third _ hthird _ => ?_)
  have hnone : NoneNegative
      (h ++ first ++ [⟨.extract extractor extraction, answer⟩] ++ second ++ third) :=
    ((hnone.effect (by trivial)).append hsecond).append hthird
  have hlater : h ++ first ++ [⟨.extract extractor extraction, answer⟩] ++ second ++ third =
      h ++ (first ++ [⟨.extract extractor extraction, answer⟩] ++ second ++ third) := by simp
  rw [hlater] at hnone ⊢
  cases outcome with
  | available envelope => exact hpost _ _ hnone fun heq => by cases heq
  | malformed => trivial
  | unavailable reason =>
    refine Safe.bind (safe_require fun _ => hpost _ _ hnone fun _ => ?_)
    obtain rfl : answer = some (.unavailable reason) := hanswer
    exact ⟨_, by simp, extraction, reason, rfl⟩

/-- When none of the extractors is available, each has answered so.

**Proof sketch.** Induction on the extractors: one that is unavailable adds its answer to the
history, and the answers before it stay there. -/
theorem safe_firstAvailable {extractors : List Extractor}
    {post : PipelineHistory → Option (Extractor × OfficialOfferExtractionEnvelope) → Prop}
    (hh : NoneNegative h) (hmethod : ∀ extractor ∈ extractors, extractor.method ≠ .ocr)
    (hpost : ∀ later found, NoneNegative (h ++ later) →
      (found = none → ∀ extractor ∈ extractors, AnsweredUnavailable extractor (h ++ later)) →
      post (h ++ later) found) :
    Safe (EffectIsAuthorized sha256 options input) post h
      (firstAvailable input.edition extraction extractors) := by
  induction extractors generalizing h with
  | nil =>
    have hnil := hpost [] none (by simpa using hh) fun _ extractor hextractor => by cases hextractor
    rw [List.append_nil] at hnil
    exact hnil
  | cons extractor extractors ih =>
    refine Safe.bind (safe_runExtractor hh
      (fun hocr => absurd hocr (hmethod extractor List.mem_cons_self))
      fun later outcome hnone hunavailable => ?_)
    cases outcome with
    | some envelope => exact hpost later _ hnone fun heq => by cases heq
    | none =>
      refine ih hnone (fun other hother => hmethod other (List.mem_cons_of_mem _ hother))
        fun rest found hnone' hothers => ?_
      rw [List.append_assoc] at hnone' hothers ⊢
      refine hpost _ found hnone' fun hfound other hother => ?_
      obtain rfl | hother := List.mem_cons.mp hother
      · rw [← List.append_assoc]
        exact (hunavailable rfl).append
      · exact hothers hfound other hother

/-- OCR runs after its own decision, when every other extractor is unavailable. -/
theorem safe_runOcr {post : PipelineHistory → Extractor × OfficialOfferExtractionEnvelope → Prop}
    (hh : NoneNegative h)
    (hunavailable : ∀ other ∈ options.nonOcrExtractors, AnsweredUnavailable other h)
    (hpost : ∀ later found, NoneNegative (h ++ later) → post (h ++ later) found) :
    Safe (EffectIsAuthorized sha256 options input) post h
      (runOcr options input.edition extraction) := by
  have hquiet := effectIsAuthorized_of_not sha256 options input
  unfold runOcr
  cases options.ocrExtractor with
  | none => trivial
  | some ocr =>
    show Safe _ _ _ (if _ then _ else _)
    split_ifs
    · refine Safe.bind (safe_assertAuthorized hquiet fun first _ hfirst hauthorized => ?_)
      refine Safe.bind (safe_runExtractor (hh.append hfirst) (fun _ => ⟨hauthorized.prepend,
        fun other hother => (hunavailable other hother).append⟩)
        fun later outcome hnone _ => ?_)
      cases outcome with
      | none => trivial
      | some envelope =>
        rw [List.append_assoc] at hnone ⊢
        exact hpost _ _ hnone
    · trivial

/-- The extractors before OCR are not OCR. -/
theorem method_ne_ocr (extractor : Extractor) (h : extractor ∈ options.nonOcrExtractors) :
    extractor.method ≠ .ocr := by
  obtain rfl | hembedded := List.mem_cons.mp h
  · rw [options.structured]
    exact ExtractionMethod.noConfusion
  · rw [options.embeddedText extractor (Option.mem_toList.mp hembedded)]
    exact ExtractionMethod.noConfusion

theorem safe_extractStructuredFirst
    {post : PipelineHistory → Extractor × OfficialOfferExtractionEnvelope → Prop}
    (hh : NoneNegative h)
    (hpost : ∀ later found, NoneNegative (h ++ later) → post (h ++ later) found) :
    Safe (EffectIsAuthorized sha256 options input) post h
      (extractStructuredFirst options input.edition extraction) := by
  refine Safe.bind (safe_firstAvailable hh method_ne_ocr fun later found hnone hunavailable => ?_)
  cases found with
  | some found => exact hpost later found hnone
  | none =>
    refine safe_runOcr hnone (hunavailable rfl) fun rest found hnone => ?_
    rw [List.append_assoc] at hnone ⊢
    exact hpost _ found hnone

/-- An OCR extraction has a decision for OCR among the events that its authorization adds. -/
theorem safe_ocrAuthorizationOf {method : ExtractionMethod}
    {post : PipelineHistory → Option OfficialOfferAuthorizationFence → Prop}
    (hpost : ∀ events fence, Quiet events →
      (method = .ocr →
        Authorized input.edition.sourceId .ocr (some input.rightsClassification) events) →
      post (h ++ events) fence) :
    Safe (EffectIsAuthorized sha256 options input) post h (ocrAuthorizationOf input method) := by
  have hquiet := effectIsAuthorized_of_not sha256 options input
  unfold ocrAuthorizationOf
  split_ifs with hmethod
  · refine Safe.bind (safe_assertAuthorized hquiet fun events fence hevents hauthorized => ?_)
    exact hpost events _ hevents fun _ => hauthorized
  · have hnil := hpost [] none (fun event hevent => by cases hevent) fun h => absurd h hmethod
    rw [List.append_nil] at hnil
    exact hnil

/-- Nothing is recorded without a right to it. -/
theorem safe_resolveAndRecord {envelope : OfficialOfferExtractionEnvelope} {serverStartedAt : ℤ}
    {post : PipelineHistory → PipelineReceipt → Prop} (hh : NoneNegative h)
    (hstored : StoredWith input.bytes (sha256 input.bytes) h)
    (hchecksum : envelope.captureChecksumSha256 = sha256 input.bytes)
    (hpost : ∀ h' receipt, post h' receipt) :
    Safe (EffectIsAuthorized sha256 options input) post h
      (resolveAndRecord options input extraction envelope serverStartedAt) := by
  have hquiet := effectIsAuthorized_of_not sha256 options input
  refine Safe.bind (Safe.query (hquiet _ _ id)
    fun (answer : Option (List (JsString × List JsString))) => ?_)
  have hresolved : Quiet [⟨.resolveGtins (requestedGtins envelope.candidates), answer⟩] :=
    fun event hevent => by
      rw [List.mem_singleton.mp hevent]
      exact ⟨id, fun ⟨_, _, _, _, _, heq, _⟩ => by cases heq⟩
  refine Safe.bind (safe_orThrow fun lookups _ => ?_)
  refine Safe.bind (safe_require fun _ => ?_)
  refine Safe.bind (safe_throwIfCancelled hquiet fun first hfirst => ?_)
  refine Safe.bind (safe_assertAuthorized hquiet fun second _ hsecond hextract => ?_)
  refine Safe.bind (safe_ocrAuthorizationOf fun third _ hthird hocr => ?_)
  refine Safe.bind (safe_canonicalNow hquiet fun clock _ hclock => ?_)
  refine Safe.bind (safe_require fun _ => ?_)
  refine Safe.bind (safe_require fun _ => ?_)
  refine Safe.bind (Safe.query (fun _ => ⟨?_, ?_, ?_, hchecksum, ?_⟩)
    fun (receipt : Option ExtractionReceipt) => ?_)
  · exact ((((hh.append hresolved).append hfirst).append hsecond).append hthird).append hclock
  · exact (hextract.prepend.append hthird).append hclock
  · exact fun hmethod => (hocr hmethod).prepend.append hclock
  · exact hstored.append.append.append.append.append
  · refine Safe.bind (safe_orThrow fun receipt _ => ?_)
    refine Safe.bind (safe_require fun _ => ?_)
    refine Safe.bind (safe_orThrow fun status _ => ?_)
    exact Safe.bind (safe_require fun _ => hpost _ _)

/-- **Authorization precedes every effect**: in every environment, an effect of the pipeline comes
after no negative decision, and after a positive decision for its capability that no other effect
separates from it. The decision covers the rights classification of what is stored; OCR runs only
when every other extractor has answered that it is unavailable; and the recorded envelope has the
checksum with which the bytes were stored.

**Proof sketch.** The parts of the pipeline are safe one after another, from the empty history. What
handles a failure has no effect. -/
theorem authorization_precedes_effects (sha256 : List UInt8 → JsString)
    (sha256Text : JsString → JsString) (options : PipelineOptions) (input : PipelineInput)
    (environment : PipelineHistory → (query : Query) → Answer query) :
    AllAllowed (EffectIsAuthorized sha256 options input)
      ((captureAndExtract sha256 sha256Text options input).run environment []).1 := by
  have hquiet := effectIsAuthorized_of_not sha256 options input
  suffices hsafe : Safe (EffectIsAuthorized sha256 options input) (fun _ _ => True) []
      (captureAndExtract sha256 sha256Text options input) from
    hsafe.of_run allAllowed_nil environment
  refine Safe.rescue ?_ fun h error => Safe.bind (safe_throwIfCancelled hquiet fun _ _ => trivial)
  refine Safe.bind (safe_throwIfCancelled hquiet fun first hfirst => ?_)
  refine Safe.bind (safe_require fun _ => ?_)
  have hnone : NoneNegative ([] ++ first) := fun event hevent => (hfirst event hevent).2
  refine Safe.bind (safe_recordEditionFirst hnone fun h publicationId hnone => ?_)
  refine Safe.bind (safe_storeAndRecordCapture hnone fun h stored hnone hstored hmetadata => ?_)
  refine Safe.bind (safe_canonicalNow hquiet fun clock serverStartedAt hclock => ?_)
  refine Safe.bind (safe_extractStructuredFirst (hnone.append hclock)
    fun later found hnone => ?_)
  refine Safe.bind (safe_require fun hbound => ?_)
  exact safe_resolveAndRecord hnone hstored.append.append (hbound.2.2.2.1.trans hmetadata)
    fun _ _ => trivial

end Effects

/-! ### A decision that does not cover the rights classification -/

/-- A digest that is the same for everything. -/
def sameDigest : JsString := List.replicate 64 48

/-- A pipeline with one extractor. -/
def structuredOptions : PipelineOptions where
  structuredExtractor := ⟨js "layout-v1", .structured⟩
  embeddedTextExtractor := none
  ocrExtractor := none
  expectedLayoutFingerprintsSha256 := [sameDigest]
  expectedSchemaFingerprintSha256 := sameDigest
  structured := rfl
  embeddedText := by simp
  ocr := by simp
  layouts := by decide +kernel
  schema := by decide +kernel

/-- A page of a national catalog, for private review. -/
def privateInput : PipelineInput where
  bytes := [60, 104, 116, 109, 108, 62]
  edition := catalogEdition
  expectedChecksumSha256 := none
  mimeType := js "text/html"
  rightsClassification := .privateReview

/-- What the policy decides at a clock: extraction for public display only, the rest for private
review only. -/
def narrowDecision (sourceId : JsString) (capability : AuthorizationCapability) (asOf : ℤ) :
    OfficialOfferAuthorizationFence where
  permissionId := 1
  sourceId := sourceId
  capabilities := [.capture, .discover, .extract]
  rightsClassifications := if capability = .extract then [.publicDisplay] else [.privateReview]
  reviewedAt := ⟨1782800000000, none⟩
  validUntil := none
  evaluatedAt := ⟨asOf, none⟩

/-- A policy with those decisions, a store that answers what it is given, and an extractor that
throws. -/
def narrowEnvironment : PipelineHistory → (query : Query) → Answer query
  | _, .now => (some 1782907200000 : Option ℤ)
  | _, .aborted => false
  | _, .getDecision sourceId capability _ asOf => some (narrowDecision sourceId capability asOf)
  | _, .recordEdition _ _ => (some 1 : Option ℕ)
  | _, .putIfAbsent write => some (⟨.stored, write.checksumSha256, write.byteLength⟩ :
      BlobWriteResult)
  | _, .recordCapture metadata _ _ => some (⟨1, metadata.retrievedAt⟩ : CaptureReceipt)
  | _, .extract _ _ => (none : Option ExtractorOutcome)
  | _, .resolveGtins _ => (none : Option (List (JsString × List JsString)))
  | _, .recordExtraction _ => (none : Option ExtractionReceipt)

/-- Whether a question is to an extractor. -/
def IsExtract : Query → Prop
  | .extract _ _ => True
  | _ => False

instance : DecidablePred IsExtract := fun query => by
  cases query <;> unfold IsExtract <;> infer_instance

/-- **The decision before an extractor call need not cover the rights classification** of the
input: an extractor reads a capture for private review when extraction is allowed for public
display only.

**Proof sketch.** The run asks an extractor; every decision for extraction in it is the policy's,
which covers public display only. -/
theorem not_authorized_extract_for_private_review :
    ¬ AllAllowed (fun h query => IsExtract query →
        Authorized privateInput.edition.sourceId .extract
          (some privateInput.rightsClassification) h)
      ((captureAndExtract (fun _ => sameDigest) (fun _ => sameDigest) structuredOptions
        privateInput).run narrowEnvironment []).1 := by
  intro hall
  have hextract : ∃ query ∈ ((captureAndExtract (fun _ => sameDigest) (fun _ => sameDigest)
      structuredOptions privateInput).run narrowEnvironment []).1.map Event.query,
      IsExtract query := by decide +kernel
  obtain ⟨query, hquery, hisExtract⟩ := hextract
  obtain ⟨event, hevent, rfl⟩ := List.mem_map.mp hquery
  obtain ⟨before, after, hsplit⟩ := List.append_of_mem hevent
  obtain ⟨earlier, decision, later, rfl, ⟨asked, asOf, fence, rfl, -, hcovers⟩, -⟩ :=
    hall before event after hsplit hisExtract
  have hdecision : (⟨.getDecision privateInput.edition.sourceId .extract asked asOf, some fence⟩ :
      PipelineEvent) ∈ ((captureAndExtract (fun _ => sameDigest) (fun _ => sameDigest)
        structuredOptions privateInput).run narrowEnvironment []).1 := by
    rw [hsplit]
    simp
  obtain ⟨h, hanswer⟩ := answer_of_mem_run hdecision List.not_mem_nil
  obtain rfl : fence = narrowDecision privateInput.edition.sourceId .extract asOf :=
    Option.some.inj hanswer
  exact absurd (hcovers _ rfl) (show RightsClassification.privateReview ∉ [.publicDisplay] by decide)

end Handleplan.Pipeline
