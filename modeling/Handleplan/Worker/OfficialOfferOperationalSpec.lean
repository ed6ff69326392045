import Mathlib.Data.List.Count
import Handleplan.Worker.OfficialOfferOperational

/-!
# What an ingestion run counts

A run of the orchestrator makes a bounded number of attempts, each of them authorized just before,
and captures no edition twice. What it counts is to be what has been captured, wherever it is
stopped.

There is one place where it is not. The signal is checked between the end of a capture and its
count, so that a capture during which the run is cancelled is left out.

## Main definitions

* `OfferIngestionRun.completedCaptures` — the captures of a history, by their status.
* `OfferIngestionRun.Tracks` — that the variables of a run are those of its history.
* `OfferIngestionRun.Accounts` — what a run promises.
* `OfferIngestionRun.CapturesAreCounted` — that no capture is followed by a cancellation.

## Main results

* `OfferIngestionRun.correct_ingestEdition` — what an edition adds to a history.
* `OfferIngestionRun.correct_run` — how a run ends.
* `OfferIngestionRun.accounts_iff` — a run keeps its promise if and only if no capture is
  followed by a cancellation.
-/

namespace Handleplan.OfferIngestionRun

open JsString Interaction Prog

open Pipeline (WorkerError PipelineInput PipelineReceipt)

/-! ### Histories -/

/-- A question and its answer. -/
abbrev RunEvent := Event Query Answer

/-- What was asked and answered. -/
abbrev RunHistory := History Query Answer

/-- A check of the signal. -/
abbrev check (aborted : Bool) : RunEvent := ⟨.aborted, aborted⟩

/-- A capture that is completed. -/
abbrev completion (input : PipelineInput) (receipt : PipelineReceipt) : RunEvent :=
  ⟨.captureAndExtract input, .ok receipt⟩

/-- An attempt that is authorized. -/
abbrev authorization (options : OrchestratorOptions) (operation : AttemptOperation) : RunEvent :=
  ⟨.authorizeAttempt ⟨operation, options.sourceId⟩, .ok true⟩

/-- The status of a capture that has been completed. -/
def captureOf : RunEvent → Option ExtractionValidationStatus
  | ⟨.captureAndExtract _, .ok receipt⟩ => some (PipelineReceipt.status receipt)
  | _ => none

/-- The statuses of the captures that have been completed. -/
def completedCaptures (h : RunHistory) : List ExtractionValidationStatus := h.filterMap captureOf

/-- The edition that is captured. -/
def capturedKey : RunEvent → Option JsString
  | ⟨.captureAndExtract input, _⟩ => some (editionKey input.edition)
  | _ => none

/-- The attempt at the source. -/
def attemptOf : RunEvent → Option AttemptOperation
  | ⟨.discoverPage _, _⟩ => some .discover
  | ⟨.fetchEdition edition, _⟩ => some (.fetch edition.externalEditionId)
  | _ => none

/-- Whether an event is an attempt to discover a page. -/
def isDiscovery : RunEvent → Bool
  | ⟨.discoverPage _, _⟩ => true
  | _ => false

/-- Whether an event is an attempt to fetch an edition. -/
def isFetch : RunEvent → Bool
  | ⟨.fetchEdition _, _⟩ => true
  | _ => false

/-- An attempt has just been authorized, and the run is not cancelled. -/
def Authorized (options : OrchestratorOptions) (operation : AttemptOperation) (h : RunHistory) :
    Prop :=
  ∃ before, h = before ++ [authorization options operation] ++ [check false]

/-- What the orchestrator may ask after a history. -/
def Allowed (options : OrchestratorOptions) (h : RunHistory) : Query → Prop
  | .discoverPage _ => Authorized options .discover h ∧ h.countP isDiscovery < maxDiscoveryPages
  | .fetchEdition edition => Authorized options (.fetch edition.externalEditionId) h ∧
      h.countP isFetch < maxEditionsPerRun
  | .captureAndExtract input => editionKey input.edition ∉ h.filterMap capturedKey
  | _ => True

/-- The condition on an event that it is no cancellation right after a completed capture. -/
def IsCounted (before : RunHistory) (event : RunEvent) : Prop :=
  event = check true → ∀ last ∈ before.getLast?, captureOf last = none

/-- **No completed capture is followed by a cancellation.** -/
def CapturesAreCounted (h : RunHistory) : Prop := Along IsCounted h

/-! ### Variables and histories -/

/-- **The variables of a run are those of its history**: its completed captures are counted, and
what it has discovered and captured is among what it remembers. -/
structure Tracks (pages : ℕ) (progress : Progress) (h : RunHistory) : Prop where
  completed : progress.completed = (completedCaptures h).count .completed
  degraded : progress.degraded = (completedCaptures h).count .degraded
  failed : progress.failed = (completedCaptures h).count .failed
  fetched : progress.fetched = (completedCaptures h).length
  captured : ∀ key ∈ h.filterMap capturedKey, key ∈ progress.editionKeys
  fetches : h.countP isFetch ≤ progress.discovered
  discoveries : h.countP isDiscovery ≤ pages
  counted : CapturesAreCounted h
  settled : ∀ last ∈ h.getLast?, captureOf last = none

/-- A run that is cut off: it is cancelled between the end of a capture and its count. -/
def IsCutOff (pages : ℕ) (progress : Progress) (h : RunHistory) : Prop :=
  ∃ before input receipt, h = before ++ [completion input receipt] ++ [check true] ∧
    Tracks pages progress before

/-- How the loops are stopped. -/
def Stopped (pages : ℕ) (h : RunHistory) : RunError → Prop
  | .thrown _ progress => Tracks pages progress h ∨ IsCutOff pages progress h
  | .progress _ _ => False

section

variable {options : OrchestratorOptions} {host : Host} {h : RunHistory} {pages : ℕ}
  {progress : Progress} {event : RunEvent} {edition : OfficialOfferEdition} {α : Type}
  {post : RunHistory → α → Prop} {raised : RunHistory → RunError → Prop}

theorem tracks_zero : Tracks 0 .zero [] where
  completed := rfl
  degraded := rfl
  failed := rfl
  fetched := rfl
  captured := by simp
  fetches := Nat.zero_le _
  discoveries := Nat.zero_le _
  counted := Along.nil
  settled := by simp

/-- An event that completes no capture leaves the counts. -/
theorem Tracks.snoc (htracks : Tracks pages progress h) (event : RunEvent)
    (hcapture : captureOf event = none)
    (hkey : ∀ key ∈ capturedKey event, key ∈ progress.editionKeys)
    (hfetch : isFetch event = true → h.countP isFetch < progress.discovered)
    (hdiscovery : isDiscovery event = true → h.countP isDiscovery < pages) :
    Tracks pages progress (h ++ [event]) := by
  have hcaptures : completedCaptures (h ++ [event]) = completedCaptures h := by
    rw [completedCaptures, List.filterMap_append, List.filterMap_cons_none hcapture,
      List.filterMap_nil, List.append_nil]
    rfl
  refine
    { completed := by rw [hcaptures]; exact htracks.completed
      degraded := by rw [hcaptures]; exact htracks.degraded
      failed := by rw [hcaptures]; exact htracks.failed
      fetched := by rw [hcaptures]; exact htracks.fetched
      captured := fun key hmem => ?_
      fetches := ?_
      discoveries := ?_
      counted := htracks.counted.snoc fun _ => htracks.settled
      settled := ?_ }
  · rw [List.filterMap_append] at hmem
    rcases List.mem_append.mp hmem with hold | hnew
    · exact htracks.captured key hold
    · obtain ⟨other, hother, heq⟩ := List.mem_filterMap.mp hnew
      rw [List.mem_singleton.mp hother] at heq
      exact hkey key heq
  · rw [List.countP_append, List.countP_singleton]
    have hfetches := htracks.fetches
    split_ifs with hevent
    · exact hfetch hevent
    · exact hfetches
  · rw [List.countP_append, List.countP_singleton]
    have hdiscoveries := htracks.discoveries
    split_ifs with hevent
    · exact hdiscovery hevent
    · exact hdiscoveries
  · intro last hlast
    rw [List.getLast?_concat, Option.mem_def, Option.some_inj] at hlast
    exact hlast ▸ hcapture

/-- Asking for an authorization, or whether the run is cancelled, leaves the counts. -/
theorem Tracks.snoc_of_none (htracks : Tracks pages progress h) (event : RunEvent)
    (hcapture : capturedKey event = none)
    (hattempt : attemptOf event = none) : Tracks pages progress (h ++ [event]) := by
  obtain ⟨query, answer⟩ := event
  cases query with
  | aborted => exact htracks.snoc _ rfl (by simp [capturedKey]) (by simp [isFetch]) (by simp [isDiscovery])
  | authorizeAttempt request =>
    exact htracks.snoc _ rfl (by simp [capturedKey]) (by simp [isFetch]) (by simp [isDiscovery])
  | discoverPage request => cases hattempt
  | fetchEdition edition => cases hattempt
  | captureAndExtract input => cases hcapture

/-! ### Parts of a run -/

theorem correct_throwIfCancelled {post : RunHistory → Unit → Prop}
    (hgoes : post (h ++ [check false]) ())
    (hcancelled : raised (h ++ [check true]) (.thrown .cancelled progress)) :
    Correct (Allowed options) post raised h (throwIfCancelled progress) := by
  refine Correct.bind (Correct.query trivial fun aborted => ?_)
  cases (aborted : Bool) with
  | false => exact Correct.require (fun _ => hgoes) fun hne => absurd rfl hne
  | true => exact Correct.require (fun heq => absurd heq (by decide)) fun _ => hcancelled

theorem correct_orRethrow {answer : Except WorkerError α} (hok : ∀ a, answer = .ok a → post h a)
    (herror : ∀ error, answer = .error error → raised h (.thrown error progress)) :
    Correct (Allowed options) post raised h (orRethrow progress answer) := by
  cases answer with
  | ok a => exact hok a rfl
  | error error => exact herror error rfl

theorem correct_orFail {a : Option α} {e : RunError} (hsome : ∀ b, a = some b → post h b)
    (hnone : raised h e) : Correct (Allowed options) post raised h (Prog.orFail e a) := by
  cases a with
  | some b => exact hsome b rfl
  | none => exact hnone

/-- An attempt that may be made has been authorized at once. -/
theorem correct_authorizeAttempt {post : RunHistory → Unit → Prop} {operation : AttemptOperation}
    (htracks : Tracks pages progress h)
    (hgoes : Tracks pages progress (h ++ [authorization options operation] ++ [check false]) →
      post (h ++ [authorization options operation] ++ [check false]) ()) :
    Correct (Allowed options) post (Stopped pages) h
      (authorizeAttempt progress ⟨operation, options.sourceId⟩) := by
  refine Correct.bind (Correct.query trivial fun answer => ?_)
  have hasked : Tracks pages progress
      (h ++ [⟨.authorizeAttempt ⟨operation, options.sourceId⟩, answer⟩]) :=
    htracks.snoc_of_none _ rfl rfl
  refine Correct.bind (correct_orRethrow (fun isUndefined hanswer => ?_) fun _ _ => .inl hasked)
  obtain rfl : answer = .ok isUndefined := hanswer
  refine Correct.bind (Correct.require (fun hundefined => ?_) fun _ => .inl hasked)
  obtain rfl : isUndefined = true := hundefined
  exact correct_throwIfCancelled (hgoes (hasked.snoc_of_none _ rfl rfl))
    (.inl (hasked.snoc_of_none _ rfl rfl))

theorem edition_of_parseFetchResult {answer : FetchAnswer} {input : PipelineInput}
    (h : parseFetchResult edition answer = some input) : input.edition = edition := by
  cases answer with
  | malformed => cases h
  | result sourceId externalEditionId bytes checksumSha256 mimeType rightsClassification =>
    rw [parseFetchResult, Option.ite_none_right_eq_some] at h
    cases h.2
    rfl

/-- A capture that is counted. -/
theorem Tracks.count {input : PipelineInput} {receipt : PipelineReceipt}
    (htracks : Tracks pages progress h) (hkey : editionKey input.edition ∈ progress.editionKeys) :
    Tracks pages (progress.count receipt) (h ++ [completion input receipt] ++ [check false]) := by
  obtain ⟨h', hh'⟩ : ∃ h', h' = h ++ [completion input receipt] ++ [check false] := ⟨_, rfl⟩
  have hcaptures : completedCaptures h' = completedCaptures h ++ [receipt.status] := by
    rw [hh', completedCaptures, List.filterMap_append, List.filterMap_append]
    exact List.append_nil _
  have hcounted : CapturesAreCounted h' :=
    hh' ▸ (htracks.counted.snoc fun heq => by cases heq).snoc fun heq => by cases heq
  have hcaptured : ∀ key ∈ h'.filterMap capturedKey, key ∈ progress.editionKeys := by
    intro key hmem
    rw [hh', List.filterMap_append, List.filterMap_append] at hmem
    rcases List.mem_append.mp hmem with hold | hnone
    · rcases List.mem_append.mp hold with hold | hnew
      · exact htracks.captured key hold
      · exact List.mem_singleton.mp hnew ▸ hkey
    · exact absurd hnone List.not_mem_nil
  have hfetches : h'.countP isFetch = h.countP isFetch := by
    rw [hh', List.countP_append, List.countP_append]
    rfl
  have hdiscoveries : h'.countP isDiscovery = h.countP isDiscovery := by
    rw [hh', List.countP_append, List.countP_append]
    rfl
  have hsettled : ∀ last ∈ h'.getLast?, captureOf last = none := by
    intro last hlast
    rw [hh', List.getLast?_concat, Option.mem_def, Option.some_inj] at hlast
    exact hlast ▸ rfl
  rw [← hh', Progress.count]
  cases hstatus : receipt.status
  all_goals
    rw [hstatus] at hcaptures
    exact
      { completed := by rw [hcaptures, List.count_append, ← htracks.completed]; rfl
        degraded := by rw [hcaptures, List.count_append, ← htracks.degraded]; rfl
        failed := by rw [hcaptures, List.count_append, ← htracks.failed]; rfl
        fetched := by rw [hcaptures, List.length_append, ← htracks.fetched]; rfl
        captured := hcaptured
        fetches := hfetches.trans_le htracks.fetches
        discoveries := hdiscoveries.trans_le htracks.discoveries
        counted := hcounted
        settled := hsettled }

/-- Events of other kinds capture nothing. -/
theorem capturedKeys_snoc (hcapture : capturedKey event = none) :
    (h ++ [event]).filterMap capturedKey = h.filterMap capturedKey := by
  rw [List.filterMap_append, List.filterMap_cons_none hcapture, List.filterMap_nil, List.append_nil]

theorem countP_isFetch_snoc (hattempt : isFetch event = false) :
    (h ++ [event]).countP isFetch = h.countP isFetch := by
  rw [List.countP_append, List.countP_singleton, hattempt]
  rfl

section

variable (htracks : Tracks pages progress h)

include htracks

/-- The variables of an edition that is new. -/
theorem Tracks.see (edition : OfficialOfferEdition) :
    Tracks pages (progress.see edition) h :=
  { htracks with
    captured := fun key hmem => List.mem_cons_of_mem _ (htracks.captured key hmem)
    fetches := Nat.le_succ_of_le htracks.fetches }

/-- **What fetching an edition adds to a history**: one attempt. -/
theorem correct_fetchEdition (hfetches : h.countP isFetch < progress.discovered)
    (hroom : progress.discovered ≤ maxEditionsPerRun) :
    Correct (Allowed options)
      (fun h' input => Tracks pages progress h' ∧ input.edition = edition ∧
        h'.filterMap capturedKey = h.filterMap capturedKey)
      (Stopped pages) h (fetchEdition options progress edition) := by
  unfold fetchEdition
  refine Correct.bind (correct_authorizeAttempt htracks fun hauthorized => ?_)
  obtain ⟨h₁, hh₁⟩ : ∃ h₁, h₁ = h ++ [authorization options (.fetch edition.externalEditionId)] ++
    [check false] := ⟨_, rfl⟩
  rw [← hh₁] at hauthorized ⊢
  have hfetches₁ : h₁.countP isFetch = h.countP isFetch := by
    rw [hh₁, countP_isFetch_snoc rfl, countP_isFetch_snoc rfl]
  have hkeys₁ : h₁.filterMap capturedKey = h.filterMap capturedKey := by
    rw [hh₁, capturedKeys_snoc rfl, capturedKeys_snoc rfl]
  refine Correct.bind (Correct.query ⟨⟨h, hh₁⟩, ?_⟩ fun answer => ?_)
  · rw [hfetches₁]
    exact hfetches.trans_le hroom
  have hfetched : Tracks pages progress (h₁ ++ [⟨.fetchEdition edition, answer⟩]) :=
    hauthorized.snoc _ rfl (by simp [capturedKey]) (fun _ => hfetches₁.trans_lt hfetches)
      (by simp [isDiscovery])
  refine Correct.bind (correct_orRethrow (fun fetchResult _ => ?_) fun _ _ => .inl hfetched)
  have hchecked (aborted : Bool) := hfetched.snoc_of_none (check aborted) rfl rfl
  refine Correct.bind (correct_throwIfCancelled ?_ (.inl (hchecked true)))
  refine correct_orFail (fun input hinput => ?_) (.inl (hchecked false))
  refine ⟨hchecked false, edition_of_parseFetchResult hinput, ?_⟩
  rw [capturedKeys_snoc rfl, capturedKeys_snoc rfl, hkeys₁]

/-- **What a capture adds to a history**: it is counted, unless the run is cut off. -/
theorem correct_capture {input : PipelineInput}
    (hkey : editionKey input.edition ∈ progress.editionKeys)
    (hfresh : editionKey input.edition ∉ h.filterMap capturedKey) :
    Correct (Allowed options)
      (fun h' progress' => Tracks pages progress' h' ∧ progress'.discovered = progress.discovered)
      (Stopped pages) h (capture progress input) := by
  unfold capture
  refine Correct.bind (Correct.require (fun _ => ?_) fun _ => .inl htracks)
  refine Correct.bind (Correct.query hfresh fun answer => ?_)
  refine Correct.bind (correct_orRethrow (fun receipt hanswer => ?_) fun error hanswer => ?_)
  · obtain rfl : answer = .ok receipt := hanswer
    refine Correct.bind (correct_throwIfCancelled ?_ (.inr ⟨h, input, receipt, rfl, htracks⟩))
    refine ⟨htracks.count hkey, ?_⟩
    rw [Progress.count]
    cases receipt.status <;> rfl
  · obtain rfl : answer = .error error := hanswer
    refine .inl (htracks.snoc _ rfl (fun key hmem => ?_) (by simp [isFetch]) (by simp [isDiscovery]))
    exact Option.some.inj hmem ▸ hkey

/-- **What an edition adds to a history**: it is fetched and captured once, and counted, unless the
run is cut off. -/
theorem correct_ingestEdition (hroom : progress.discovered < maxEditionsPerRun) :
    Correct (Allowed options)
      (fun h' progress' => Tracks pages progress' h' ∧
        progress'.discovered = progress.discovered + 1)
      (Stopped pages) h (ingestEdition options progress edition) := by
  unfold ingestEdition
  refine Correct.bind (Correct.require (fun hnew => ?_) fun _ => .inl htracks)
  have hfresh : editionKey edition ∉ h.filterMap capturedKey :=
    fun hmem => hnew (htracks.captured _ hmem)
  refine Correct.bind ((correct_fetchEdition (htracks.see edition)
    (Nat.lt_succ_of_le htracks.fetches) hroom).mono (fun h' input hfetched => ?_) fun _ _ => id)
  obtain ⟨hseen, rfl, hkeys⟩ := hfetched
  have hbytes : Tracks pages ((progress.see input.edition).fetch input) h' := { hseen with }
  exact correct_capture hbytes List.mem_cons_self (hkeys ▸ hfresh)

/-- **What the editions of a page add to a history.** -/
theorem correct_ingestEditions {editions : List OfficialOfferEdition}
    (hroom : progress.discovered + editions.length ≤ maxEditionsPerRun) :
    Correct (Allowed options) (fun h' progress' => Tracks pages progress' h') (Stopped pages) h
      (ingestEditions options progress editions) := by
  induction editions generalizing progress h with
  | nil => exact htracks
  | cons edition editions ih =>
    rw [List.length_cons] at hroom
    refine Correct.bind ((correct_ingestEdition htracks (by omega)).mono
      (fun h' progress' hingested => ?_) fun _ _ => id)
    exact ih hingested.1 (by omega)

/-- **What reading a page adds to a history**: one attempt. -/
theorem correct_discoverPage (hpages : pages < maxDiscoveryPages) :
    Correct (Allowed options) (fun h' _ => Tracks (pages + 1) progress h') (Stopped (pages + 1)) h
      (discoverPage host options progress) := by
  have hmore : Tracks (pages + 1) progress h :=
    { htracks with discoveries := Nat.le_succ_of_le htracks.discoveries }
  unfold discoverPage
  refine Correct.bind (correct_authorizeAttempt hmore fun hauthorized => ?_)
  obtain ⟨h₁, hh₁⟩ : ∃ h₁, h₁ = h ++ [authorization options .discover] ++ [check false] := ⟨_, rfl⟩
  rw [← hh₁] at hauthorized ⊢
  have hdiscoveries₁ : h₁.countP isDiscovery = h.countP isDiscovery := by
    rw [hh₁, List.countP_append, List.countP_append]
    rfl
  have hlt : h₁.countP isDiscovery < pages + 1 := by
    rw [hdiscoveries₁]
    exact Nat.lt_succ_of_le htracks.discoveries
  refine Correct.bind (Correct.query ⟨⟨h, hh₁⟩, by omega⟩ fun answer => ?_)
  have hread := hauthorized.snoc ⟨.discoverPage
    ⟨progress.cursor, options.pageLimit, options.sourceId⟩, answer⟩ rfl (by simp [capturedKey])
    (by simp [isFetch]) fun _ => hlt
  refine Correct.bind (correct_orRethrow (fun value _ => ?_) fun _ _ => .inl hread)
  refine Correct.bind (correct_orFail (fun page _ => ?_) (.inl hread))
  have hchecked (aborted : Bool) := hread.snoc_of_none (check aborted) rfl rfl
  exact Correct.bind (correct_throwIfCancelled (hchecked false) (.inl (hchecked true)))

theorem Tracks.mono {more : ℕ} (hle : pages ≤ more) :
    Tracks more progress h :=
  { htracks with discoveries := htracks.discoveries.trans hle }

end

theorem Stopped.mono {more : ℕ} {error : RunError} (hstopped : Stopped pages h error)
    (hle : pages ≤ more) : Stopped more h error := by
  cases error with
  | progress code receipt => exact hstopped
  | thrown error progress =>
    rcases hstopped with htracks | ⟨before, input, receipt, rfl, htracks⟩
    · exact .inl (htracks.mono hle)
    · exact .inr ⟨before, input, receipt, rfl, htracks.mono hle⟩

/-- **What the pages add to a history**, and how their loop is stopped. -/
theorem correct_ingestPages {remaining : ℕ} (htracks : Tracks pages progress h)
    (hpages : pages + remaining = maxDiscoveryPages) :
    Correct (Allowed options)
      (fun h' receipt => ∃ progress', Tracks maxDiscoveryPages progress' h' ∧
        receipt = progress'.receipt)
      (Stopped maxDiscoveryPages) h (ingestPages host options remaining progress) := by
  induction remaining generalizing pages progress h with
  | zero => exact .inl (htracks.mono hpages.le)
  | succ remaining ih =>
    have hmore : pages + 1 + remaining = maxDiscoveryPages := by omega
    have hle : pages + 1 ≤ maxDiscoveryPages := by omega
    refine Correct.bind ((correct_discoverPage htracks (by omega)).mono (fun h₁ page hread => ?_)
      fun _ _ hstopped => hstopped.mono hle)
    refine Correct.bind (Correct.require (fun hroom => ?_) fun _ => .inl (hread.mono hle))
    refine Correct.bind ((correct_ingestEditions hread hroom).mono (fun h₂ progress' hingested => ?_)
      fun _ _ hstopped => hstopped.mono hle)
    cases page.2 with
    | none => exact ⟨progress', hingested.mono hle, rfl⟩
    | some nextCursor =>
      refine Correct.bind (Correct.require (fun _ => ?_) fun _ => .inl (hingested.mono hle))
      have hturned : Tracks (pages + 1) (progress'.turn nextCursor) h₂ := { hingested with }
      exact ih hturned hmore

/-! ### How a run ends -/

/-- How a run that is stopped ends: where nothing has been counted the error is thrown on, and
elsewhere it is replaced by one that hands on the progress. -/
def Ends (h : RunHistory) : RunError → Prop
  | .thrown error progress => progress.fetched = 0 ∧ Stopped maxDiscoveryPages h (.thrown error progress)
  | .progress code receipt => ∃ before error progress aborted,
      Stopped maxDiscoveryPages before (.thrown error progress) ∧ h = before ++ [check aborted] ∧
      receipt = { progress.receipt with
        failed := progress.failed + if code = .cancelled then 0 else 1 }

theorem progressErrorCode_eq_cancelled_iff {cancelled : Bool} {error : WorkerError} :
    progressErrorCode cancelled error = .cancelled ↔ cancelled = true := by
  unfold progressErrorCode
  split_ifs with hcancelled hdisabled
  · exact iff_of_true rfl hcancelled
  · exact iff_of_false (by decide) hcancelled
  · exact iff_of_false (by decide) hcancelled

/-- A run stops rightly where its loops are stopped. -/
theorem correct_stopped {post : RunHistory → RunReceipt → Prop} {error : RunError}
    (hstopped : Stopped maxDiscoveryPages h error) :
    Correct (Allowed options) post Ends h (stopped error) := by
  cases error with
  | progress code receipt => exact hstopped.elim
  | thrown error progress =>
    show Correct (Allowed options) post Ends h (if progress.fetched = 0 then _ else _)
    by_cases hfetched : progress.fetched = 0
    · rw [if_pos hfetched]
      exact ⟨hfetched, hstopped⟩
    · rw [if_neg hfetched]
      refine Correct.bind (Correct.query trivial fun aborted => ?_)
      refine ⟨h, error, progress, aborted, hstopped, rfl, ?_⟩
      obtain ⟨cancelled, hcancelled⟩ : ∃ cancelled : Bool,
          cancelled = (aborted || decide (error = .cancelled)) := ⟨_, rfl⟩
      dsimp only
      rw [← hcancelled]
      cases cancelled with
      | true => rw [if_pos rfl, if_pos (progressErrorCode_eq_cancelled_iff.mpr rfl)]; rfl
      | false =>
        rw [if_neg (by decide), if_neg (progressErrorCode_eq_cancelled_iff.not.mpr (by decide))]
        rfl

/-- **How a run ends.** -/
theorem correct_run : Correct (Allowed options)
    (fun h receipt => ∃ progress, Tracks maxDiscoveryPages progress h ∧ receipt = progress.receipt)
    Ends [] (run host options) := by
  have hstart (aborted : Bool) : Tracks 0 .zero [check aborted] :=
    tracks_zero.snoc_of_none (check aborted) rfl rfl
  refine Correct.bind (correct_throwIfCancelled ?_ ⟨rfl, .inl ((hstart true).mono (Nat.zero_le _))⟩)
  exact (correct_ingestPages (hstart false) (Nat.zero_add _)).rescue
    fun h error hstopped => correct_stopped hstopped

/-! ### What a run promises -/

/-- The progress that a run reports: none where it throws an error without a receipt. -/
def reported : Except RunError RunReceipt → RunReceipt
  | .ok receipt => receipt
  | .error (.progress _ receipt) => receipt
  | .error (.thrown _ _) => ⟨0, 0, 0, 0, 0, 0⟩

/-- The failure that has stopped a run, beside those of captures. -/
def stoppingFailures : Except RunError RunReceipt → ℕ
  | .error (.progress code _) => if code = .cancelled then 0 else 1
  | _ => 0

/-- **What a run promises**: few attempts, each authorized just before; no edition captured twice;
and the reported progress is what has been captured. -/
structure Accounts (options : OrchestratorOptions) (h : RunHistory)
    (outcome : Except RunError RunReceipt) : Prop where
  discoveries : h.countP isDiscovery ≤ maxDiscoveryPages
  fetches : h.countP isFetch ≤ maxEditionsPerRun
  authorized : Along (fun before event => ∀ operation ∈ attemptOf event,
    Authorized options operation before) h
  once : (h.filterMap capturedKey).Nodup
  fetched : (reported outcome).fetched = (completedCaptures h).length
  persisted : (reported outcome).persisted = (completedCaptures h).length
  completed : (reported outcome).completed = (completedCaptures h).count .completed
  degraded : (reported outcome).degraded = (completedCaptures h).count .degraded
  failed : (reported outcome).failed =
    (completedCaptures h).count .failed + stoppingFailures outcome
  counters : (∃ error progress, outcome = .error (.thrown error progress)) ∨
    handlerCounters outcome = some
      { accepted := (completedCaptures h).count .completed
        failed := (completedCaptures h).count .failed + stoppingFailures outcome
        fetched := (completedCaptures h).length
        persisted := (completedCaptures h).length
        quarantined := (completedCaptures h).count .degraded
        unknown := (completedCaptures h).count .failed }

variable {outcome : Except RunError RunReceipt} {receipt : RunReceipt}

theorem length_eq_count (l : List ExtractionValidationStatus) :
    l.length = l.count .completed + l.count .degraded + l.count .failed := by
  induction l with
  | nil => rfl
  | cons status l ih =>
    rw [List.length_cons, ih, List.count_cons, List.count_cons, List.count_cons]
    cases status <;> simp <;> omega

/-- The counters of a receipt that counts captures. -/
theorem countersForIngestion_eq {statuses : List ExtractionValidationStatus} {failures : ℕ}
    (hfetched : receipt.fetched = statuses.length) (hpersisted : receipt.persisted = statuses.length)
    (hcompleted : receipt.completed = statuses.count .completed)
    (hdegraded : receipt.degraded = statuses.count .degraded)
    (hfailed : receipt.failed = statuses.count .failed + failures) :
    countersForIngestion receipt = some
      { accepted := statuses.count .completed
        failed := statuses.count .failed + failures
        fetched := statuses.length
        persisted := statuses.length
        quarantined := statuses.count .degraded
        unknown := statuses.count .failed } := by
  have hlength := length_eq_count statuses
  have hunknown : statuses.length - statuses.count .completed - statuses.count .degraded =
      statuses.count .failed := by omega
  rw [countersForIngestion, hfetched, hpersisted, hcompleted, hdegraded, hfailed,
    if_pos (by omega), hunknown]

/-- How a run has ended: its variables, and what it reports of them. -/
structure Reports (progress : Progress) (outcome : Except RunError RunReceipt) : Prop where
  fetched : (reported outcome).fetched = progress.fetched
  persisted : (reported outcome).persisted = progress.fetched
  completed : (reported outcome).completed = progress.completed
  degraded : (reported outcome).degraded = progress.degraded
  failed : (reported outcome).failed = progress.failed + stoppingFailures outcome

/-- Where nothing is fetched, nothing is counted. -/
theorem Tracks.reports_of_fetched_eq_zero (htracks : Tracks pages progress h)
    (hfetched : progress.fetched = 0) {error : WorkerError} :
    Reports progress (.error (.thrown error progress)) := by
  have hnone : completedCaptures h = [] :=
    List.length_eq_zero_iff.mp (htracks.fetched.symm.trans hfetched)
  have hcompleted := htracks.completed
  have hdegraded := htracks.degraded
  have hfailed := htracks.failed
  rw [hnone, List.count_nil] at hcompleted hdegraded hfailed
  exact ⟨hfetched.symm, hfetched.symm, hcompleted.symm, hdegraded.symm,
    (congrArg (· + 0) hfailed).symm⟩

/-- A run reports its variables, which are those of its history but for a check of the signal,
unless it is cut off. -/
theorem exists_reports (hended : Ended
    (fun h receipt => ∃ progress, Tracks maxDiscoveryPages progress h ∧ receipt = progress.receipt)
    Ends (h, outcome)) :
    ∃ progress, Reports progress outcome ∧ (Tracks maxDiscoveryPages progress h ∨
      ∃ before after, h = before ++ after ∧ IsCutOff maxDiscoveryPages progress before ∧
        completedCaptures after = []) := by
  cases outcome with
  | ok receipt =>
    obtain ⟨progress, htracks, rfl⟩ := hended
    exact ⟨progress, ⟨rfl, rfl, rfl, rfl, rfl⟩, .inl htracks⟩
  | error error =>
    cases error with
    | thrown error progress =>
      obtain ⟨hfetched, htracks | hcut⟩ := hended
      · exact ⟨progress, htracks.reports_of_fetched_eq_zero hfetched, .inl htracks⟩
      · obtain ⟨before, input, receipt, rfl, htracks⟩ := hcut
        exact ⟨progress, htracks.reports_of_fetched_eq_zero hfetched,
          .inr ⟨_, [], (List.append_nil _).symm, ⟨before, input, receipt, rfl, htracks⟩, rfl⟩⟩
    | progress code receipt =>
      obtain ⟨before, error, progress, aborted, hstopped, rfl, rfl⟩ := hended
      refine ⟨progress, ⟨rfl, rfl, rfl, rfl, rfl⟩, ?_⟩
      rcases hstopped with htracks | hcut
      · exact .inl (htracks.snoc_of_none _ rfl rfl)
      · exact .inr ⟨before, [check aborted], rfl, hcut, rfl⟩

/-- A run that is cut off has one capture more than its variables. -/
theorem length_completedCaptures_of_isCutOff {before after : RunHistory}
    (hcut : IsCutOff pages progress before) (hafter : completedCaptures after = []) :
    (completedCaptures (before ++ after)).length = progress.fetched + 1 := by
  obtain ⟨earlier, input, receipt, rfl, htracks⟩ := hcut
  have hcaptures : completedCaptures (earlier ++ [completion input receipt] ++ [check true] ++ after) =
      completedCaptures earlier ++ [receipt.status] ++ [] ++ completedCaptures after := by
    unfold completedCaptures
    rw [List.filterMap_append, List.filterMap_append, List.filterMap_append]
    rfl
  rw [hcaptures, hafter, List.append_nil, List.append_nil, List.length_append, htracks.fetched]
  rfl

/-- A run that is cut off has a capture that is followed by a cancellation. -/
theorem not_capturesAreCounted_of_isCutOff {before after : RunHistory}
    (hcut : IsCutOff pages progress before) : ¬ CapturesAreCounted (before ++ after) := by
  intro hcounted
  obtain ⟨earlier, input, receipt, rfl, -⟩ := hcut
  have hlast := hcounted (earlier ++ [completion input receipt]) (check true) after
    (by rw [List.append_assoc, List.singleton_append]) rfl (completion input receipt)
    (by rw [List.getLast?_concat]; rfl)
  cases hlast

section

variable (hallowed : AllAllowed (Allowed options) h)

include hallowed

theorem countP_isDiscovery_le :
    h.countP isDiscovery ≤ maxDiscoveryPages := by
  refine Along.countP_le (Along.mono hallowed fun before event hevent hdiscovery => ?_)
  obtain ⟨query, answer⟩ := event
  cases query with
  | discoverPage request => exact hevent.2
  | aborted | authorizeAttempt | fetchEdition | captureAndExtract => cases hdiscovery

theorem countP_isFetch_le :
    h.countP isFetch ≤ maxEditionsPerRun := by
  refine Along.countP_le (Along.mono hallowed fun before event hevent hfetch => ?_)
  obtain ⟨query, answer⟩ := event
  cases query with
  | fetchEdition edition => exact hevent.2
  | aborted | authorizeAttempt | discoverPage | captureAndExtract => cases hfetch

theorem authorized_of_allAllowed :
    Along (fun before event => ∀ operation ∈ attemptOf event, Authorized options operation before) h := by
  refine Along.mono hallowed fun before event hevent operation hoperation => ?_
  obtain ⟨query, answer⟩ := event
  cases query with
  | discoverPage request => exact Option.some.inj hoperation ▸ hevent.1
  | fetchEdition edition => exact Option.some.inj hoperation ▸ hevent.1
  | aborted | authorizeAttempt | captureAndExtract => cases hoperation

theorem nodup_capturedKeys :
    (h.filterMap capturedKey).Nodup := by
  refine Along.nodup_filterMap (Along.mono hallowed fun before event hevent key hkey => ?_)
  obtain ⟨query, answer⟩ := event
  cases query with
  | captureAndExtract input => exact Option.some.inj hkey ▸ hevent
  | aborted | authorizeAttempt | discoverPage | fetchEdition => cases hkey

/-- A run that has ended so keeps its promise if and only if no completed capture is followed by a
cancellation. -/
theorem accounts_iff_of_ended (hended : Ended
    (fun h receipt => ∃ progress, Tracks maxDiscoveryPages progress h ∧ receipt = progress.receipt)
    Ends (h, outcome)) : Accounts options h outcome ↔ CapturesAreCounted h := by
  obtain ⟨progress, hreports, hprogress⟩ := exists_reports hended
  constructor
  · intro haccounts
    rcases hprogress with htracks | ⟨before, after, rfl, hcut, hafter⟩
    · exact htracks.counted
    · have hlength := haccounts.fetched
      rw [length_completedCaptures_of_isCutOff hcut hafter, hreports.fetched] at hlength
      omega
  · intro hcounted
    rcases hprogress with htracks | ⟨before, after, rfl, hcut, -⟩
    · have hfetched := hreports.fetched.trans htracks.fetched
      have hpersisted := hreports.persisted.trans htracks.fetched
      have hcompleted := hreports.completed.trans htracks.completed
      have hdegraded := hreports.degraded.trans htracks.degraded
      have hfailed := hreports.failed.trans (congrArg (· + stoppingFailures outcome) htracks.failed)
      have hcounters := countersForIngestion_eq hfetched hpersisted hcompleted hdegraded hfailed
      refine
        { discoveries := countP_isDiscovery_le hallowed
          fetches := countP_isFetch_le hallowed
          authorized := authorized_of_allAllowed hallowed
          once := nodup_capturedKeys hallowed
          fetched := hfetched
          persisted := hpersisted
          completed := hcompleted
          degraded := hdegraded
          failed := hfailed
          counters := ?_ }
      cases outcome with
      | ok receipt => exact .inr hcounters
      | error error =>
        cases error with
        | thrown error progress => exact .inl ⟨error, progress, rfl⟩
        | progress code receipt => exact .inr hcounters
    · exact absurd hcounted (not_capturesAreCounted_of_isCutOff hcut)

end

end

/-- **A run keeps its promise** if and only if no completed capture is followed by a cancellation.

**Proof sketch.** The variables of a run are those of its history, unless it is cut off. Then the
run has one capture more than it reports. -/
theorem accounts_iff (host : Host) (options : OrchestratorOptions)
    (environment : RunHistory → (query : Query) → Answer query) :
    Accounts options ((run host options).run environment []).1
        ((run host options).run environment []).2 ↔
      CapturesAreCounted ((run host options).run environment []).1 := by
  have hrun : Correct (Allowed options) _ _ [] (run host options) := correct_run
  obtain ⟨hallowed, hended⟩ := hrun.of_run allAllowed_nil environment
  exact accounts_iff_of_ended hallowed hended

namespace Example

theorem requireSourceId_tjek : RequireSourceId (js "bunnpris-tjek") := by decide

theorem limit_one : 1 ≤ 1 ∧ 1 ≤ maxEditionsPerPage := by decide

/-- An orchestrator of its source, that reads one edition at a time. -/
def options : OrchestratorOptions := ⟨js "bunnpris-tjek", 1, requireSourceId_tjek, limit_one⟩

/-- Ports that all succeed, on one page with that edition, and a run that is cancelled while its
capture goes on. -/
def cancelledInCapture (h : RunHistory) : (query : Query) → Answer query
  | .aborted => h.any fun event => (captureOf event).isSome
  | .authorizeAttempt _ => .ok true
  | .discoverPage _ => .ok (.page [catalogEdition] none)
  | .fetchEdition _ => .ok (.result (js "bunnpris-tjek") (js "week-27") [1] (List.replicate 64 48)
      (js "text/html") .privateReview)
  | .captureAndExtract _ => .ok ⟨⟨1, 0, 0, 1⟩, .structured, 1, .completed⟩

end Example

/-- **A capture during which the run is cancelled is not reported.** -/
theorem not_accounts_cancelledInCapture : ¬ Accounts Example.options
    ((run Host.ascii Example.options).run Example.cancelledInCapture []).1
    ((run Host.ascii Example.options).run Example.cancelledInCapture []).2 := by
  intro haccounts
  exact absurd haccounts.fetched (by decide +kernel)

end Handleplan.OfferIngestionRun
