import Handleplan.Deploy.StateFiles
import Handleplan.Lib.TextSearch

/-!
# Commits that are stopped

A commit replaces the files of the deployment state one after the other, and the files are loaded
only when all of them agree. What is loaded after a commit has been stopped is therefore the old or
the new state only where the revision does not change.

## Main definitions

* `StateFiles.IsCrashAtomic` — wherever a commit is stopped, the old or the new state is
  loaded.
* `StateFiles.RefusesRecord` — the record of the verified image is refused.
* `StateFiles.RetriesComplete` — wherever the commit of a rejection is stopped, it
  completes when it is tried again.

## Main results

* `StateFiles.readRecord_recordText` — a record is read back.
* `StateFiles.isCrashAtomic_iff` — which commits are atomic.
* `StateFiles.retriesComplete_iff` — which rejections complete when they are tried again.
* `StateFiles.stoppedCommits_spec` — the two together.
-/

namespace Handleplan.StateFiles

open JsString Deployment TextSearch

/-! ### Texts -/

/-- A field of a record: it has neither blanks nor newlines. -/
def IsField (s : JsString) : Prop := s ≠ [] ∧ 32 ∉ s ∧ 10 ∉ s

theorem isField_of_isHex {length : ℕ} {s : JsString} (h : IsHex length s) (hpos : 0 < length) :
    IsField s := by
  refine ⟨?_, fun hmem => ?_, fun hmem => ?_⟩
  · rintro rfl
    exact hpos.ne h.1
  · exact absurd (h.2 32 hmem) (by decide)
  · exact absurd (h.2 10 hmem) (by decide)

theorem isField_of_isMode {mode : JsString} (h : IsMode mode) : IsField mode := by
  rcases h with rfl | rfl
  · exact ⟨by decide, by decide, by decide⟩
  · exact ⟨by decide, by decide, by decide⟩

theorem isField_of_validImageId {s : JsString} (h : ValidImageId s) : IsField s := by
  have hs : s = js "sha256:" ++ s.drop 7 := by rw [← h.1, List.take_append_drop]
  have hdigest := isField_of_isHex h.2 (by decide)
  have hlabel : (32 : UInt16) ∉ js "sha256:" ∧ (10 : UInt16) ∉ js "sha256:" := by decide
  rw [hs]
  refine ⟨List.append_ne_nil_of_right_ne_nil _ hdigest.1, ?_, ?_⟩
  · exact List.not_mem_append hlabel.1 hdigest.2.1
  · exact List.not_mem_append hlabel.2 hdigest.2.2

theorem substitution_newline {s : JsString} (h : 10 ∉ s) : substitution (s ++ [10]) = s := by
  rw [substitution, rdropWhile_append s (by simp)]
  refine List.rdropWhile_eq_self_iff.mpr fun hne => ?_
  rw [decide_eq_true_eq]
  exact fun heq => h (heq ▸ List.getLast_mem hne)

theorem nextField_append {word rest : JsString} (hword : 32 ∉ word) (hrest : rest.head? ≠ some 32) :
    nextField (word ++ 32 :: rest) = (word, rest) := by
  have hrun : ∀ u ∈ word, decide (u ≠ 32) = true := fun u hu =>
    decide_eq_true fun heq => hword (heq ▸ hu)
  have hstop : decide ((32 : UInt16) ≠ 32) = false := by decide
  rw [nextField, (takeWhile_append_cons hrun hstop).1, (takeWhile_append_cons hrun hstop).2,
    List.dropWhile_cons_of_pos (by decide)]
  cases rest with
  | nil => rfl
  | cons u rest =>
    rw [List.dropWhile_cons_of_neg]
    rw [decide_eq_true_eq]
    rintro rfl
    exact hrest rfl

theorem nextField_self {word : JsString} (hword : 32 ∉ word) : nextField word = (word, []) := by
  have hrun : ∀ u ∈ word, decide (u ≠ 32) = true := fun u hu =>
    decide_eq_true fun heq => hword (heq ▸ hu)
  rw [nextField, List.takeWhile_eq_self_iff.mpr hrun, List.dropWhile_eq_nil_iff.mpr hrun]
  rfl

theorem IsField.head?_append {s : JsString} (h : IsField s) (rest : JsString) :
    (s ++ rest).head? ≠ some 32 := by
  cases s with
  | nil => exact absurd rfl h.1
  | cons u s =>
    rintro heq
    exact h.2.1 (Option.some.inj heq ▸ List.mem_cons_self)

/-- **A record is read back.** -/
theorem readRecord_recordText {first second : JsString} (hfirst : IsField first)
    (hsecond : IsField second) : readRecord (recordText first second) = some (first, second) := by
  have hversion : IsField (js "v1") := ⟨by decide, by decide, by decide⟩
  set line : JsString := js "v1" ++ 32 :: (first ++ 32 :: second) with hline
  have htext : recordText first second = line ++ [10] := by
    simp [recordText, hline]
  have hnewline : 10 ∉ line := by
    have := hversion.2.2
    have := hfirst.2.2
    have := hsecond.2.2
    simp_all
  have hrun : ∀ u ∈ line, decide (u ≠ 10) = true := fun u hu =>
    decide_eq_true fun heq => hnewline (heq ▸ hu)
  have htake : ((line ++ [10]).takeWhile fun u => decide (u ≠ 10)) = line :=
    (takeWhile_append_cons hrun (by decide : decide ((10 : UInt16) ≠ 10) = false)).1
  have hleft : (line.dropWhile fun u => decide (u = 32)) = line :=
    List.dropWhile_cons_of_neg (by decide)
  have hright : (line.rdropWhile fun u => decide (u = 32)) = line := by
    refine List.rdropWhile_eq_self_iff.mpr fun hne => ?_
    rw [decide_eq_true_eq]
    have hlast : line.getLast hne = second.getLast hsecond.1 := by
      simp [hline, hsecond.1]
    rw [hlast]
    exact fun heq => hsecond.2.1 (heq ▸ List.getLast_mem _)
  have hfields : readFields (recordText first second) = some (js "v1", first, second, []) := by
    rw [readFields, htext, if_neg (by simp)]
    simp only [htake, hleft, hright]
    rw [hline, nextField_append hversion.2.1 (hfirst.head?_append _),
      nextField_append hfirst.2.1 (by simpa using hsecond.head?_append []),
      nextField_self hsecond.2.1]
  rw [readRecord, hfields, Option.bind_some, if_pos]
  exact ⟨by rw [htext, substitution_newline hnewline], rfl, rfl⟩

/-! ### What is loaded -/

section Load

variable {files : StateFiles} {revision mode : JsString} {loaded : Loaded}

theorem exists_of_text? {node : Node} {text : JsString} (h : node.text? = some text) :
    node.Exists := by
  cases node with
  | regular text => exact ⟨by simp, by simp⟩
  | absent | dangling | other => cases h

/-- Where a revision is loaded, the marker of older tooling has the same. -/
theorem substitution_of_loadRevision {currentDeployment currentRevision : Node}
    {record : JsString × JsString} {text : JsString}
    (h : loadRevision currentDeployment currentRevision = some record)
    (htext : currentRevision.text? = some text) : substitution text = record.1 := by
  unfold loadRevision at h
  cases hdeployment : currentDeployment.text? with
  | some manifest =>
    simp only [hdeployment, htext, Option.bind_some] at h
    obtain ⟨read, -, hread⟩ := Option.bind_eq_some_iff.mp h
    obtain ⟨⟨-, -, -, heq⟩, hrecord⟩ := Option.ite_none_right_eq_some.mp hread
    rw [heq, Option.some.inj hrecord]
  | none =>
    simp only [hdeployment, htext] at h
    obtain ⟨-, h⟩ := Option.ite_none_left_eq_some.mp h
    obtain ⟨-, h⟩ := Option.ite_none_right_eq_some.mp h
    rw [← Option.some.inj h]

/-- Where a revision is loaded, there is a marker. -/
theorem marker_of_loadRevision {currentDeployment currentRevision : Node}
    {record : JsString × JsString}
    (h : loadRevision currentDeployment currentRevision = some record)
    (hne : record.1 ≠ []) : (currentRevision.text?.map substitution) = some record.1 := by
  cases htext : currentRevision.text? with
  | some text => exact congrArg some (substitution_of_loadRevision h htext)
  | none =>
    unfold loadRevision at h
    cases hdeployment : currentDeployment.text? with
    | some manifest =>
      simp only [hdeployment, htext, Option.bind_none] at h
      obtain ⟨_, -, h⟩ := Option.bind_eq_some_iff.mp h
      cases h
    | none =>
      simp only [hdeployment, htext] at h
      obtain ⟨-, h⟩ := Option.ite_none_left_eq_some.mp h
      obtain ⟨-, h⟩ := Option.ite_none_left_eq_some.mp h
      exact absurd (congrArg Prod.fst (Option.some.inj h)).symm hne

/-- The revision and the mode are kept by the rest of the load. -/
theorem loadImmutable_eq (h : loadImmutableDeploymentState files revision mode = some loaded) :
    loaded.previousRevision = revision ∧ loaded.previousCompatibilityMode = mode := by
  unfold loadImmutableDeploymentState at h
  split_ifs at h with hempty hexists hlegacy
  · rw [← Option.some.inj h]
    exact ⟨rfl, rfl⟩
  · rw [← Option.some.inj h]
    exact ⟨rfl, rfl⟩
  · obtain ⟨imageId, -, h⟩ := Option.bind_eq_some_iff.mp h
    obtain ⟨highWater, -, h⟩ := Option.bind_eq_some_iff.mp h
    obtain ⟨-, h⟩ := Option.ite_none_right_eq_some.mp h
    rw [← Option.some.inj h]
    exact ⟨rfl, rfl⟩

/-- An image is loaded where one is recorded. -/
theorem previousImageId_ne_nil (h : loadImmutableDeploymentState files revision mode = some loaded)
    (hexists : files.currentImageId.Exists) : loaded.previousImageId ≠ [] := by
  unfold loadImmutableDeploymentState at h
  split_ifs at h with hempty hnone hlegacy
  · exact absurd (.inl hexists) hnone
  · exact absurd hexists hlegacy.1
  · obtain ⟨imageId, -, h⟩ := Option.bind_eq_some_iff.mp h
    obtain ⟨highWater, -, h⟩ := Option.bind_eq_some_iff.mp h
    obtain ⟨⟨hvalid, -⟩, h⟩ := Option.ite_none_right_eq_some.mp h
    rw [← Option.some.inj h]
    exact (isField_of_validImageId hvalid).1

/-- **When a state with an image is loaded.** -/
theorem loadImmutable_eq_some_iff (himage : loaded.previousImageId ≠ []) :
    loadImmutableDeploymentState files revision mode = some loaded ↔
      revision ≠ [] ∧ loaded.previousRevision = revision ∧ loaded.previousCompatibilityMode = mode ∧
        ValidImageId loaded.previousImageId ∧ IsHex 40 loaded.deploymentHighWaterRevision ∧
        loadVerifiedDeploymentImage files revision = some loaded.previousImageId ∧
        (files.currentImageId.text?.map substitution) = some loaded.previousImageId ∧
        (files.deploymentHighWater.text?.map substitution) =
          some loaded.deploymentHighWaterRevision := by
  unfold loadImmutableDeploymentState
  constructor
  · intro h
    split_ifs at h with hempty hnone hlegacy
    · rw [← Option.some.inj h] at himage
      exact absurd rfl himage
    · rw [← Option.some.inj h] at himage
      exact absurd rfl himage
    · obtain ⟨imageId, himageId, h⟩ := Option.bind_eq_some_iff.mp h
      obtain ⟨highWater, hhighWater, h⟩ := Option.bind_eq_some_iff.mp h
      obtain ⟨⟨hvalid, hhex, hverified⟩, h⟩ := Option.ite_none_right_eq_some.mp h
      rw [← Option.some.inj h, himageId, hhighWater]
      exact ⟨hempty, rfl, rfl, hvalid, hhex, hverified, rfl, rfl⟩
  · rintro ⟨hne, rfl, rfl, hvalid, hhex, hverified, himageId, hhighWater⟩
    obtain ⟨imageId, htext, hsubst⟩ := Option.map_eq_some_iff.mp himageId
    obtain ⟨highWater, htext', hsubst'⟩ := Option.map_eq_some_iff.mp hhighWater
    rw [if_neg hne, if_neg fun h => h.1 (exists_of_text? htext), htext, htext', Option.bind_some,
      Option.bind_some, hsubst, hsubst', if_pos ⟨hvalid, hhex, hverified⟩]

theorem loadDeploymentState_eq_some_iff : loadDeploymentState files = some loaded ↔
    ∃ record, loadRevision files.currentDeployment files.currentRevision = some record ∧
      loadImmutableDeploymentState files record.1 record.2 = some loaded :=
  Option.bind_eq_some_iff

end Load

/-! ### The record of the image -/

/-- Records are added, and nothing else is changed. -/
structure Extends (files files' : StateFiles) : Prop where
  currentDeployment : files'.currentDeployment = files.currentDeployment
  currentRevision : files'.currentRevision = files.currentRevision
  currentImageId : files'.currentImageId = files.currentImageId
  deploymentHighWater : files'.deploymentHighWater = files.deploymentHighWater
  verified : ∀ revision imageId, loadVerifiedDeploymentImage files revision = some imageId →
    loadVerifiedDeploymentImage files' revision = some imageId

/-- Where records are added, the same is loaded. -/
theorem Extends.load {files files' : StateFiles} {loaded : Loaded} (h : Extends files files')
    (hload : loadDeploymentState files = some loaded) :
    loadDeploymentState files' = some loaded := by
  obtain ⟨record, hrevision, himmutable⟩ := loadDeploymentState_eq_some_iff.mp hload
  refine loadDeploymentState_eq_some_iff.mpr ⟨record, ?_, ?_⟩
  · rw [h.currentDeployment, h.currentRevision]
    exact hrevision
  · unfold loadImmutableDeploymentState at himmutable ⊢
    rw [h.currentImageId, h.deploymentHighWater]
    split_ifs at himmutable ⊢ with hempty hexists hlegacy
    · exact himmutable
    · exact himmutable
    · obtain ⟨imageId, himage, himmutable⟩ := Option.bind_eq_some_iff.mp himmutable
      obtain ⟨highWater, hhigh, himmutable⟩ := Option.bind_eq_some_iff.mp himmutable
      obtain ⟨⟨hvalid, hhex, hverified⟩, heq⟩ := Option.ite_none_right_eq_some.mp himmutable
      rw [himage, hhigh, Option.bind_some, Option.bind_some,
        if_pos ⟨hvalid, hhex, h.verified _ _ hverified⟩]
      exact heq

/-- The record of a verified image is refused: the directory is none, or the revision has a record
of another image. -/
def RefusesRecord (files : StateFiles) (revision imageId : JsString) : Prop :=
  match files.verifiedImages with
  | .absent => False
  | .directory images => images revision = .dangling ∨
      ((images revision).Exists ∧ loadVerifiedDeploymentImage files revision ≠ some imageId)
  | .other _ => True

section Verified

variable {files : StateFiles} {revision imageId : JsString}

/-- When a record is refused. -/
theorem recordVerified_eq_none_iff :
    recordVerifiedDeploymentImage files revision imageId = none ↔
      RefusesRecord files revision imageId := by
  unfold recordVerifiedDeploymentImage RefusesRecord
  cases files.verifiedImages with
  | absent => simp
  | other images => simp
  | directory images =>
    by_cases hexists : (images revision).Exists
    · have hdangling : images revision ≠ .dangling := hexists.2
      by_cases hsame : loadVerifiedDeploymentImage files revision = some imageId <;>
        simp [hexists, hsame, hdangling]
    · by_cases hdangling : images revision = .dangling
      · simp only [if_neg hexists, if_pos hdangling]
        exact iff_of_true trivial (.inl hdangling)
      · simp [hexists, hdangling]

theorem loadVerified_linkVerified (images : JsString → Node) (hrevision : IsHex 40 revision)
    (himage : ValidImageId imageId) :
    loadVerifiedDeploymentImage (linkVerified files images revision imageId) revision =
      some imageId := by
  have hread := readRecord_recordText (isField_of_isHex hrevision (by decide))
    (isField_of_validImageId himage)
  rw [loadVerifiedDeploymentImage, if_neg (not_not.mpr hrevision)]
  simp [StateFiles.verifiedImage, linkVerified, Node.text?, hread, himage]

theorem loadVerified_of_not_exists (h : ¬ (files.verifiedImage revision).Exists) :
    loadVerifiedDeploymentImage files revision = none := by
  have hnone : (files.verifiedImage revision).text? = none := by
    cases htext : (files.verifiedImage revision).text? with
    | none => rfl
    | some text => exact absurd (exists_of_text? htext) h
  rw [loadVerifiedDeploymentImage, hnone]
  exact ite_self none

/-- **What recording a verified image does**: it adds records, and then the revision has the
image. -/
theorem recordVerified_spec {verified : List StateFiles} (hrevision : IsHex 40 revision)
    (himage : ValidImageId imageId)
    (h : recordVerifiedDeploymentImage files revision imageId = some verified) :
    (∀ files' ∈ verified, Extends files files') ∧
      Extends files ((verified.getLast?).getD files) ∧
      loadVerifiedDeploymentImage ((verified.getLast?).getD files) revision = some imageId := by
  have hlink : ∀ images : JsString → Node, (∀ r, files.verifiedImage r = images r) →
      ¬ (images revision).Exists → Extends files (linkVerified files images revision imageId) := by
    intro images himages hnot
    refine ⟨rfl, rfl, rfl, rfl, fun r imageId' hverified => ?_⟩
    by_cases hr : r = revision
    · subst hr
      rw [loadVerified_of_not_exists (by rw [himages]; exact hnot)] at hverified
      cases hverified
    · have hsame : (linkVerified files images revision imageId).verifiedImage r =
          files.verifiedImage r := (Function.update_of_ne hr _ _).trans (himages r).symm
      rw [← hverified, loadVerifiedDeploymentImage, hsame]
      rfl
  unfold recordVerifiedDeploymentImage at h
  cases hdirectory : files.verifiedImages with
  | other images =>
    rw [hdirectory] at h
    cases h
  | absent =>
    have habsent : ∀ r, files.verifiedImage r = .absent := fun r => by
      rw [StateFiles.verifiedImage, hdirectory]
    have hnot : ¬ (Node.absent).Exists := fun hexists => hexists.1 rfl
    rw [hdirectory] at h
    cases h
    have hextends := hlink (fun _ => .absent) habsent hnot
    refine ⟨?_, hextends, loadVerified_linkVerified _ hrevision himage⟩
    intro files' hmem
    rcases List.mem_cons.mp hmem with rfl | hmem
    · refine ⟨rfl, rfl, rfl, rfl, fun r imageId' hverified => ?_⟩
      rw [loadVerified_of_not_exists (by rw [habsent]; exact hnot)] at hverified
      cases hverified
    · rw [List.mem_singleton.mp hmem]
      exact hextends
  | directory images =>
    have himages : ∀ r, files.verifiedImage r = images r := fun r => by
      rw [StateFiles.verifiedImage, hdirectory]
    rw [hdirectory] at h
    by_cases hexists : (images revision).Exists
    · simp only [if_pos hexists] at h
      obtain ⟨hsame, h⟩ := Option.ite_none_right_eq_some.mp h
      cases h
      have hself : Extends files files := ⟨rfl, rfl, rfl, rfl, fun _ _ => id⟩
      exact ⟨fun _ hmem => absurd hmem List.not_mem_nil, hself, hsame⟩
    · simp only [if_neg hexists] at h
      obtain ⟨-, h⟩ := Option.ite_none_left_eq_some.mp h
      cases h
      have hextends := hlink images himages hexists
      refine ⟨fun files' hmem => ?_, hextends, loadVerified_linkVerified _ hrevision himage⟩
      rw [List.mem_singleton.mp hmem]
      exact hextends

/-- The states that recording a verified image goes through have the directory. -/
theorem exists_directory_of_recordVerified {verified : List StateFiles}
    (h : recordVerifiedDeploymentImage files revision imageId = some verified) :
    (∀ files' ∈ verified, ∃ images, files'.verifiedImages = .directory images) ∧
      ∃ images, ((verified.getLast?).getD files).verifiedImages = .directory images := by
  unfold recordVerifiedDeploymentImage at h
  cases hdirectory : files.verifiedImages with
  | other images =>
    rw [hdirectory] at h
    cases h
  | absent =>
    rw [hdirectory] at h
    cases h
    exact ⟨by simp [linkVerified], _, rfl⟩
  | directory images =>
    rw [hdirectory] at h
    by_cases hexists : (images revision).Exists
    · simp only [if_pos hexists] at h
      obtain ⟨-, h⟩ := Option.ite_none_right_eq_some.mp h
      cases h
      exact ⟨by simp, images, hdirectory⟩
    · simp only [if_neg hexists] at h
      obtain ⟨-, h⟩ := Option.ite_none_left_eq_some.mp h
      cases h
      exact ⟨by simp [linkVerified], _, rfl⟩

/-- A revision whose image is recorded is not refused. -/
theorem not_refusesRecord {images : JsString → Node}
    (hdirectory : files.verifiedImages = .directory images)
    (h : loadVerifiedDeploymentImage files revision = some imageId) :
    ¬ RefusesRecord files revision imageId := by
  have hexists : (images revision).Exists := by
    by_contra hnot
    rw [loadVerified_of_not_exists (by rwa [StateFiles.verifiedImage, hdirectory])] at h
    cases h
  unfold RefusesRecord
  rw [hdirectory]
  rintro (hdangling | ⟨-, hne⟩)
  · exact hexists.2 hdangling
  · exact hne h

end Verified

/-! ### Commits that are atomic -/

/-- **Wherever a commit is stopped, the old or the new state is loaded.** -/
def IsCrashAtomic (files : StateFiles) (old : Loaded) (new : Commitment) : Prop :=
  ∀ stopped ∈ files :: recordImmutableDeploymentState files new,
    loadDeploymentState stopped = some old ∨ loadDeploymentState stopped = some new.loaded

/-- A commit that does not change the revision, nor both the mode and the high-water mark. -/
def KeepsRevision (old : Loaded) (new : Commitment) : Prop :=
  new.revision = old.previousRevision ∧ new.imageId = old.previousImageId ∧
    (new.highWater = old.deploymentHighWaterRevision ∨ new.mode = old.previousCompatibilityMode)

section Atomic

variable {files linked : StateFiles} {old : Loaded} {new : Commitment} {verified : List StateFiles}

/-- What a commit is loaded as once its image and its mark are in place. -/
theorem load_marked (hold : loadDeploymentState linked = some old) (hnew : new.Valid)
    (hverified : loadVerifiedDeploymentImage linked new.revision = some new.imageId)
    (hrevision : old.previousRevision = new.revision) :
    loadDeploymentState { linked with
        currentImageId := .regular (new.imageId ++ [10])
        deploymentHighWater := .regular (new.highWater ++ [10]) } =
      some ⟨new.revision, old.previousCompatibilityMode, new.imageId, new.highWater⟩ := by
  obtain ⟨record, hload, himmutable⟩ := loadDeploymentState_eq_some_iff.mp hold
  obtain ⟨hrev, hmode⟩ := loadImmutable_eq himmutable
  have himage := isField_of_validImageId hnew.imageId
  have hhigh := isField_of_isHex hnew.highWater (by decide)
  refine loadDeploymentState_eq_some_iff.mpr ⟨record, hload, ?_⟩
  refine (loadImmutable_eq_some_iff himage.1).mpr ⟨?_, ?_, hmode, hnew.imageId, hnew.highWater, ?_,
    congrArg some (substitution_newline himage.2.2), congrArg some (substitution_newline hhigh.2.2)⟩
  · rw [← hrev, hrevision]
    exact (isField_of_isHex hnew.revision (by decide)).1
  · rw [← hrev, hrevision]
  · rw [← hrev, hrevision]
    exact hverified

/-- What is loaded once the manifest is replaced. -/
theorem loadRevision_committed {currentRevision : Node} (hnew : new.Valid)
    (h : (currentRevision.text?.map substitution) = some new.revision) :
    loadRevision (.regular (recordText new.revision new.mode)) currentRevision =
      some (new.revision, new.mode) := by
  obtain ⟨text, htext, hsubst⟩ := Option.map_eq_some_iff.mp h
  have hread := readRecord_recordText (isField_of_isHex hnew.revision (by decide))
    (isField_of_isMode hnew.mode)
  have hmanifest : (Node.regular (recordText new.revision new.mode)).text? =
      some (recordText new.revision new.mode) := rfl
  rw [loadRevision, hmanifest]
  simp only [hread, Option.bind_some, htext, hsubst]
  exact if_pos ⟨hnew.revision, hnew.mode, hnew.revision, trivial⟩

/-- Once the manifest is replaced, something is loaded only when the marker has its revision. -/
theorem revision_of_committed {currentRevision : Node} {record : JsString × JsString}
    (hnew : new.Valid) (h : loadRevision (.regular (recordText new.revision new.mode))
      currentRevision = some record) :
    ∃ text, currentRevision.text? = some text ∧ substitution text = new.revision := by
  have hread := readRecord_recordText (isField_of_isHex hnew.revision (by decide))
    (isField_of_isMode hnew.mode)
  simp only [loadRevision, Node.text?, hread, Option.bind_some] at h
  obtain ⟨text, htext, h⟩ := Option.bind_eq_some_iff.mp h
  obtain ⟨⟨-, -, -, heq⟩, -⟩ := Option.ite_none_right_eq_some.mp h
  exact ⟨text, htext, heq⟩

/-- A commit that changes the revision is not loaded once its manifest is in place. -/
theorem load_committed_eq_none (hold : loadDeploymentState files = some old) (hnew : new.Valid)
    (hne : new.revision ≠ old.previousRevision) (stopped : StateFiles)
    (hdeployment : stopped.currentDeployment = .regular (recordText new.revision new.mode))
    (hrevision : stopped.currentRevision = files.currentRevision) :
    loadDeploymentState stopped = none := by
  by_contra hsome
  obtain ⟨loaded, hloaded⟩ := Option.ne_none_iff_exists'.mp hsome
  obtain ⟨record, hrecord, -⟩ := loadDeploymentState_eq_some_iff.mp hloaded
  rw [hdeployment] at hrecord
  obtain ⟨text, htext, heq⟩ := revision_of_committed hnew hrecord
  rw [hrevision] at htext
  obtain ⟨before, hbefore, himmutable⟩ := loadDeploymentState_eq_some_iff.mp hold
  apply hne
  rw [← heq, substitution_of_loadRevision hbefore htext, (loadImmutable_eq himmutable).1]

/-- The states of a commit whose image is recorded. -/
theorem record_eq (hnew : new.Valid)
    (h : recordVerifiedDeploymentImage files new.revision new.imageId = some verified) :
    recordImmutableDeploymentState files new =
      let linked := (verified.getLast?).getD files
      let imaged := { linked with currentImageId := .regular (new.imageId ++ [10]) }
      let marked := { imaged with deploymentHighWater := .regular (new.highWater ++ [10]) }
      let committed :=
        { marked with currentDeployment := .regular (recordText new.revision new.mode) }
      verified ++ [imaged, marked, committed,
        { committed with currentRevision := .regular (new.revision ++ [10]) }] := by
  rw [recordImmutableDeploymentState, if_neg (not_not.mpr hnew), h]
  rfl

section

variable (hold : loadDeploymentState files = some old)

include hold

/-- A commit that is atomic, and not refused, keeps the revision. -/
theorem keepsRevision_of_isCrashAtomic (hnew : new.Valid) (hatomic : IsCrashAtomic files old new)
    (hrecord : recordVerifiedDeploymentImage files new.revision new.imageId = some verified) :
    KeepsRevision old new := by
  obtain ⟨-, hextends, hverified⟩ := recordVerified_spec hnew.revision hnew.imageId hrecord
  set linked := (verified.getLast?).getD files with hlinked
  have hmem : ∀ stopped, stopped ∈ [({ linked with
        currentImageId := .regular (new.imageId ++ [10]) } : StateFiles),
      { linked with
        currentImageId := .regular (new.imageId ++ [10])
        deploymentHighWater := .regular (new.highWater ++ [10]) },
      { linked with
        currentImageId := .regular (new.imageId ++ [10])
        deploymentHighWater := .regular (new.highWater ++ [10])
        currentDeployment := .regular (recordText new.revision new.mode) }] →
      loadDeploymentState stopped = some old ∨ loadDeploymentState stopped = some new.loaded := by
    intro stopped hstopped
    refine hatomic stopped (List.mem_cons_of_mem _ ?_)
    rw [record_eq hnew hrecord]
    refine List.mem_append_right _ ?_
    simp only [List.mem_cons, List.not_mem_nil, or_false] at hstopped ⊢
    rcases hstopped with h | h | h
    · exact .inl h
    · exact .inr (.inl h)
    · exact .inr (.inr (.inl h))
  have hold' := hextends.load hold
  -- With the manifest in place the marker still has the old revision.
  have hrevision : new.revision = old.previousRevision := by
    by_contra hne
    have hnone := load_committed_eq_none hold' hnew hne
      { linked with
        currentImageId := .regular (new.imageId ++ [10])
        deploymentHighWater := .regular (new.highWater ++ [10])
        currentDeployment := .regular (recordText new.revision new.mode) } rfl rfl
    rcases hmem _ (.tail _ (.tail _ (.head _))) with h | h
    · rw [hnone] at h
      cases h
    · rw [hnone] at h
      cases h
  -- With the image in place there must have been a mark, and an image before.
  have himage : new.imageId = old.previousImageId := by
    obtain ⟨record, hload, himmutable⟩ := loadDeploymentState_eq_some_iff.mp hold'
    have hstopped := hmem _ (.head _)
    have hsome : ∃ loaded, loadDeploymentState { linked with
        currentImageId := .regular (new.imageId ++ [10]) } = some loaded := by
      rcases hstopped with h | h
      · exact ⟨_, h⟩
      · exact ⟨_, h⟩
    obtain ⟨loaded, hloaded⟩ := hsome
    obtain ⟨record', hload', himmutable'⟩ := loadDeploymentState_eq_some_iff.mp hloaded
    have hrecord' : record = record' := Option.some.inj (hload.symm.trans hload')
    subst hrecord'
    have hne := previousImageId_ne_nil himmutable' ⟨by simp, by simp⟩
    obtain ⟨hrev, -, -, -, -, -, -, hmark⟩ := (loadImmutable_eq_some_iff hne).mp himmutable'
    obtain ⟨mark, hmark, -⟩ := Option.map_eq_some_iff.mp hmark
    -- The state before had a mark, so that it had an image too.
    have hbefore : old.previousImageId ≠ [] := by
      intro hempty
      unfold loadImmutableDeploymentState at himmutable
      split_ifs at himmutable with hnil hexists hlegacy
      · exact absurd hnil hrev
      · exact absurd (exists_of_text? hmark) hlegacy.2
      · obtain ⟨_, -, himmutable⟩ := Option.bind_eq_some_iff.mp himmutable
        obtain ⟨_, -, himmutable⟩ := Option.bind_eq_some_iff.mp himmutable
        obtain ⟨⟨hvalid, -⟩, heq⟩ := Option.ite_none_right_eq_some.mp himmutable
        rw [← Option.some.inj heq] at hempty
        exact (isField_of_validImageId hvalid).1 hempty
    obtain ⟨-, hrev', -, -, -, hverified', -, -⟩ :=
      (loadImmutable_eq_some_iff hbefore).mp himmutable
    rw [← hrev', ← hrevision, hverified] at hverified'
    exact Option.some.inj hverified'
  refine ⟨hrevision, himage, ?_⟩
  rcases hmem _ (.tail _ (.head _)) with h | h
  · rw [load_marked hold' hnew hverified hrevision.symm] at h
    exact .inl (congrArg Loaded.deploymentHighWaterRevision (Option.some.inj h))
  · rw [load_marked hold' hnew hverified hrevision.symm] at h
    exact .inr (congrArg Loaded.previousCompatibilityMode (Option.some.inj h)).symm

/-- A commit that keeps the revision is atomic, and what is loaded in the end is the new state. -/
theorem isCrashAtomic_of_keepsRevision (hnew : new.Valid) (hkeeps : KeepsRevision old new)
    (hrecord : recordVerifiedDeploymentImage files new.revision new.imageId = some verified) :
    IsCrashAtomic files old new := by
  obtain ⟨hextend, hextends, hverified⟩ := recordVerified_spec hnew.revision hnew.imageId hrecord
  obtain ⟨hrevision, himage, heither⟩ := hkeeps
  have hold' := hextends.load hold
  have hfield := isField_of_validImageId hnew.imageId
  have hhigh := isField_of_isHex hnew.highWater (by decide)
  have hname := isField_of_isHex hnew.revision (by decide)
  have hne : old.previousImageId ≠ [] := himage ▸ hfield.1
  obtain ⟨record, hload, himmutable⟩ := loadDeploymentState_eq_some_iff.mp hold'
  obtain ⟨hrev, hrecord₁, hmode, hvalid, hhex, hver, -, hmark⟩ :=
    (loadImmutable_eq_some_iff hne).mp himmutable
  have hmarked := load_marked hold' hnew hverified hrevision.symm
  -- The marker of older tooling has the revision already.
  have hmarker := marker_of_loadRevision hload hrev
  rw [← hrecord₁, ← hrevision] at hmarker
  have hcommitted : ∀ currentRevision : Node,
      (currentRevision.text?.map substitution) = some new.revision →
      loadDeploymentState { (verified.getLast?).getD files with
        currentImageId := .regular (new.imageId ++ [10])
        deploymentHighWater := .regular (new.highWater ++ [10])
        currentDeployment := .regular (recordText new.revision new.mode)
        currentRevision := currentRevision } = some new.loaded := by
    intro currentRevision hcurrent
    refine loadDeploymentState_eq_some_iff.mpr
      ⟨(new.revision, new.mode), loadRevision_committed hnew hcurrent, ?_⟩
    exact (loadImmutable_eq_some_iff hfield.1).mpr ⟨hname.1, rfl, rfl, hnew.imageId, hnew.highWater,
      hverified, congrArg some (substitution_newline hfield.2.2),
      congrArg some (substitution_newline hhigh.2.2)⟩
  intro stopped hstopped
  rw [record_eq hnew hrecord] at hstopped
  simp only [List.mem_cons, List.mem_append, List.not_mem_nil, or_false] at hstopped
  rcases hstopped with rfl | hstopped | rfl | rfl | rfl | rfl
  · exact .inl hold
  · exact .inl ((hextend stopped hstopped).load hold)
  · left
    refine loadDeploymentState_eq_some_iff.mpr ⟨record, hload, ?_⟩
    refine (loadImmutable_eq_some_iff hne).mpr
      ⟨hrev, hrecord₁, hmode, hvalid, hhex, hver, ?_, hmark⟩
    rw [← himage]
    exact congrArg some (substitution_newline hfield.2.2)
  · rcases heither with hsame | hsame
    · left
      rw [hmarked, hsame, himage, hrevision]
    · right
      rw [hmarked, ← hsame]
      rfl
  · exact .inr (hcommitted _ hmarker)
  · exact .inr (hcommitted _ (congrArg some (substitution_newline hname.2.2)))

/-- **Which commits are atomic**: those that keep the revision, and those that are refused before
anything is replaced. -/
theorem isCrashAtomic_iff (hnew : new.Valid) :
    IsCrashAtomic files old new ↔
      RefusesRecord files new.revision new.imageId ∨ KeepsRevision old new := by
  cases hrecord : recordVerifiedDeploymentImage files new.revision new.imageId with
  | none =>
    refine iff_of_true (fun stopped hstopped => .inl ?_)
      (.inl (recordVerified_eq_none_iff.mp hrecord))
    rw [recordImmutableDeploymentState, if_neg (not_not.mpr hnew), hrecord] at hstopped
    rw [List.mem_singleton.mp hstopped]
    exact hold
  | some verified =>
    have haccepts : ¬ RefusesRecord files new.revision new.imageId := fun hrefuses => by
      rw [recordVerified_eq_none_iff.mpr hrefuses] at hrecord
      cases hrecord
    exact ⟨fun hatomic => .inr (keepsRevision_of_isCrashAtomic hold hnew hatomic hrecord),
      fun h => isCrashAtomic_of_keepsRevision hold hnew (h.resolve_left haccepts) hrecord⟩

end

end Atomic

/-! ### Rejections that are tried again -/

/-- A rejection completes: it succeeds, and its commit is not refused. -/
def RejectionCompletes (ownsLease : Bool) (t : PendingTuple) (docker : Docker) (files : StateFiles)
    (rest : Surroundings) : Prop :=
  (reject ownsLease t docker (viewOf files rest)).1 = .succeeded ∧
    recordImmutableDeploymentState files (rejected files t) ≠ []

/-- **Wherever the commit of a rejection is stopped, it completes when it is tried again** where it
would have completed. -/
def RetriesComplete (files : StateFiles) (t : PendingTuple) : Prop :=
  ∀ stopped ∈ recordImmutableDeploymentState files (rejected files t),
    ∀ ownsLease docker rest, RejectionCompletes ownsLease t docker files rest →
      RejectionCompletes ownsLease t docker stopped rest

section Reject

variable {ownsLease : Bool} {t : PendingTuple} {docker : Docker} {st st' : DeploymentState}

/-- The committed state is one that a rejection goes on from. -/
def IsRejectable (t : PendingTuple) (st : DeploymentState) : Prop :=
  (st.CurrentMatches t.previous ∧ (st.highWater = t.previousRevision ∨ st.highWater = t.revision)) ∨
    (¬ st.CurrentMatches t.previous ∧ st.CurrentMatches t.candidate ∧ st.highWater = t.revision)

theorem closeAfterCapabilityLoss_ne_succeeded :
    (closeAfterCapabilityLoss ownsLease t docker st).1 ≠ .succeeded := by
  unfold closeAfterCapabilityLoss
  split_ifs <;> simp

theorem rejectAccepted_ne_succeeded :
    (rejectAccepted ownsLease t docker.files st).1 ≠ .succeeded := by
  unfold rejectAccepted
  dsimp only
  split_ifs <;> simp

theorem rejectPending_succeeded_iff : (rejectPending ownsLease t docker st).1 = .succeeded ↔
    IsRejectable t st ∧ (finishRejection ownsLease t docker st).1 = .succeeded := by
  unfold rejectPending IsRejectable
  by_cases hprevious : st.CurrentMatches t.previous
  · by_cases hmark : st.highWater = t.previousRevision ∨ st.highWater = t.revision
    · simp [hprevious, hmark]
    · simp [hprevious, hmark]
  · by_cases hcandidate : st.CurrentMatches t.candidate
    · by_cases hmark : st.highWater = t.revision
      · simp [hprevious, hcandidate, hmark]
      · simp [hprevious, hcandidate, hmark]
    · simp [hprevious, hcandidate]

theorem rejectUnaccepted_succeeded_iff : (rejectUnaccepted ownsLease t docker st).1 = .succeeded ↔
    st.pending = .valid t ∧ IsRejectable t st ∧
      (finishRejection ownsLease t docker st).1 = .succeeded := by
  unfold rejectUnaccepted
  cases hpending : st.pending with
  | absent => simp [closeAfterCapabilityLoss_ne_succeeded]
  | malformed => simp [closeAfterCapabilityLoss_ne_succeeded]
  | valid p =>
    by_cases hsame : p = t
    · simp [hsame, rejectPending_succeeded_iff]
    · simp [hsame]

/-- **When a rejection succeeds.** -/
theorem reject_succeeded_iff : (reject ownsLease t docker st).1 = .succeeded ↔
    (st.accepted = .absent ∨ ∃ a, st.accepted = .valid a ∧ a ≠ t) ∧ st.pending = .valid t ∧
      IsRejectable t st ∧ (finishRejection ownsLease t docker st).1 = .succeeded := by
  unfold reject
  cases haccepted : st.accepted with
  | absent => simp [rejectUnaccepted_succeeded_iff]
  | malformed => simp [closeAfterCapabilityLoss_ne_succeeded]
  | valid a =>
    by_cases hsame : a = t
    · simp [hsame, rejectAccepted_ne_succeeded]
    · simp [hsame, rejectUnaccepted_succeeded_iff]

/-- The end of a rejection does not depend on what is committed. -/
theorem finishRejection_congr
    (hverified : st.verified t.previousRevision = st'.verified t.previousRevision)
    (hleases : st.leases = st'.leases) (hcontainers : st.containers = st'.containers) :
    (finishRejection ownsLease t docker st).1 = (finishRejection ownsLease t docker st').1 := by
  unfold finishRejection commitRejection
  dsimp only [closeApplicationRuntimes]
  rw [hverified, hleases, hcontainers]
  split_ifs <;> rfl

/-- A rejection that succeeds has seen the verified image of the predecessor. -/
theorem verified_of_finishRejection (h : (finishRejection ownsLease t docker st).1 = .succeeded) :
    st.verified t.previousRevision = some t.previousImageId := by
  by_contra hne
  unfold finishRejection at h
  rw [if_pos (.inr hne)] at h
  cases h

end Reject

section Retry

variable {files : StateFiles} {t : PendingTuple} {ownsLease : Bool} {docker : Docker}
  {rest : Surroundings}

theorem commits_ne_nil (h : ValidTuple t) : t.previous ≠ ⟨[], []⟩ ∧ t.candidate ≠ ⟨[], []⟩ := by
  refine ⟨fun heq => ?_, fun heq => ?_⟩
  · exact (isField_of_isHex h.previousRevision (by decide)).1 (congrArg Commit.revision heq)
  · exact (isField_of_isHex h.revision (by decide)).1 (congrArg Commit.revision heq)

/-- A commit that matches has been loaded. -/
theorem exists_of_committedOf {commit : Commit} (hne : commit ≠ ⟨[], []⟩)
    (h : committedOf files = commit) : ∃ highWater, loadDeploymentState files =
      some ⟨commit.revision, js "current", commit.imageId, highWater⟩ := by
  unfold committedOf at h
  cases hload : loadDeploymentState files with
  | none =>
    rw [hload] at h
    exact absurd h.symm hne
  | some loaded =>
    rw [hload] at h
    dsimp only at h
    by_cases hmode : loaded.previousCompatibilityMode = js "current"
    · rw [if_pos hmode] at h
      refine ⟨loaded.deploymentHighWaterRevision, ?_⟩
      rw [← h, ← hmode]
    · rw [if_neg hmode] at h
      exact absurd h.symm hne

theorem committedOf_eq {revision imageId highWater : JsString}
    (h : loadDeploymentState files = some ⟨revision, js "current", imageId, highWater⟩) :
    committedOf files = ⟨revision, imageId⟩ := by
  rw [committedOf, h]
  exact if_pos rfl

/-- What has been loaded where a rejection completes: the predecessor, or the candidate. -/
theorem exists_loaded (ht : ValidTuple t) (h : RejectionCompletes ownsLease t docker files rest) :
    ∃ highWater, (highWater = t.previousRevision ∨ highWater = t.revision) ∧
      (loadDeploymentState files =
          some ⟨t.previousRevision, js "current", t.previousImageId, highWater⟩ ∨
        loadDeploymentState files = some ⟨t.revision, js "current", t.imageId, highWater⟩) := by
  obtain ⟨-, -, hrejectable, -⟩ := reject_succeeded_iff.mp h.1
  rcases hrejectable with ⟨⟨hcommitted, -⟩, hmark⟩ | ⟨-, ⟨hcommitted, -⟩, hmark⟩
  · obtain ⟨highWater, hload⟩ := exists_of_committedOf (commits_ne_nil ht).1 hcommitted
    simp only [viewOf, hload, Option.map_some, Option.getD_some] at hmark
    exact ⟨highWater, hmark, .inl hload⟩
  · obtain ⟨highWater, hload⟩ := exists_of_committedOf (commits_ne_nil ht).2 hcommitted
    simp only [viewOf, hload, Option.map_some, Option.getD_some] at hmark
    exact ⟨highWater, .inr hmark, .inr hload⟩

theorem valid_rejected (ht : ValidTuple t) (h : RejectionCompletes ownsLease t docker files rest) :
    (rejected files t).Valid := by
  obtain ⟨highWater, hmark, hload⟩ := exists_loaded ht h
  have hhigh : (rejected files t).highWater = highWater := by
    rcases hload with hload | hload
    · rw [rejected, hload]
      rfl
    · rw [rejected, hload]
      rfl
  refine ⟨ht.previousRevision, .inl rfl, ht.previousImageId, ?_⟩
  rw [hhigh]
  rcases hmark with rfl | rfl
  · exact ht.previousRevision
  · exact ht.revision

theorem exists_verified (h : RejectionCompletes ownsLease t docker files rest) : ∃ verified,
    recordVerifiedDeploymentImage files (rejected files t).revision (rejected files t).imageId =
      some verified := by
  refine Option.ne_none_iff_exists'.mp fun hnone => h.2 ?_
  rw [recordImmutableDeploymentState, hnone]
  exact ite_self []

/-- Where something is recorded, the directory of the records is there in each state. -/
theorem exists_directory {new : Commitment} {stopped : StateFiles}
    (h : stopped ∈ recordImmutableDeploymentState files new) :
    ∃ images, stopped.verifiedImages = .directory images := by
  unfold recordImmutableDeploymentState at h
  by_cases hnew : new.Valid
  · rw [if_neg (not_not.mpr hnew)] at h
    cases hrecord : recordVerifiedDeploymentImage files new.revision new.imageId with
    | none =>
      rw [hrecord] at h
      cases h
    | some verified =>
      obtain ⟨hverified, hlinked⟩ := exists_directory_of_recordVerified hrecord
      simp only [hrecord, recordDeploymentState, List.mem_append, List.mem_cons, List.not_mem_nil,
        or_false] at h
      rcases h with h | rfl | rfl | rfl | rfl
      · exact hverified stopped h
      all_goals exact hlinked
  · rw [if_pos hnew] at h
    cases h

/-- The predecessor has been committed: the commit changes nothing that is loaded. -/
theorem RejectionCompletes.retry (ht : ValidTuple t)
    (h : RejectionCompletes ownsLease t docker files rest)
    (hprevious : (committedOf files).revision = t.previousRevision) {stopped : StateFiles}
    (hstopped : stopped ∈ recordImmutableDeploymentState files (rejected files t)) :
    RejectionCompletes ownsLease t docker stopped rest := by
  obtain ⟨highWater, hmark, hload⟩ := exists_loaded ht h
  have hload : loadDeploymentState files =
      some ⟨t.previousRevision, js "current", t.previousImageId, highWater⟩ := by
    refine hload.resolve_right fun hcandidate => ht.distinct ?_
    rw [← hprevious, committedOf_eq hcandidate]
  have hrejected : rejected files t =
      ⟨t.previousRevision, js "current", t.previousImageId, highWater⟩ := by
    rw [rejected, hload]
    rfl
  obtain ⟨verified, hrecord⟩ := exists_verified h
  have hkeeps : KeepsRevision ⟨t.previousRevision, js "current", t.previousImageId, highWater⟩
      (rejected files t) := by
    rw [hrejected]
    exact ⟨rfl, rfl, .inl rfl⟩
  have hatomic := isCrashAtomic_of_keepsRevision hload (valid_rejected ht h) hkeeps hrecord stopped
    (List.mem_cons_of_mem _ hstopped)
  have hsame : loadDeploymentState stopped =
      some ⟨t.previousRevision, js "current", t.previousImageId, highWater⟩ := by
    rw [hrejected] at hatomic
    exact hatomic.elim id id
  have himage : (⟨t.previousRevision, js "current", t.previousImageId, highWater⟩ :
      Loaded).previousImageId ≠ [] := (isField_of_validImageId ht.previousImageId).1
  obtain ⟨record, -, himmutable⟩ := loadDeploymentState_eq_some_iff.mp hsame
  obtain ⟨-, hrev, -, -, -, hverified, -, -⟩ := (loadImmutable_eq_some_iff himage).mp himmutable
  rw [← hrev] at hverified
  obtain ⟨haccepted, hpending, -, hfinish⟩ := reject_succeeded_iff.mp h.1
  refine ⟨reject_succeeded_iff.mpr
    ⟨haccepted, hpending, .inl ⟨⟨committedOf_eq hsame, hverified⟩, ?_⟩, ?_⟩, ?_⟩
  · simp only [viewOf, hsame, Option.map_some, Option.getD_some]
    exact hmark
  · rw [← hfinish]
    refine finishRejection_congr ?_ rfl rfl
    exact hverified.trans (verified_of_finishRejection hfinish).symm
  · have hrejected' : rejected stopped t = rejected files t := by
      rw [rejected, hsame, rejected, hload]
    obtain ⟨images, hdirectory⟩ := exists_directory hstopped
    rw [hrejected', recordImmutableDeploymentState, if_neg (not_not.mpr (valid_rejected ht h))]
    cases hagain : recordVerifiedDeploymentImage stopped (rejected files t).revision
        (rejected files t).imageId with
    | none =>
      exact absurd (recordVerified_eq_none_iff.mp hagain) (not_refusesRecord hdirectory hverified)
    | some _ => exact List.append_ne_nil_of_right_ne_nil _ (List.cons_ne_nil _ _)

/-- **Which rejections complete when they are tried again**: those whose predecessor has been
committed before. -/
theorem retriesComplete_iff (ht : ValidTuple t)
    (h : RejectionCompletes ownsLease t docker files rest) :
    RetriesComplete files t ↔ (committedOf files).revision = t.previousRevision := by
  constructor
  · intro hretries
    by_contra hne
    obtain ⟨highWater, -, hload⟩ := exists_loaded ht h
    have hload := hload.resolve_left fun hprevious => hne (by rw [committedOf_eq hprevious])
    have hnew := valid_rejected ht h
    obtain ⟨verified, hrecord⟩ := exists_verified h
    obtain ⟨-, hextends, -⟩ := recordVerified_spec hnew.revision hnew.imageId hrecord
    -- The commit is stopped between the manifest and the marker.
    have hstopped : ({ (verified.getLast?).getD files with
        currentImageId := .regular ((rejected files t).imageId ++ [10])
        deploymentHighWater := .regular ((rejected files t).highWater ++ [10])
        currentDeployment := .regular (recordText (rejected files t).revision
          (rejected files t).mode) } : StateFiles) ∈
        recordImmutableDeploymentState files (rejected files t) := by
      rw [record_eq hnew hrecord]
      exact List.mem_append_right _ (.tail _ (.tail _ (.head _)))
    have hcompletes := hretries _ hstopped ownsLease docker rest h
    obtain ⟨_, -, hloaded⟩ := exists_loaded ht hcompletes
    have hnone := load_committed_eq_none (hextends.load hload) hnew (Ne.symm ht.distinct)
      { (verified.getLast?).getD files with
        currentImageId := .regular ((rejected files t).imageId ++ [10])
        deploymentHighWater := .regular ((rejected files t).highWater ++ [10])
        currentDeployment := .regular (recordText (rejected files t).revision
          (rejected files t).mode) } rfl rfl
    rw [hnone] at hloaded
    rcases hloaded with hloaded | hloaded
    · cases hloaded
    · cases hloaded
  · exact fun hprevious stopped hstopped ownsLease docker rest hcompletes =>
      hcompletes.retry ht hprevious hstopped

end Retry

/-! ### The two together -/

/-- **Commits that are stopped.** From a state that is loaded, a commit is atomic exactly when it is
refused before anything is replaced, or it keeps the revision with its image, and the mode or the
high-water mark. A rejection that is tried again completes exactly when its predecessor has been
committed before.

**Proof sketch.** Records are only added, so the first states load as before. With the image in
place something is loaded only when it is the image of the revision, and with the manifest in place
only when the marker of older tooling has its revision already. A rejection of a tuple whose
candidate is committed changes the revision, so that the state between manifest and marker is not
loaded and the retry refuses. -/
theorem stoppedCommits_spec (files : StateFiles) :
    (∀ (old : Loaded) (new : Commitment), loadDeploymentState files = some old → new.Valid →
      (IsCrashAtomic files old new ↔
        RefusesRecord files new.revision new.imageId ∨ KeepsRevision old new)) ∧
    ∀ (ownsLease : Bool) (t : PendingTuple) (docker : Docker) (rest : Surroundings),
      ValidTuple t → RejectionCompletes ownsLease t docker files rest →
        (RetriesComplete files t ↔ (committedOf files).revision = t.previousRevision) :=
  ⟨fun _ _ hold hnew => isCrashAtomic_iff hold hnew,
    fun _ _ _ _ ht h => retriesComplete_iff ht h⟩

namespace Example

/-- A revision of one digit. -/
def revision (digit : UInt16) : JsString := List.replicate 40 digit

/-- An image of one digit. -/
def image (digit : UInt16) : JsString := js "sha256:" ++ List.replicate 64 digit

/-- The files of a commit with its predecessor verified. -/
def files : StateFiles where
  currentDeployment := .regular (recordText (revision 49) (js "current"))
  currentRevision := .regular (revision 49 ++ [10])
  currentImageId := .regular (image 97 ++ [10])
  deploymentHighWater := .regular (revision 49 ++ [10])
  verifiedImages := .directory fun r =>
    if r = revision 49 then .regular (recordText (revision 49) (image 97))
    else if r = revision 50 then .regular (recordText (revision 50) (image 98))
    else .absent

/-- What they are loaded as. -/
def loaded : Loaded := ⟨revision 49, js "current", image 97, revision 49⟩

/-- A commit of another revision. -/
def another : Commitment := ⟨revision 51, js "current", image 99, revision 51⟩

/-- A commit of the same revision under a later high-water mark. -/
def same : Commitment := ⟨revision 49, js "current", image 97, revision 51⟩

/-- The committed candidate, pending, with its predecessor. -/
def tuple : PendingTuple where
  revision := revision 49
  imageId := image 97
  previousRevision := revision 50
  previousImageId := image 98
  deadline := 1000
  token := List.replicate 64 97

/-- Everything is answered and succeeds, and nothing that matters is started. -/
def docker : Docker where
  ready := true
  first := ⟨true, fun _ => true⟩
  second := ⟨true, fun _ => true⟩
  started := []
  verified := true
  files := ⟨true, true, true, true⟩

/-- The tuple is pending, and nothing is accepted. -/
def rest : Surroundings where
  pending := .valid tuple
  accepted := .absent
  leases := []
  containers := []

theorem load_files : loadDeploymentState files = some loaded := by decide +kernel

theorem completes_files : RejectionCompletes false tuple docker files rest :=
  ⟨by decide +kernel, by decide +kernel⟩

end Example

/-- A commit of the same revision is atomic, and the rejection of a committed candidate is not
always completed when it is tried again. -/
theorem stoppedCommits_spec_same :
    IsCrashAtomic Example.files Example.loaded Example.same ∧
      ¬ RetriesComplete Example.files Example.tuple := by
  refine ⟨((stoppedCommits_spec _).1 _ _ Example.load_files (by decide +kernel)).mpr
    (.inr ⟨rfl, rfl, .inr rfl⟩), fun hretries => ?_⟩
  have hcommitted := ((stoppedCommits_spec _).2 _ _ _ _ (by decide +kernel)
    Example.completes_files).mp hretries
  revert hcommitted
  decide +kernel

/-- **A commit of another revision is not atomic**: stopped when the image is in place and the
revision is not, nothing is loaded. A rejection that is stopped there is refused when it is tried
again. -/
theorem not_isCrashAtomic_another :
    loadDeploymentState Example.files = some Example.loaded ∧ Example.another.Valid ∧
      ¬ IsCrashAtomic Example.files Example.loaded Example.another ∧
      RejectionCompletes false Example.tuple Example.docker Example.files Example.rest ∧
      ∃ stopped ∈ recordImmutableDeploymentState Example.files
          (rejected Example.files Example.tuple),
        (reject false Example.tuple Example.docker (viewOf stopped Example.rest)).1 ≠
          .succeeded := by
  refine ⟨Example.load_files, by decide +kernel, fun hatomic => ?_, Example.completes_files, ?_⟩
  · have hnone : ((recordImmutableDeploymentState Example.files Example.another)[1]?.map
        loadDeploymentState) = some none := by decide +kernel
    obtain ⟨stopped, hstopped, hload⟩ := Option.map_eq_some_iff.mp hnone
    rcases hatomic stopped (List.mem_cons_of_mem _ (List.mem_of_getElem? hstopped)) with h | h
    · rw [hload] at h
      cases h
    · rw [hload] at h
      cases h
  · have hrefused : ((recordImmutableDeploymentState Example.files
        (rejected Example.files Example.tuple))[0]?.map fun stopped =>
          (reject false Example.tuple Example.docker (viewOf stopped Example.rest)).1) =
        some .failed := by decide +kernel
    obtain ⟨stopped, hstopped, hstatus⟩ := Option.map_eq_some_iff.mp hrefused
    exact ⟨stopped, List.mem_of_getElem? hstopped, by rw [hstatus]; decide⟩

end Handleplan.StateFiles
