import Handleplan.Deploy.Deployment

/-!
# The files of the deployment state

The committed deployment is kept in four files, `current-deployment`, `current-revision`,
`current-image-id` and `deployment-high-water`, and in one immutable record for each verified
revision. `load_deployment_state` reads them, and `record_immutable_deployment_state` replaces them
one after the other.

## Main definitions

* `StateFiles.StateFiles` — the files.
* `StateFiles.loadDeploymentState` — what they say, when they agree.
* `StateFiles.recordImmutableDeploymentState` — the states that a commit goes through.
* `StateFiles.viewOf` — the state of the resolver over the files.

## Implementation notes

The temporary files, which no function reads, are left out, so that what a commit goes through is
the state after each directory made, each link and each rename. A file that cannot be read is a
state of another kind. A rename puts a regular file in place: nothing of another kind is in its way
in a state that is loaded.
-/

namespace Handleplan.StateFiles

open JsString Deployment

/-! ### Files -/

/-- What there is at a path. -/
inductive Node where
  | absent
  /-- A symbolic link to nothing. -/
  | dangling
  | regular (text : JsString)
  /-- Anything else: a directory, or a link to something. -/
  | other
  deriving DecidableEq

/-- `[ -e path ]`. -/
def Node.Exists (node : Node) : Prop := node ≠ .absent ∧ node ≠ .dangling

instance : DecidablePred Node.Exists := fun _ => inferInstanceAs (Decidable (_ ∧ _))

/-- `[ -f path ] && [ ! -L path ]`, and the text of the file. -/
def Node.text? : Node → Option JsString
  | .regular text => some text
  | _ => none

/-- The directory `verified-images`. -/
inductive VerifiedImages where
  | absent
  | directory (images : JsString → Node)
  /-- Anything else; through a link, records may be read. -/
  | other (images : JsString → Node)

/-- The files of the deployment state. -/
structure StateFiles where
  currentDeployment : Node
  currentRevision : Node
  currentImageId : Node
  deploymentHighWater : Node
  verifiedImages : VerifiedImages

/-- The record of a verified revision. -/
def StateFiles.verifiedImage (files : StateFiles) (revision : JsString) : Node :=
  match files.verifiedImages with
  | .absent => .absent
  | .directory images => images revision
  | .other images => images revision

/-! ### Reading -/

/-- `$(cat file)`: newlines at the end are left out. -/
def substitution (text : JsString) : JsString := text.rdropWhile fun u => u = 10

/-- The next field of a line, and what is left of it. -/
def nextField (line : JsString) : JsString × JsString :=
  (line.takeWhile fun u => u ≠ 32, (line.dropWhile fun u => u ≠ 32).dropWhile fun u => u = 32)

/-- `IFS=' ' read -r` with three variables and one more for the rest: it fails when the line does
not end. -/
def readFields (text : JsString) : Option (JsString × JsString × JsString × JsString) :=
  if 10 ∉ text then none
  else
    let ended := text.takeWhile fun u => u ≠ 10
    let line := (ended.dropWhile fun u => u = 32).rdropWhile fun u => u = 32
    let first := nextField line
    let second := nextField first.2
    let third := nextField second.2
    some (first.1, second.1, third.1, third.2)

/-- The two values of a file `v1 first second`. -/
def readRecord (text : JsString) : Option (JsString × JsString) :=
  (readFields text).bind fun fields =>
    if substitution text = fields.1 ++ 32 :: (fields.2.1 ++ 32 :: fields.2.2.1) ∧
        fields.1 = js "v1" ∧ fields.2.2.2 = [] then some (fields.2.1, fields.2.2.1)
    else none

/-- `deployment_compose_mode`. -/
def IsMode (mode : JsString) : Prop := mode = js "current" ∨ mode = js "legacy"

instance : DecidablePred IsMode := fun _ => inferInstanceAs (Decidable (_ ∨ _))

/-- What is loaded: texts are empty where nothing is recorded. -/
structure Loaded where
  previousRevision : JsString
  previousCompatibilityMode : JsString
  previousImageId : JsString
  deploymentHighWaterRevision : JsString
  deriving DecidableEq

/-- `load_verified_deployment_image`. -/
def loadVerifiedDeploymentImage (files : StateFiles) (revision : JsString) : Option JsString :=
  if ¬ IsHex 40 revision then none
  else
    ((files.verifiedImage revision).text?.bind readRecord).bind fun record =>
      if record.1 = revision ∧ ValidImageId record.2 then some record.2 else none

/-- `load_immutable_deployment_state`. -/
def loadImmutableDeploymentState (files : StateFiles) (revision mode : JsString) : Option Loaded :=
  if revision = [] then
    if files.currentImageId.Exists ∨ files.deploymentHighWater.Exists then none
    else some ⟨revision, mode, [], []⟩
  else if ¬ files.currentImageId.Exists ∧ ¬ files.deploymentHighWater.Exists then
    -- Deployments committed before there were records of images.
    some ⟨revision, mode, [], revision⟩
  else
    files.currentImageId.text?.bind fun imageId =>
    files.deploymentHighWater.text?.bind fun highWater =>
      if ValidImageId (substitution imageId) ∧ IsHex 40 (substitution highWater) ∧
          loadVerifiedDeploymentImage files revision = some (substitution imageId) then
        some ⟨revision, mode, substitution imageId, substitution highWater⟩
      else none

/-- The revision and the mode of `load_deployment_state`. -/
def loadRevision (currentDeployment currentRevision : Node) : Option (JsString × JsString) :=
  match currentDeployment.text? with
  | some text =>
    (readRecord text).bind fun record =>
    currentRevision.text?.bind fun revision =>
      if IsHex 40 record.1 ∧ IsMode record.2 ∧ IsHex 40 (substitution revision) ∧
          substitution revision = record.1 then some record
      else none
  | none =>
    if currentDeployment.Exists then none
    else
      match currentRevision.text? with
      | some revision =>
        if IsHex 40 (substitution revision) then some (substitution revision, js "legacy") else none
      | none => if currentRevision.Exists then none else some ([], js "legacy")

/-- `load_deployment_state`. -/
def loadDeploymentState (files : StateFiles) : Option Loaded :=
  (loadRevision files.currentDeployment files.currentRevision).bind fun record =>
    loadImmutableDeploymentState files record.1 record.2

/-! ### Recording -/

/-- The text `v1 first second`. -/
def recordText (first second : JsString) : JsString :=
  js "v1" ++ 32 :: (first ++ 32 :: (second ++ [10]))

/-- What a commit records. -/
structure Commitment where
  revision : JsString
  mode : JsString
  imageId : JsString
  highWater : JsString

/-- What is loaded once it is recorded. -/
def Commitment.loaded (new : Commitment) : Loaded :=
  ⟨new.revision, new.mode, new.imageId, new.highWater⟩

/-- The checks of the arguments. -/
@[mk_iff] structure Commitment.Valid (new : Commitment) : Prop where
  revision : IsHex 40 new.revision
  mode : IsMode new.mode
  imageId : ValidImageId new.imageId
  highWater : IsHex 40 new.highWater

instance : DecidablePred Commitment.Valid := fun _ => decidable_of_iff' _ (Commitment.valid_iff _)

variable (files : StateFiles)

/-- The link of the record of a verified revision. -/
def linkVerified (images : JsString → Node) (revision imageId : JsString) :
    StateFiles :=
  { files with verifiedImages :=
      .directory (Function.update images revision (.regular (recordText revision imageId))) }

/-- `record_verified_deployment_image`: the states it goes through, or nothing when it refuses. -/
def recordVerifiedDeploymentImage (revision imageId : JsString) :
    Option (List StateFiles) :=
  match files.verifiedImages with
  | .other _ => none
  | .absent =>
    some [{ files with verifiedImages := .directory fun _ => .absent },
      linkVerified files (fun _ => .absent) revision imageId]
  | .directory images =>
    if (images revision).Exists then
      if loadVerifiedDeploymentImage files revision = some imageId then some [] else none
    else if images revision = .dangling then none
    else some [linkVerified files images revision imageId]

/-- `record_deployment_state`: the states it goes through. -/
def recordDeploymentState (revision mode : JsString) : List StateFiles :=
  let committed := { files with currentDeployment := .regular (recordText revision mode) }
  [committed, { committed with currentRevision := .regular (revision ++ [10]) }]

/-- `record_immutable_deployment_state`: the states it goes through. -/
def recordImmutableDeploymentState (new : Commitment) : List StateFiles :=
  if ¬ new.Valid then []
  else
    match recordVerifiedDeploymentImage files new.revision new.imageId with
    | none => []
    | some verified =>
      let linked := (verified.getLast?).getD files
      let imaged := { linked with currentImageId := .regular (new.imageId ++ [10]) }
      let marked := { imaged with deploymentHighWater := .regular (new.highWater ++ [10]) }
      verified ++ imaged :: marked :: recordDeploymentState marked new.revision new.mode

/-! ### The resolver over the files -/

/-- What the resolver reads and changes besides the files of the deployment state. -/
structure Surroundings where
  pending : Record
  accepted : Record
  leases : List PendingTuple
  containers : List Container

/-- What `current_matches` compares: a commit of the mode `current`. -/
def committedOf : Commit :=
  match loadDeploymentState files with
  | some loaded =>
    if loaded.previousCompatibilityMode = js "current" then
      ⟨loaded.previousRevision, loaded.previousImageId⟩
    else ⟨[], []⟩
  | none => ⟨[], []⟩

/-- The state of the resolver. Files that are not loaded are a commit that matches no tuple. -/
def viewOf (rest : Surroundings) : DeploymentState where
  committed := committedOf files
  highWater := ((loadDeploymentState files).map fun loaded =>
    loaded.deploymentHighWaterRevision).getD []
  verified := loadVerifiedDeploymentImage files
  pending := rest.pending
  accepted := rest.accepted
  leases := rest.leases
  containers := rest.containers

/-- What a rejection records: the predecessor, under the high-water mark that was loaded. -/
def rejected (t : PendingTuple) : Commitment where
  revision := t.previousRevision
  mode := js "current"
  imageId := t.previousImageId
  highWater := ((loadDeploymentState files).map fun loaded =>
    loaded.deploymentHighWaterRevision).getD []

end Handleplan.StateFiles
