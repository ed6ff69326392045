import Handleplan.Lib.JsString
import Handleplan.Lib.RelyGuarantee

/-!
# The private store of official-offer captures

Processes put captures into a directory, each under a key that its content determines. A process
writes a temporary file, publishes it by a hard link under the key, and removes its temporary name.
It never replaces what is there, but verifies it.

## Main definitions

* `BlobStore.FileSystem` — names and files.
* `BlobStore.verifyExisting` — the verification of what is there under a key.
* `BlobStore.publish` — the publication of a temporary file.
* `BlobStore.putIfAbsent` — the function, after the validation of its input.
* `BlobStore.machine` — what the calls do.

## Implementation notes

Each call of the file system is one atomic step, and none fails for want of space, of rights or of a
device. Reads and writes may be short. The status of a file has the number of its changes in place
of its times. What a temporary name ends with, the number of a process and random bytes, is given.
An error of the store carries no more than its code; a handle that is left open by a failure is not
closed, which no call sees. An `lstat` tells which check or verification it begins, which the call
does not depend on.
-/

namespace Handleplan.BlobStore

open Interaction RelyGuarantee JsString

/-! ### The file system -/

/-- A path, by its segments from the root of the file system. -/
abbrev Path := List JsString

/-- Bytes. -/
abbrev Bytes := List UInt8

/-- What a name stands for. -/
inductive FileKind where
  | file | directory | symbolicLink
  deriving DecidableEq

/-- A file, a directory or a symbolic link. -/
structure Inode where
  kind : FileKind
  content : Bytes
  mode : ℕ
  uid : ℕ
  nlink : ℕ
  changes : ℕ

/-- `Stats`. -/
structure Stats where
  number : ℕ
  kind : FileKind
  size : ℕ
  mode : ℕ
  uid : ℕ
  nlink : ℕ
  changes : ℕ
  deriving DecidableEq

/-- The codes of errors of calls. -/
inductive Errno where
  | eexist | eloop | enoent | enotdir
  deriving DecidableEq

/-- What a call returns. -/
inductive Reply (α : Type) where
  | ok (a : α)
  | error (e : Errno)
  deriving DecidableEq

/-- Names and files; what was linked is recorded by the name it was linked from. -/
structure FileSystem where
  entries : Path → Option ℕ
  inodes : ℕ → Inode
  next : ℕ
  linked : List Path

/-- The file system, and which signals are aborted. -/
structure Shared where
  files : FileSystem
  aborted : ℕ → Bool

/-- The status of a file. -/
def Inode.stats (inode : Inode) (number : ℕ) : Stats where
  number := number
  kind := inode.kind
  size := inode.content.length
  mode := inode.mode
  uid := inode.uid
  nlink := inode.nlink
  changes := inode.changes

namespace FileSystem

variable (fs : FileSystem)

variable (path : Path)

/-- The file of a name. -/
def inode? : Option Inode := (fs.entries path).map fs.inodes

/-- `lstat`. -/
def lstat : Reply Stats :=
  match fs.entries path with
  | none => .error .enoent
  | some number => .ok ((fs.inodes number).stats number)

/-- A file is changed. -/
def change (number : ℕ) (f : Inode → Inode) : FileSystem :=
  { fs with
    inodes := Function.update fs.inodes number
      { f (fs.inodes number) with changes := (fs.inodes number).changes + 1 } }

/-- A new file gets a name. -/
def create (inode : Inode) : FileSystem :=
  { fs with
    entries := Function.update fs.entries path (some fs.next)
    inodes := Function.update fs.inodes fs.next inode
    next := fs.next + 1 }

/-- Whether a new name may be made: nothing has it, and its directory is there. -/
def nameable : Reply Unit :=
  match fs.entries path, fs.inode? path.dropLast with
  | some _, _ => .error .eexist
  | none, none => .error .enoent
  | none, some parent => if parent.kind = .directory then .ok () else .error .enotdir

/-- `open` of a file, which is no symbolic link. -/
def openFile : Reply ℕ :=
  match fs.entries path with
  | none => .error .enoent
  | some number => if (fs.inodes number).kind = .symbolicLink then .error .eloop else .ok number

/-- `open` of a directory, which is no symbolic link. -/
def openDirectory : Reply ℕ :=
  match fs.entries path with
  | none => .error .enoent
  | some number => if (fs.inodes number).kind = .directory then .ok number else .error .enotdir

/-- A name of a file is removed. -/
def removeName (number : ℕ) : FileSystem :=
  { fs with entries := Function.update fs.entries path none }.change number fun inode =>
    { inode with nlink := inode.nlink - 1 }

/-- A file gets another name. -/
def addName (source path : Path) (number : ℕ) : FileSystem :=
  { fs with
    entries := Function.update fs.entries path (some number)
    linked := fs.linked ++ [source] }.change number fun inode => { inode with nlink := inode.nlink + 1 }

end FileSystem

/-! ### Calls -/

/-- Which check asks for a status: of a private directory, or which verification, the one before a
publication, the one after it, or one of a competing publication. -/
inductive Stage where
  | plain | directory | first | own
  | competing (attempt : ℕ)

/-- A call. -/
inductive Call where
  | aborted (process : ℕ)
  | lstat (stage : Stage) (path : Path)
  | mkdir (path : Path)
  | chmod (path : Path) (mode : ℕ)
  | realpath (path : Path)
  | openFile (path : Path)
  | openDirectory (path : Path)
  | openExclusive (path : Path)
  | fstat (number : ℕ)
  | read (number offset length : ℕ)
  | write (number offset : ℕ) (bytes : Bytes)
  | fsync (number : ℕ)
  | fchmod (number mode : ℕ)
  | close (number : ℕ)
  | link (source path : Path)
  | unlink (path : Path)
  | setImmediate

/-- The answer of a call. -/
def Answer : Call → Type
  | .aborted _ => Bool
  | .lstat _ _ => Reply Stats
  | .mkdir _ => Reply Unit
  | .chmod _ _ => Reply Unit
  | .realpath _ => Reply Path
  | .openFile _ => Reply ℕ
  | .openDirectory _ => Reply ℕ
  | .openExclusive _ => Reply ℕ
  | .fstat _ => Stats
  | .read _ _ _ => Bytes
  | .write _ _ _ => ℕ
  | .fsync _ => Unit
  | .fchmod _ _ => Unit
  | .close _ => Unit
  | .link _ _ => Reply Unit
  | .unlink _ => Reply Unit
  | .setImmediate => Unit

/-- `DIRECTORY_MODE`, in octal `700`. -/
def directoryMode : ℕ := 448

/-- `FILE_MODE`, in octal `400`. -/
def fileMode : ℕ := 256

/-- `TEMP_FILE_MODE`, in octal `600`. -/
def temporaryFileMode : ℕ := 384

/-- `VERIFY_CHUNK_BYTES`. -/
def verifyChunkBytes : ℕ := 65536

/-- `WRITE_CHUNK_BYTES`. -/
def writeChunkBytes : ℕ := 1048576

/-- `MAX_PRIVATE_OFFICIAL_OFFER_BLOB_BYTES`. -/
def maxPrivateOfficialOfferBlobBytes : ℕ := 52428800

/-- The user that the processes run as, and the mode that `mkdir` leaves of the one it is given. -/
structure Platform where
  uid : ℕ
  newDirectoryMode : ℕ

section Machine

variable (platform : Platform)

variable (fs : FileSystem)

variable (path : Path)

/-- What `chmod` does to a file, if it is there. -/
def chmodAt (mode : ℕ) : Reply Unit × FileSystem :=
  match fs.entries path with
  | none => (.error .enoent, fs)
  | some number => (.ok (), fs.change number fun inode => { inode with mode := mode })

/-- What `mkdir` does. -/
def mkdirAt : Reply Unit × FileSystem :=
  match fs.nameable path with
  | .ok _ => (.ok (), fs.create path
      { kind := .directory
        content := []
        mode := platform.newDirectoryMode
        uid := platform.uid
        nlink := 2
        changes := 0 })
  | .error e => (.error e, fs)

/-- What the exclusive `open` of a temporary file does. -/
def openExclusiveAt : Reply ℕ × FileSystem :=
  match fs.nameable path with
  | .ok _ => (.ok fs.next, fs.create path
      { kind := .file
        content := []
        mode := temporaryFileMode
        uid := platform.uid
        nlink := 1
        changes := 0 })
  | .error e => (.error e, fs)

/-- What `link` does. -/
def linkAt (source path : Path) : Reply Unit × FileSystem :=
  match fs.entries source, fs.nameable path with
  | none, _ => (.error .enoent, fs)
  | some number, .ok _ => (.ok (), fs.addName source path number)
  | some _, .error e => (.error e, fs)

/-- What `unlink` does. -/
def unlinkAt : Reply Unit × FileSystem :=
  match fs.entries path with
  | none => (.error .enoent, fs)
  | some number => (.ok (), fs.removeName path number)

/-- What `write` does, of so many of the bytes. -/
def writeAt (number offset : ℕ) (bytes : Bytes) (written : ℕ) : FileSystem :=
  fs.change number fun inode =>
    { inode with content := inode.content.take offset ++ bytes.take written ++
      inode.content.drop (offset + written) }

/-- Whether no part of a path is a symbolic link. -/
def NoSymbolicLink : Prop :=
  ∀ part ∈ path.inits, ∀ inode ∈ fs.inode? part, inode.kind ≠ .symbolicLink

instance (fs : FileSystem) (path : Path) : Decidable (NoSymbolicLink fs path) :=
  inferInstanceAs (Decidable (∀ _ ∈ _, ∀ _ ∈ _, _))

/-- Whether `realpath` may return this: the path itself, unless a part of it is a symbolic link. -/
def IsRealpath : Reply Path → Prop
  | .error e => e = .enoent ∧ fs.entries path = none
  | .ok real => fs.entries path ≠ none ∧ (NoSymbolicLink fs path → real = path)

instance (fs : FileSystem) (path : Path) : DecidablePred (IsRealpath fs path)
  | .error _ => inferInstanceAs (Decidable (_ ∧ _))
  | .ok _ => inferInstanceAs (Decidable (_ ∧ (_ → _)))

/-- Whether a read may return these bytes: some of those that are asked for, and none only at the
end. -/
def IsRead (content : Bytes) (offset length : ℕ) (bytes : Bytes) : Prop :=
  bytes <+: (content.drop offset).take length ∧ (bytes = [] → (content.drop offset).take length = [])

instance (content : Bytes) (offset length : ℕ) : DecidablePred (IsRead content offset length) :=
  fun _ => inferInstanceAs (Decidable (_ ∧ (_ → _)))

/-- Whether a write may have written so many bytes: all, or some. -/
def IsWritten (bytes : Bytes) (written : ℕ) : Prop :=
  written ≤ bytes.length ∧ (written = 0 → bytes = [])

instance (bytes : Bytes) : DecidablePred (IsWritten bytes) :=
  fun _ => inferInstanceAs (Decidable (_ ∧ (_ → _)))

/-- A state, if the answer is one that the call may have. -/
def admits {α : Type} (p : α → Prop) [DecidablePred p] (answer : α) (s : Shared) : Option Shared :=
  if p answer then some s else none

/-- The state of a call that has one answer. -/
def returns {α : Type} [DecidableEq α] (value answer : α) (s : Shared) : Option Shared :=
  admits (fun answer => answer = value) answer s

/-- A state with other files. -/
def Shared.withFiles (s : Shared) (files : FileSystem) : Shared := { s with files := files }

/-- The answers of a call, and the state it leads to. -/
def act (s : Shared) : (call : Call) → Answer call → Option Shared
  | .aborted process, answer => returns (s.aborted process) answer s
  | .lstat _ path, answer => returns (s.files.lstat path) answer s
  | .mkdir path, answer =>
    returns (mkdirAt platform s.files path).1 answer
      (s.withFiles (mkdirAt platform s.files path).2)
  | .chmod path mode, answer =>
    returns (chmodAt s.files path mode).1 answer
      (s.withFiles (chmodAt s.files path mode).2)
  | .realpath path, answer => admits (IsRealpath s.files path) answer s
  | .openFile path, answer => returns (s.files.openFile path) answer s
  | .openDirectory path, answer => returns (s.files.openDirectory path) answer s
  | .openExclusive path, answer =>
    returns (openExclusiveAt platform s.files path).1 answer
      (s.withFiles (openExclusiveAt platform s.files path).2)
  | .fstat number, answer =>
    returns ((s.files.inodes number).stats number) answer s
  | .read number offset length, answer =>
    admits (IsRead (s.files.inodes number).content offset length) answer s
  | .write number offset bytes, answer =>
    admits (IsWritten bytes) answer (s.withFiles (writeAt s.files number offset bytes answer))
  | .fsync _, _ => some s
  | .fchmod number mode, _ =>
    some (s.withFiles (s.files.change number fun inode => { inode with mode := mode }))
  | .close _, _ => some s
  | .link source path, answer =>
    returns (linkAt s.files source path).1 answer
      (s.withFiles (linkAt s.files source path).2)
  | .unlink path, answer =>
    returns (unlinkAt s.files path).1 answer
      (s.withFiles (unlinkAt s.files path).2)
  | .setImmediate, _ => some s

/-- The calls of the file system; the surroundings abort signals. -/
def machine : Machine ℕ Shared Call Answer where
  act := act platform
  disturb s process := { s with aborted := Function.update s.aborted process true }

end Machine

/-! ### Programs -/

/-- `PrivateOfficialOfferBlobStoreErrorCode`, but for what the validation fails with. -/
inductive BlobStoreErrorCode where
  | blobConflict | cancelled | invalidWrite | ioFailure | unsafeFilesystem
  deriving DecidableEq

/-- What is thrown: an error of the store, or of a call. -/
inductive Failure where
  | code (code : BlobStoreErrorCode)
  | errno (errno : Errno)
  deriving DecidableEq

/-- `state` of a receipt. -/
inductive ReceiptState where
  | alreadyPresent | stored
  deriving DecidableEq

/-- `PrivateOfficialOfferBlobWriteReceipt`. -/
structure Receipt where
  state : ReceiptState
  checksumSha256 : JsString
  byteLength : ℕ
  deriving DecidableEq

/-- `FilesystemOfficialOfferPrivateBlobStore`, of a process. -/
structure Store where
  rootDirectory : Path
  maxBlobBytes : ℕ
  ownerUid : ℕ
  root_ne : rootDirectory ≠ []
  maxBlobBytes_le : 1 ≤ maxBlobBytes ∧ maxBlobBytes ≤ maxPrivateOfficialOfferBlobBytes

/-- `ValidatedWrite`, as `validateWrite` makes it: the directories of the key, and the content that
its checksum is of. -/
structure ValidatedWrite (sha256 : Bytes → JsString) (store : Store) where
  keyDirectories : List JsString
  bytes : Bytes
  checksumSha256 : JsString
  length_keyDirectories : keyDirectories.length = 5
  checksum_eq : sha256 bytes = checksumSha256
  length_bytes : 1 ≤ bytes.length ∧ bytes.length ≤ store.maxBlobBytes

/-- The name of a temporary file. -/
def temporaryName (checksumSha256 suffix : JsString) : JsString :=
  js "." ++ checksumSha256 ++ js ".tmp-" ++ suffix

/-- A program over the file system. -/
abbrev BlobProg := Prog Call Answer Failure

/-- One call. -/
def ask (call : Call) : BlobProg (Answer call) := Prog.query call

/-- `fail`. -/
def throwCode {α : Type} (code : BlobStoreErrorCode) : BlobProg α := .fail (.code code)

/-- `fail`, unless a condition holds. -/
def demand (p : Prop) [Decidable p] (code : BlobStoreErrorCode) : BlobProg Unit :=
  Prog.require p (.code code)

/-- The value of a reply; an error is thrown. -/
def orThrow {α : Type} : Reply α → BlobProg α
  | .ok a => .ret a
  | .error e => .fail (.errno e)

/-- `throwIfCancelled`, with the signal of a process. -/
def throwIfCancelled (process : ℕ) : BlobProg Unit := do
  let isAborted : Bool ← ask (.aborted process)
  demand (isAborted = false) .cancelled

/-- The same with a signal that may be left out. -/
def throwIfAborted (signal : Option ℕ) : BlobProg Unit :=
  match signal with
  | none => pure ()
  | some process => throwIfCancelled process

/-- The paths of the directories that lead to one, after one. -/
def pathsFrom (start : Path) : List JsString → List Path
  | [] => []
  | segment :: segments => (start ++ [segment]) :: pathsFrom (start ++ [segment]) segments

section Programs

variable {sha256 : Bytes → JsString} (store : Store) (process : ℕ)

/-- `lstat` of a directory of the hierarchy, which must be one. -/
def lstatDirectory (path : Path) (isPrivate : Bool) : BlobProg Unit := do
  let reply : Reply Stats ← ask (.lstat (if isPrivate then .directory else .plain) path)
  let status ← orThrow reply
  demand (status.kind = .directory) .unsafeFilesystem
  demand (isPrivate = true → status.uid = store.ownerUid ∧ status.mode = directoryMode)
    .unsafeFilesystem

/-- `mkdir`, where the directory may be there, and `chmod` of one that is created. -/
def makeDirectory (path : Path) : BlobProg Bool := do
  let reply : Reply Unit ← ask (.mkdir path)
  match reply with
  | .ok _ => do
    let changed : Reply Unit ← ask (.chmod path directoryMode)
    orThrow changed
    pure true
  | .error .eexist => pure false
  | .error e => .fail (.errno e)

/-- `realpath`, which must be the path itself. -/
def demandRealpath (path : Path) : BlobProg Unit := do
  let reply : Reply Path ← ask (.realpath path)
  let real ← orThrow reply
  demand (real = path) .unsafeFilesystem

/-- A directory is made where its status says that there is none. -/
def makeIfAbsent (path : Path) : Reply Stats → BlobProg Bool
  | .ok _ => pure false
  | .error .enoent => makeDirectory path
  | .error e => .fail (.errno e)

/-- The loop of `ensureSafeRoot`. -/
def ensureSafeSegments : List Path → BlobProg Unit
  | [] => pure ()
  | path :: paths => do
    throwIfCancelled process
    let reply : Reply Stats ← ask (.lstat .plain path)
    let created ← makeIfAbsent path reply
    lstatDirectory store path (created || decide (path = store.rootDirectory))
    ensureSafeSegments paths

/-- `ensureSafeRoot`. -/
def ensureSafeRoot : BlobProg Unit := do
  throwIfCancelled process
  ensureSafeSegments store process (pathsFrom [] store.rootDirectory)
  demandRealpath store.rootDirectory
  throwIfCancelled process

/-- The loop of `ensureKeyDirectories`. -/
def ensureKeySegments : List Path → BlobProg Unit
  | [] => pure ()
  | path :: paths => do
    throwIfCancelled process
    let _ ← makeDirectory path
    lstatDirectory store path true
    demandRealpath path
    ensureKeySegments paths

variable (write : ValidatedWrite sha256 store)

/-- The directory of the key. -/
def destinationDirectory : Path := store.rootDirectory ++ write.keyDirectories

/-- The name of the content in it. -/
def destinationPath : Path := destinationDirectory store write ++ [write.checksumSha256]

/-- `ensureKeyDirectories`. -/
def ensureKeyDirectories : BlobProg Unit := do
  ensureKeySegments store process (pathsFrom store.rootDirectory write.keyDirectories)
  throwIfCancelled process

/-- `assertPrivateDirectoryChain`, in its loop. -/
def assertPrivateSegments : List Path → BlobProg Unit
  | [] => pure ()
  | path :: paths => do
    throwIfCancelled process
    lstatDirectory store path true
    demandRealpath path
    assertPrivateSegments paths

/-- `syncDirectory`. -/
def syncDirectory (signal : Option ℕ) (path : Path) (requirePrivate : Bool) : BlobProg Unit := do
  throwIfAborted signal
  let opened : Reply ℕ ← ask (.openDirectory path)
  let number ← orThrow opened
  let handleStatus : Stats ← ask (.fstat number)
  demand (handleStatus.kind = .directory) .unsafeFilesystem
  demand (requirePrivate = true →
    handleStatus.uid = store.ownerUid ∧ handleStatus.mode = directoryMode) .unsafeFilesystem
  ask (.fsync number)
  ask (.close number)
  let reply : Reply Stats ← ask (.lstat .plain path)
  let pathStatus ← orThrow reply
  demand (pathStatus.kind = .directory ∧ pathStatus.number = handleStatus.number ∧
    (requirePrivate = true → pathStatus.uid = store.ownerUid ∧ pathStatus.mode = directoryMode))
    .unsafeFilesystem
  throwIfAborted signal

/-- A list of directories is synced. -/
def syncDirectories (signal : Option ℕ) : List Path → BlobProg Unit
  | [] => pure ()
  | path :: paths => do
    syncDirectory store signal path true
    syncDirectories signal paths

/-- `syncPrivateHierarchy`, of the directory of the key. -/
def syncPrivateHierarchy (signal : Option ℕ) : BlobProg Unit := do
  syncDirectories store signal
    (store.rootDirectory :: pathsFrom store.rootDirectory write.keyDirectories).reverse
  syncDirectory store signal store.rootDirectory.dropLast false

/-- The loop of `verifyExisting` that reads the file; each read but the last returns a byte at
least. -/
def readAll (number : ℕ) : ℕ → Bytes → BlobProg Bytes
  | 0, _ => throwCode .blobConflict
  | fuel + 1, total => do
    throwIfCancelled process
    let length := min (min verifyChunkBytes store.maxBlobBytes) (write.bytes.length + 1 - total.length)
    let bytes : Bytes ← ask (.read number total.length length)
    throwIfCancelled process
    if bytes = [] then
      pure total
    else do
      demand (total.length + bytes.length ≤ write.bytes.length ∧
        total.length + bytes.length ≤ store.maxBlobBytes) .blobConflict
      readAll number fuel (total ++ bytes)

/-- Whether a status is that of a file of the store with one name. -/
def IsStoredFile (status : Stats) : Prop :=
  status.kind = .file ∧ status.uid = store.ownerUid ∧ status.mode = fileMode ∧ status.nlink = 1

instance (status : Stats) : Decidable (IsStoredFile store status) :=
  inferInstanceAs (Decidable (_ ∧ _ ∧ _ ∧ _))

/-- `verifyExisting` from the status of the path on. -/
def verifyFile (pathStatus : Stats) : BlobProg Receipt := do
  demand (IsStoredFile store pathStatus) .unsafeFilesystem
  demand (pathStatus.size = write.bytes.length ∧ pathStatus.size ≤ store.maxBlobBytes) .blobConflict
  let opened : Reply ℕ ← ask (.openFile (destinationPath store write))
  let number ← orThrow opened
  let before : Stats ← ask (.fstat number)
  demand (before.kind = .file ∧ before.uid = store.ownerUid) .unsafeFilesystem
  demand (before.number = pathStatus.number ∧ before.mode = fileMode ∧ before.nlink = 1 ∧
    before.size = write.bytes.length) .blobConflict
  let bytes ← readAll store process write number (write.bytes.length + 1) []
  let after : Stats ← ask (.fstat number)
  demand (before = after) .blobConflict
  demand (bytes.length = write.bytes.length ∧ sha256 bytes = write.checksumSha256) .blobConflict
  ask (.close number)
  let reply : Reply Stats ← ask (.lstat .plain (destinationPath store write))
  let afterPathStatus ← orThrow reply
  demand (afterPathStatus.kind = .file ∧ afterPathStatus.number = pathStatus.number ∧
    afterPathStatus.size = pathStatus.size ∧ afterPathStatus.changes = pathStatus.changes ∧
      afterPathStatus.mode = fileMode ∧ afterPathStatus.nlink = 1) .blobConflict
  syncPrivateHierarchy store write (some process)
  throwIfCancelled process
  pure ⟨.alreadyPresent, write.checksumSha256, write.bytes.length⟩

/-- `verifyExisting`. -/
def verifyExisting (stage : Stage) : BlobProg (Option Receipt) := do
  throwIfCancelled process
  let reply : Reply Stats ← ask (.lstat stage (destinationPath store write))
  match reply with
  | .ok status => do
    let receipt ← verifyFile store process write status
    pure (some receipt)
  | .error .enoent => pure none
  | .error e => .fail (.errno e)

/-- `verifyCompetingPublish`, with so many attempts left of sixteen. -/
def verifyCompetingPublish : ℕ → BlobProg (Option Receipt)
  | 0 => throwCode .unsafeFilesystem
  | left + 1 => do
    let outcome ← attempt (verifyExisting store process write (.competing (15 - left)))
    match outcome with
    | .ok receipt => pure receipt
    | .error e =>
      if e ≠ .code .unsafeFilesystem then .fail e
      else do
        let reply : Reply Stats ← ask (.lstat .plain (destinationPath store write))
        let status ← orThrow reply
        if ¬ (status.kind = .file ∧ status.uid = store.ownerUid ∧ status.mode = fileMode ∧
            status.size = write.bytes.length) then .fail e
        else if status.nlink = 1 then verifyCompetingPublish left
        else if status.nlink ≠ 2 then .fail e
        else do
          ask .setImmediate
          throwIfCancelled process
          verifyCompetingPublish left

/-- The loop of `publish` that writes the file; each write writes a byte at least. -/
def writeAll (number : ℕ) : ℕ → ℕ → BlobProg Unit
  | 0, offset => demand (write.bytes.length ≤ offset) .ioFailure
  | fuel + 1, offset =>
    if write.bytes.length ≤ offset then pure ()
    else do
      throwIfCancelled process
      let bytes := (write.bytes.drop offset).take writeChunkBytes
      let written : ℕ ← ask (.write number offset bytes)
      demand (1 ≤ written ∧ written ≤ bytes.length) .ioFailure
      writeAll number fuel (offset + written)

/-- The temporary file is written and completed, from its `open` on. -/
def prepare (number : ℕ) : BlobProg Unit := do
  let initialStatus : Stats ← ask (.fstat number)
  demand (initialStatus.kind = .file ∧ initialStatus.size = 0 ∧ initialStatus.nlink = 1 ∧
    initialStatus.uid = store.ownerUid) .unsafeFilesystem
  writeAll store process write number write.bytes.length 0
  throwIfCancelled process
  ask (.fsync number)
  throwIfCancelled process
  ask (.fchmod number fileMode)
  ask (.fsync number)
  throwIfCancelled process
  let completedStatus : Stats ← ask (.fstat number)
  demand (completedStatus.kind = .file ∧ completedStatus.size = write.bytes.length ∧
    completedStatus.nlink = 1 ∧ completedStatus.mode = fileMode) .ioFailure
  demand (completedStatus.uid = store.ownerUid) .unsafeFilesystem
  ask (.close number)
  ensureSafeRoot store process
  assertPrivateSegments store process (pathsFrom store.rootDirectory write.keyDirectories)

/-- What follows when the temporary name of a published file is removed. -/
def finishPublication : BlobProg Receipt := do
  syncPrivateHierarchy store write none
  throwIfCancelled process
  let stored ← verifyExisting store process write .own
  let _ ← Prog.orFail (.code .ioFailure) stored
  pure ⟨.stored, write.checksumSha256, write.bytes.length⟩

/-- A name is gone, whether it was removed or was not there. -/
def removedOrAbsent : Reply Unit → BlobProg Unit
  | .ok _ => pure ()
  | .error .enoent => pure ()
  | .error e => .fail (.errno e)

/-- The end of `publish` where the temporary file is there: it is removed, and the directory
synced. -/
def cleanup (temporaryPath : Path) (outcome : Except Failure Receipt) : BlobProg Receipt := do
  let removed : Reply Unit ← ask (.unlink temporaryPath)
  removedOrAbsent removed
  syncDirectory store none (destinationDirectory store write) true
  match outcome with
  | .ok receipt => pure receipt
  | .error e => .fail e

/-- What is served where the name was taken. -/
def servedAs : Except Failure (Option Receipt) → Except Failure Receipt
  | .ok (some receipt) => .ok receipt
  | .ok none => .error (.code .ioFailure)
  | .error e => .error e

variable (suffix : JsString)

/-- The temporary path of a process. -/
def temporaryPath : Path :=
  destinationDirectory store write ++ [temporaryName write.checksumSha256 suffix]

/-- `publish` from the link on; of its calls only the link fails for what is there already. -/
def linkAndFinish : BlobProg Receipt := do
  let linked : Reply Unit ←
    ask (.link (temporaryPath store write suffix) (destinationPath store write))
  match linked with
  | .ok _ => do
    let removed : Reply Unit ← ask (.unlink (temporaryPath store write suffix))
    match removed with
    | .ok _ => finishPublication store process write
    | .error e => cleanup store write (temporaryPath store write suffix) (.error (.errno e))
  | .error .eexist => do
    let verified ← attempt (verifyCompetingPublish store process write 16)
    cleanup store write (temporaryPath store write suffix) (servedAs verified)
  | .error e => cleanup store write (temporaryPath store write suffix) (.error (.errno e))

/-- `publish`. -/
def publish : BlobProg Receipt := do
  throwIfCancelled process
  let opened : Reply ℕ ← ask (.openExclusive (temporaryPath store write suffix))
  let number ← orThrow opened
  let prepared ← attempt (prepare store process write number)
  match prepared with
  | .error e => cleanup store write (temporaryPath store write suffix) (.error e)
  | .ok _ => linkAndFinish store process write suffix

/-- The errors that `putIfAbsent` throws. -/
def Failure.toCode : Failure → BlobStoreErrorCode
  | .code c => c
  | .errno .eloop => .unsafeFilesystem
  | .errno .enotdir => .unsafeFilesystem
  | .errno _ => .ioFailure

/-- What `putIfAbsent` does with a write that is valid, before its errors are translated. -/
def put : BlobProg Receipt := do
  ensureSafeRoot store process
  ensureKeyDirectories store process write
  let existing ← verifyExisting store process write .first
  match existing with
  | some receipt => pure receipt
  | none => publish store process write suffix

/-- `putIfAbsent`, of a write that is valid, with what its temporary name ends with. -/
def putIfAbsent : BlobProg Receipt := do
  throwIfCancelled process
  let outcome ← attempt (put store process write suffix)
  match outcome with
  | .ok receipt => pure receipt
  | .error e => throwCode e.toCode

end Programs

end Handleplan.BlobStore
