import Handleplan.Worker.PrivateOfferBlobStore

/-!
# Processes that put the same content into the private store

What holds in every interleaving of processes that put the same content under the same key. Each
relies on the others to keep its temporary file, the directories, and what is published.

## Main definitions

* `BlobStore.Sound` — what all processes keep of the file system.
* `BlobStore.Rely` — what a process relies on.
* `BlobStore.contract` — the contract of a process.
* `BlobStore.NotMidway` — the condition on a call: it does not meet another process
  between two calls that belong together.

## Main results

* `BlobStore.assures_putIfAbsent` — what one process assures.
* `BlobStore.putsOnce_of_notMidway` — what holds in every run whose steps meet the
  condition.

## Implementation notes

A process is described from its own side: what it knows holds whatever the others do, so that each
of its functions has one lemma, about the state it starts in and what it leaves known.
-/

namespace Handleplan.BlobStore

open Interaction RelyGuarantee JsString Transitions

/-! ### Paths -/

section Paths

variable {sha256 : Bytes → JsString} {store : Store} (write : ValidatedWrite sha256 store)

/-- The paths between one and another below it. -/
theorem mem_pathsFrom {path start : Path} {segments : List JsString} :
    path ∈ pathsFrom start segments ↔
      start <+: path ∧ path <+: start ++ segments ∧ path ≠ start := by
  induction segments generalizing start with
  | nil =>
    simp only [pathsFrom, List.not_mem_nil, List.append_nil, false_iff, not_and, not_not]
    exact fun hstart hpath => hpath.eq_of_length_le hstart.length_le
  | cons segment segments ih =>
    rw [pathsFrom, List.mem_cons, ih, List.append_assoc, List.singleton_append]
    constructor
    · rintro (rfl | ⟨hstart, hpath, hne⟩)
      · exact ⟨List.prefix_append _ _, ⟨segments, by simp⟩, by simp⟩
      · refine ⟨(List.prefix_append _ _).trans hstart, hpath, ?_⟩
        rintro rfl
        simpa using hstart.length_le
    · rintro ⟨⟨rest, rfl⟩, hpath, hne⟩
      cases rest with
      | nil => simp at hne
      | cons first rest =>
        obtain rfl : first = segment := by
          obtain ⟨more, hmore⟩ := hpath
          simp at hmore
          exact hmore.1
        by_cases hrest : rest = []
        · exact .inl (by rw [hrest])
        · refine .inr ⟨⟨rest, by simp⟩, hpath, by simpa using hrest⟩

/-- A temporary name is longer than the name of the content. -/
theorem temporaryName_ne (checksumSha256 suffix : JsString) :
    temporaryName checksumSha256 suffix ≠ checksumSha256 := by
  intro heq
  have hlength := congrArg List.length heq
  simp only [temporaryName, List.length_append] at hlength
  have : (js ".").length = 1 := by decide
  omega

/-- Different ends make different temporary names. -/
theorem temporaryName_injective (checksumSha256 : JsString) :
    Function.Injective (temporaryName checksumSha256) :=
  fun _ _ heq => List.append_cancel_left heq

/-- A temporary file is not where the content is published. -/
theorem temporaryPath_ne_destinationPath (suffix : JsString) :
    temporaryPath store write suffix ≠ destinationPath store write := by
  intro heq
  exact temporaryName_ne _ _ (List.singleton_injective (List.append_cancel_left heq))

/-- Different ends make different temporary files. -/
theorem temporaryPath_injective : Function.Injective (temporaryPath store write) :=
  fun _ _ heq =>
    temporaryName_injective _ (List.singleton_injective (List.append_cancel_left heq))

variable {write} {path : Path}

/-- What is in the directory of the key is not on the way to it. -/
theorem ne_of_isPrefix (h : path <+: destinationDirectory store write) (name : JsString) :
    path ≠ destinationDirectory store write ++ [name] := by
  rintro rfl
  simpa using h.length_le

/-- A directory of the key is below the root. -/
theorem isPrefix_of_mem_key (h : path ∈ pathsFrom store.rootDirectory write.keyDirectories) :
    store.rootDirectory <+: path ∧ path <+: destinationDirectory store write :=
  ⟨(mem_pathsFrom.mp h).1, (mem_pathsFrom.mp h).2.1⟩

end Paths

/-! ### What is relied on -/

section Contract

variable {sha256 : Bytes → JsString} (store : Store) (write : ValidatedWrite sha256 store)
  (suffix : ℕ → JsString)

/-- A file with all of the content. -/
structure Inode.IsComplete (inode : Inode) : Prop where
  kind : inode.kind = .file
  content : inode.content = write.bytes
  uid : inode.uid = store.ownerUid
  mode : inode.mode = fileMode
  nlink : inode.nlink = 1 ∨ inode.nlink = 2

/-- **What all processes keep** of the file system: the directories of the key are directories of
the user, what is there under the key is complete, each temporary name has a file of its own, and no
more than one was linked. -/
structure Sound (fs : FileSystem) : Prop where
  top : fs.entries [] ≠ none
  allocated : ∀ path number, fs.entries path = some number → number < fs.next
  directory : ∀ path, path <+: destinationDirectory store write → ∀ number,
    fs.entries path = some number → (fs.inodes number).kind = .directory
  owned : ∀ path, store.rootDirectory <+: path → path <+: destinationDirectory store write →
    ∀ number, fs.entries path = some number → (fs.inodes number).uid = store.ownerUid
  complete : ∀ number, fs.entries (destinationPath store write) = some number →
    (fs.inodes number).IsComplete store write
  temporary : ∀ p number, fs.entries (temporaryPath store write (suffix p)) = some number →
    (fs.inodes number).kind = .file
  distinct : ∀ p p' number, fs.entries (temporaryPath store write (suffix p)) = some number →
    fs.entries (temporaryPath store write (suffix p')) = some number → p = p'
  linked : fs.linked.length ≤ 1
  unlinked : fs.entries (destinationPath store write) = none → fs.linked = []

/-- **What a process relies on**: directories stay, its temporary file and what is published are
left alone, nobody else publishes its temporary file, and its signal stays aborted. -/
structure Rely (p : ℕ) (s s' : Shared) : Prop where
  sound : Sound store write suffix s.files → Sound store write suffix s'.files
  directory : ∀ path, path <+: destinationDirectory store write → ∀ number,
    s.files.entries path = some number → s'.files.entries path = some number ∧
      (s'.files.inodes number).uid = (s.files.inodes number).uid ∧
        ((s.files.inodes number).mode = directoryMode →
          (s'.files.inodes number).mode = directoryMode)
  entry : s'.files.entries (temporaryPath store write (suffix p)) =
    s.files.entries (temporaryPath store write (suffix p))
  inode : ∀ number, s.files.entries (temporaryPath store write (suffix p)) = some number →
    s'.files.inodes number = s.files.inodes number
  destination : ∀ number, s.files.entries (destinationPath store write) = some number →
    s'.files.entries (destinationPath store write) = some number ∧
      ((s.files.inodes number).nlink = 1 → s'.files.inodes number = s.files.inodes number)
  unlinked : ∀ number, s.files.entries (temporaryPath store write (suffix p)) = some number →
    s'.files.entries (destinationPath store write) = some number →
      s.files.entries (destinationPath store write) = some number
  linked : ∀ path ∈ s.files.linked, path ∈ s'.files.linked
  aborted : s.aborted p = true → s'.aborted p = true

/-- What a call that publishes nothing and touches no file of the store keeps for all processes. -/
def Quiet (s s' : Shared) : Prop := ∀ p, Rely store write suffix p s s'

/-- What a process guarantees. -/
def Guarantee (p : ℕ) (s s' : Shared) : Prop :=
  (Sound store write suffix s.files → Sound store write suffix s'.files) ∧
    ∀ p', p ≠ p' → Rely store write suffix p' s s'

/-- **The condition on a call**: a check of a private directory does not meet one that is made and
has not got its mode, and neither the first verification nor the last of a competing publication
meets a published file that still has its temporary name too. -/
def NotMidway (s : Shared) : Call → Prop
  | .lstat .directory path => ∀ inode ∈ s.files.inode? path, inode.mode = directoryMode
  | .lstat .first path => ∀ inode ∈ s.files.inode? path, inode.nlink ≠ 2
  | .lstat (.competing attempt) path =>
    attempt = 15 → ∀ inode ∈ s.files.inode? path, inode.nlink ≠ 2
  | _ => True

instance (s : Shared) : DecidablePred (NotMidway s)
  | .lstat .directory path =>
    inferInstanceAs (Decidable (∀ inode ∈ s.files.inode? path, inode.mode = directoryMode))
  | .lstat .first path =>
    inferInstanceAs (Decidable (∀ inode ∈ s.files.inode? path, inode.nlink ≠ 2))
  | .lstat (.competing attempt) path =>
    inferInstanceAs (Decidable (attempt = 15 → ∀ inode ∈ s.files.inode? path, inode.nlink ≠ 2))
  | .lstat .plain _ | .lstat .own _ | .aborted _ | .mkdir _ | .chmod _ _ | .realpath _
  | .openFile _ | .openDirectory _ | .openExclusive _ | .fstat _ | .read _ _ _ | .write _ _ _
  | .fsync _ | .fchmod _ _ | .close _ | .link _ _ | .unlink _ | .setImmediate =>
    inferInstanceAs (Decidable True)

variable {store write suffix} {p : ℕ} {s s' s'' : Shared}

/-- Where nothing happens, all that is relied on is kept. -/
theorem Rely.refl : Rely store write suffix p s s where
  sound := id
  directory _ _ _ h := ⟨h, rfl, id⟩
  entry := rfl
  inode _ _ := rfl
  destination _ h := ⟨h, fun _ => rfl⟩
  unlinked _ _ h := h
  linked _ := id
  aborted := id

/-- What is relied on is kept by one change after another. -/
theorem Rely.trans (h : Rely store write suffix p s s') (h' : Rely store write suffix p s' s'') :
    Rely store write suffix p s s'' where
  sound := h'.sound ∘ h.sound
  directory path hpath number hnumber := by
    obtain ⟨hentry, huid, hmode⟩ := h.directory path hpath number hnumber
    obtain ⟨hentry', huid', hmode'⟩ := h'.directory path hpath number hentry
    exact ⟨hentry', huid'.trans huid, hmode' ∘ hmode⟩
  entry := h'.entry.trans h.entry
  inode number hnumber :=
    (h'.inode number (h.entry.trans hnumber)).trans (h.inode number hnumber)
  destination number hnumber := by
    obtain ⟨hentry, hsame⟩ := h.destination number hnumber
    obtain ⟨hentry', hsame'⟩ := h'.destination number hentry
    refine ⟨hentry', fun hnlink => ?_⟩
    have hinode := hsame hnlink
    exact (hsame' (by rw [hinode]; exact hnlink)).trans hinode
  unlinked number hnumber hentry :=
    h.unlinked number hnumber (h'.unlinked number (h.entry.trans hnumber) hentry)
  linked path hpath := h'.linked path (h.linked path hpath)
  aborted := h'.aborted ∘ h.aborted

variable (store write suffix) in
/-- **The contract of a process.** -/
def contract (p : ℕ) : Contract Shared Call where
  rely := Rely store write suffix p
  guarantee := Guarantee store write suffix p
  may := NotMidway
  refl _ := Rely.refl
  trans := Rely.trans

/-- A call that changes nothing is quiet. -/
theorem Quiet.refl : Quiet store write suffix s s := fun _ => Rely.refl

/-- A quiet call is one that a process may make. -/
theorem Quiet.guarantee (h : Quiet store write suffix s s') : Guarantee store write suffix p s s' :=
  ⟨(h p).sound, fun p' _ => h p'⟩

end Contract

/-! ### Changes of files -/

namespace FileSystem

variable {fs : FileSystem} {path other : Path} {number m : ℕ} {inode : Inode} {f : Inode → Inode}

/-- A file that is changed. -/
theorem change_inodes_self : (fs.change number f).inodes number =
    { f (fs.inodes number) with changes := (fs.inodes number).changes + 1 } :=
  Function.update_self ..

/-- The other files are left alone. -/
theorem change_inodes_of_ne (h : m ≠ number) : (fs.change number f).inodes m = fs.inodes m :=
  Function.update_of_ne h ..

/-- What is made has the next number. -/
theorem create_entries_self : (fs.create path inode).entries path = some fs.next :=
  Function.update_self ..

/-- The other names are left alone. -/
theorem create_entries_of_ne (h : other ≠ path) :
    (fs.create path inode).entries other = fs.entries other :=
  Function.update_of_ne h ..

theorem create_inodes_self : (fs.create path inode).inodes fs.next = inode :=
  Function.update_self ..

/-- The files that are there are left alone. -/
theorem create_inodes_of_lt (h : m < fs.next) : (fs.create path inode).inodes m = fs.inodes m :=
  Function.update_of_ne h.ne ..

/-- What is there then was made, or was there. -/
theorem create_cases (h : (fs.create path inode).entries other = some m) :
    other = path ∧ m = fs.next ∨ fs.entries other = some m := by
  by_cases hother : other = path
  · rw [hother, create_entries_self] at h
    exact .inl ⟨hother, (Option.some.inj h).symm⟩
  · exact .inr ((create_entries_of_ne hother).symm.trans h)

variable {source : Path}

@[simp] theorem addName_linked :
    (fs.addName source path number).linked = fs.linked ++ [source] := rfl

theorem addName_entries_self :
    (fs.addName source path number).entries path = some number :=
  Function.update_self ..

theorem addName_entries_of_ne (h : other ≠ path) :
    (fs.addName source path number).entries other = fs.entries other :=
  Function.update_of_ne h ..

/-- A file with one more name. -/
theorem addName_inodes_self : (fs.addName source path number).inodes number =
    { fs.inodes number with
      nlink := (fs.inodes number).nlink + 1
      changes := (fs.inodes number).changes + 1 } :=
  Function.update_self ..

theorem addName_inodes_of_ne (h : m ≠ number) :
    (fs.addName source path number).inodes m = fs.inodes m :=
  Function.update_of_ne h ..

theorem removeName_entries_self : (fs.removeName path number).entries path = none :=
  Function.update_self ..

theorem removeName_entries_of_ne (h : other ≠ path) :
    (fs.removeName path number).entries other = fs.entries other :=
  Function.update_of_ne h ..

/-- A file with one name less. -/
theorem removeName_inodes_self : (fs.removeName path number).inodes number =
    { fs.inodes number with
      nlink := (fs.inodes number).nlink - 1
      changes := (fs.inodes number).changes + 1 } :=
  Function.update_self ..

theorem removeName_inodes_of_ne (h : m ≠ number) :
    (fs.removeName path number).inodes m = fs.inodes m :=
  Function.update_of_ne h ..

end FileSystem

/-! ### What calls keep -/

section Calls

variable {sha256 : Bytes → JsString} {store : Store} {write : ValidatedWrite sha256 store}
  {suffix : ℕ → JsString} {s : Shared} {path : Path} {p number m : ℕ}

@[simp] theorem withFiles_files (files : FileSystem) : (s.withFiles files).files = files := rfl

section

variable (hs : Sound store write suffix s.files)

include hs

/-- A directory is no temporary file. -/
theorem Sound.ne_temporary (hpath : path <+: destinationDirectory store write)
    (hm : s.files.entries path = some m)
    (hnumber : s.files.entries (temporaryPath store write (suffix p)) = some number) :
    m ≠ number := by
  rintro rfl
  have hkind := hs.directory path hpath m hm
  rw [hs.temporary p m hnumber] at hkind
  exact absurd hkind (by decide)

/-- A directory is not what is published. -/
theorem Sound.ne_destination (hpath : path <+: destinationDirectory store write)
    (hm : s.files.entries path = some m)
    (hnumber : s.files.entries (destinationPath store write) = some number) : m ≠ number := by
  rintro rfl
  have hkind := hs.directory path hpath m hm
  rw [(hs.complete m hnumber).kind] at hkind
  exact absurd hkind (by decide)

/-- What is made leaves the files alone that are there. -/
theorem Sound.inodes_create {inode : Inode} {other : Path} (h : s.files.entries other = some m) :
    (s.files.create path inode).inodes m = s.files.inodes m :=
  FileSystem.create_inodes_of_lt (hs.allocated other m h)

/-- Numbers are given out in order. -/
theorem Sound.allocated_create {inode : Inode} (other : Path) (m : ℕ)
    (h : (s.files.create path inode).entries other = some m) :
    m < (s.files.create path inode).next := by
  obtain ⟨-, rfl⟩ | h := FileSystem.create_cases h
  · exact Nat.lt_succ_self _
  · exact Nat.lt_succ_of_lt (hs.allocated other m h)

/-- The mode of a directory may be set. -/
theorem quiet_chmod (hpath : path <+: destinationDirectory store write)
    (hnumber : s.files.entries path = some number) :
    Quiet store write suffix s (s.withFiles (s.files.change number fun inode =>
      { inode with mode := directoryMode })) := by
  set fs := s.files.change number fun inode => { inode with mode := directoryMode } with hfs
  have hself : fs.inodes number = { s.files.inodes number with
      mode := directoryMode
      changes := (s.files.inodes number).changes + 1 } := FileSystem.change_inodes_self
  have hother : ∀ m, m ≠ number → fs.inodes m = s.files.inodes m := fun m hm =>
    FileSystem.change_inodes_of_ne hm
  have hkept : ∀ m, (fs.inodes m).kind = (s.files.inodes m).kind ∧
      (fs.inodes m).uid = (s.files.inodes m).uid := by
    intro m
    by_cases hm : m = number
    · rw [hm, hself]
      exact ⟨rfl, rfl⟩
    · rw [hother m hm]
      exact ⟨rfl, rfl⟩
  have hdestination : ∀ m, s.files.entries (destinationPath store write) = some m →
      fs.inodes m = s.files.inodes m := fun m hm =>
    hother m (hs.ne_destination hpath hnumber hm).symm
  have hsound : Sound store write suffix fs :=
    ⟨hs.top, hs.allocated,
      fun other hother m hm => (hkept m).1.trans (hs.directory other hother m hm),
      fun other hroot hother m hm => (hkept m).2.trans (hs.owned other hroot hother m hm),
      fun m hm => (hdestination m hm).symm ▸ hs.complete m hm,
      fun p' m hm => (hkept m).1.trans (hs.temporary p' m hm),
      hs.distinct, hs.linked, hs.unlinked⟩
  refine fun p => ⟨fun _ => hsound, fun other hpath' m hm => ⟨hm, (hkept m).2, fun hmode => ?_⟩, rfl,
    fun m hm => hother m (hs.ne_temporary hpath hnumber hm).symm,
    fun m hm => ⟨hm, fun _ => hdestination m hm⟩, fun m _ hm => hm, fun _ => id, id⟩
  rw [withFiles_files]
  by_cases hm' : m = number
  · rw [hm', hself]
  · rw [hother m hm']
    exact hmode

/-- A directory may be made. -/
theorem quiet_mkdir (hpath : path <+: destinationDirectory store write)
    (hnone : s.files.entries path = none)
    {inode : Inode} (hkind : inode.kind = .directory) (huid : inode.uid = store.ownerUid) :
    Quiet store write suffix s (s.withFiles (s.files.create path inode)) := by
  have hsame : ∀ other, other ≠ path →
      (s.files.create path inode).entries other = s.files.entries other := fun other hother =>
    FileSystem.create_entries_of_ne hother
  have hgrows : ∀ other m, s.files.entries other = some m →
      (s.files.create path inode).entries other = some m := fun other m hm =>
    (hsame other (by rintro rfl; rw [hnone] at hm; cases hm)).trans hm
  have hcases : ∀ other m, (s.files.create path inode).entries other = some m →
      s.files.entries other = some m ∧ (s.files.create path inode).inodes m = s.files.inodes m ∨
        (s.files.create path inode).inodes m = inode := by
    intro other m hm
    obtain ⟨-, rfl⟩ | hm := FileSystem.create_cases hm
    · exact .inr FileSystem.create_inodes_self
    · exact .inl ⟨hm, hs.inodes_create hm⟩
  have htemporary : ∀ q, (s.files.create path inode).entries (temporaryPath store write q) =
      s.files.entries (temporaryPath store write q) := fun q => hsame _ (ne_of_isPrefix hpath _).symm
  have hdestination : (s.files.create path inode).entries (destinationPath store write) =
      s.files.entries (destinationPath store write) := hsame _ (ne_of_isPrefix hpath _).symm
  refine fun p => ⟨fun _ => ⟨?_, hs.allocated_create, ?_, ?_, ?_, ?_, ?_, hs.linked, ?_⟩, ?_,
    htemporary _, ?_, ?_, fun m _ hm => hdestination ▸ hm, fun _ => id, id⟩
  · obtain ⟨m, hm⟩ := Option.ne_none_iff_exists'.mp hs.top
    exact Option.ne_none_iff_exists'.mpr ⟨m, hgrows [] m hm⟩
  · intro other hother m hm
    obtain ⟨hm, heq⟩ | heq := hcases other m hm
    · exact (congrArg Inode.kind heq).trans (hs.directory other hother m hm)
    · exact (congrArg Inode.kind heq).trans hkind
  · intro other hroot hother m hm
    obtain ⟨hm, heq⟩ | heq := hcases other m hm
    · exact (congrArg Inode.uid heq).trans (hs.owned other hroot hother m hm)
    · exact (congrArg Inode.uid heq).trans huid
  · intro m hm
    rw [withFiles_files, hdestination] at hm
    exact (hs.inodes_create hm).symm ▸ hs.complete m hm
  · intro p' m hm
    rw [withFiles_files, htemporary] at hm
    exact (congrArg Inode.kind (hs.inodes_create hm)).trans (hs.temporary p' m hm)
  · intro p' p'' m hm hm'
    rw [withFiles_files, htemporary] at hm hm'
    exact hs.distinct p' p'' m hm hm'
  · intro h
    rw [withFiles_files, hdestination] at h
    exact hs.unlinked h
  · intro other hother m hm
    exact ⟨hgrows other m hm, congrArg Inode.uid (hs.inodes_create hm),
      fun hmode => (congrArg Inode.mode (hs.inodes_create hm)).trans hmode⟩
  · exact fun m hm => hs.inodes_create hm
  · exact fun m hm => ⟨hgrows _ m hm, fun _ => hs.inodes_create hm⟩

end

variable (store write) in
/-- A change that leaves the directories of the key alone. -/
structure KeepsDirectories (fs fs' : FileSystem) : Prop where
  entries : ∀ path, path <+: destinationDirectory store write → fs'.entries path = fs.entries path
  inodes : ∀ path, path <+: destinationDirectory store write → ∀ m, fs.entries path = some m →
    fs'.inodes m = fs.inodes m

/-- Directories that are left alone are as they were. -/
theorem KeepsDirectories.directory {fs fs' : FileSystem} (h : KeepsDirectories store write fs fs')
    (path : Path) (hpath : path <+: destinationDirectory store write) (m : ℕ)
    (hm : fs.entries path = some m) :
    fs'.entries path = some m ∧ (fs'.inodes m).uid = (fs.inodes m).uid ∧
      ((fs.inodes m).mode = directoryMode → (fs'.inodes m).mode = directoryMode) := by
  rw [h.inodes path hpath m hm]
  exact ⟨(h.entries path hpath).trans hm, rfl, id⟩

/-- **Directories that are left alone are sound** still. -/
theorem KeepsDirectories.sound {fs fs' : FileSystem} (h : KeepsDirectories store write fs fs')
    (hs : Sound store write suffix fs) :
    fs'.entries [] ≠ none ∧
      (∀ path, path <+: destinationDirectory store write → ∀ m, fs'.entries path = some m →
        (fs'.inodes m).kind = .directory) ∧
      ∀ path, store.rootDirectory <+: path → path <+: destinationDirectory store write → ∀ m,
        fs'.entries path = some m → (fs'.inodes m).uid = store.ownerUid := by
  refine ⟨(h.entries [] List.nil_prefix).symm ▸ hs.top, fun path hpath m hm => ?_,
    fun path hroot hpath m hm => ?_⟩
  · rw [h.entries path hpath] at hm
    exact (congrArg Inode.kind (h.inodes path hpath m hm)).trans (hs.directory path hpath m hm)
  · rw [h.entries path hpath] at hm
    exact (congrArg Inode.uid (h.inodes path hpath m hm)).trans (hs.owned path hroot hpath m hm)

/-- A temporary file may be made by its process. -/
theorem guarantee_openExclusive (hsuffix : Function.Injective suffix)
    (hs : Sound store write suffix s.files) {inode : Inode}
    (hkind : inode.kind = .file) :
    Guarantee store write suffix p s
      (s.withFiles (s.files.create (temporaryPath store write (suffix p)) inode)) := by
  set path := temporaryPath store write (suffix p) with hpathDef
  have hsame : ∀ other, other ≠ path →
      (s.files.create path inode).entries other = s.files.entries other := fun other hother =>
    FileSystem.create_entries_of_ne hother
  have hdirectories : KeepsDirectories store write s.files (s.files.create path inode) :=
    ⟨fun other hother => hsame other (ne_of_isPrefix hother _), fun other _ m hm => hs.inodes_create hm⟩
  have htemporary : ∀ p', p ≠ p' →
      (s.files.create path inode).entries (temporaryPath store write (suffix p')) =
        s.files.entries (temporaryPath store write (suffix p')) := fun p' hp =>
    hsame _ fun heq => hp (hsuffix (temporaryPath_injective write heq)).symm
  have hdestination : (s.files.create path inode).entries (destinationPath store write) =
      s.files.entries (destinationPath store write) :=
    hsame _ (temporaryPath_ne_destinationPath write _).symm
  have hsound : Sound store write suffix (s.files.create path inode) := by
    obtain ⟨htop, hkinds, howned⟩ := hdirectories.sound hs
    refine ⟨htop, hs.allocated_create, hkinds, howned, ?_, ?_, ?_, hs.linked, ?_⟩
    · intro m hm
      rw [hdestination] at hm
      exact (hs.inodes_create hm).symm ▸ hs.complete m hm
    · intro p' m hm
      by_cases hp : p = p'
      · subst hp
        rw [← hpathDef, FileSystem.create_entries_self] at hm
        cases hm
        rw [FileSystem.create_inodes_self]
        exact hkind
      · rw [htemporary p' hp] at hm
        exact (congrArg Inode.kind (hs.inodes_create hm)).trans (hs.temporary p' m hm)
    · intro p' p'' m hm hm'
      -- the new file has a new number
      have hnew : ∀ q, p ≠ q → (s.files.create path inode).entries
          (temporaryPath store write (suffix q)) = some s.files.next → False := fun q hq h =>
        (hs.allocated _ _ ((htemporary q hq).symm.trans h)).ne rfl
      by_cases hp' : p = p' <;> by_cases hp'' : p = p''
      · exact hp'.symm.trans hp''
      · subst hp'
        rw [← hpathDef, FileSystem.create_entries_self] at hm
        cases hm
        exact (hnew p'' hp'' hm').elim
      · subst hp''
        rw [← hpathDef, FileSystem.create_entries_self] at hm'
        cases hm'
        exact (hnew p' hp' hm).elim
      · rw [htemporary p' hp'] at hm
        rw [htemporary p'' hp''] at hm'
        exact hs.distinct p' p'' m hm hm'
    · intro h
      rw [hdestination] at h
      exact hs.unlinked h
  exact ⟨fun _ => hsound, fun p' hp => ⟨fun _ => hsound, hdirectories.directory, htemporary p' hp,
    fun m hm => hs.inodes_create hm, fun m hm => ⟨hdestination.trans hm, fun _ => hs.inodes_create hm⟩,
    fun m _ hm => hdestination ▸ hm, fun _ => id, id⟩⟩

/-- A temporary file that is not published may be changed by its process. -/
theorem guarantee_change (hs : Sound store write suffix s.files)
    (hnumber : s.files.entries (temporaryPath store write (suffix p)) = some number)
    (hunlinked : s.files.entries (destinationPath store write) ≠ some number) {f : Inode → Inode}
    (hf : ∀ inode, (f inode).kind = inode.kind) :
    Guarantee store write suffix p s (s.withFiles (s.files.change number f)) := by
  have hother : ∀ m, m ≠ number →
      (s.files.change number f).inodes m = s.files.inodes m := fun m hm =>
    FileSystem.change_inodes_of_ne hm
  have hkind : ∀ m, ((s.files.change number f).inodes m).kind = (s.files.inodes m).kind := by
    intro m
    by_cases hm : m = number
    · subst hm
      rw [FileSystem.change_inodes_self]
      exact hf _
    · rw [hother m hm]
  have hdestination : ∀ m, s.files.entries (destinationPath store write) = some m →
      (s.files.change number f).inodes m = s.files.inodes m := fun m hm =>
    hother m (by rintro rfl; exact hunlinked hm)
  have hdirectories : KeepsDirectories store write s.files (s.files.change number f) :=
    ⟨fun _ _ => rfl, fun path hpath m hm => hother m (hs.ne_temporary hpath hm hnumber)⟩
  obtain ⟨htop, hkinds, howned⟩ := hdirectories.sound hs
  have hsound : Sound store write suffix (s.files.change number f) :=
    ⟨htop, hs.allocated, hkinds, howned, fun m hm => (hdestination m hm).symm ▸ hs.complete m hm,
      fun p' m hm => (hkind m).trans (hs.temporary p' m hm), hs.distinct, hs.linked, hs.unlinked⟩
  refine ⟨fun _ => hsound, fun p' hp => ⟨fun _ => hsound, hdirectories.directory, rfl,
    fun m hm => ?_, fun m hm => ⟨hm, fun _ => hdestination m hm⟩, fun m _ hm => hm, fun _ => id,
    id⟩⟩
  exact hother m (by rintro rfl; exact hp (hs.distinct p p' m hnumber hm))

/-- A complete temporary file may be linked by its process, where nothing is published. -/
theorem guarantee_link (hs : Sound store write suffix s.files)
    (hnumber : s.files.entries (temporaryPath store write (suffix p)) = some number)
    (hcomplete : (s.files.inodes number).IsComplete store write)
    (hnlink : (s.files.inodes number).nlink = 1)
    (hnone : s.files.entries (destinationPath store write) = none) :
    Guarantee store write suffix p s (s.withFiles (s.files.addName
      (temporaryPath store write (suffix p)) (destinationPath store write) number)) := by
  set fs := s.files.addName (temporaryPath store write (suffix p)) (destinationPath store write)
    number with hfs
  have hsame : ∀ path, path ≠ destinationPath store write →
      fs.entries path = s.files.entries path := fun path hpath =>
    FileSystem.addName_entries_of_ne hpath
  have hother : ∀ m, m ≠ number → fs.inodes m = s.files.inodes m := fun m hm =>
    FileSystem.addName_inodes_of_ne hm
  have hdirectories : KeepsDirectories store write s.files fs :=
    ⟨fun path hpath => hsame path (ne_of_isPrefix hpath _),
      fun path hpath m hm => hother m (hs.ne_temporary hpath hm hnumber)⟩
  have htemporary : ∀ q, fs.entries (temporaryPath store write q) =
      s.files.entries (temporaryPath store write q) := fun q =>
    hsame _ (temporaryPath_ne_destinationPath write q)
  have hself : fs.inodes number = { s.files.inodes number with
      nlink := (s.files.inodes number).nlink + 1
      changes := (s.files.inodes number).changes + 1 } := FileSystem.addName_inodes_self
  have hsound : Sound store write suffix fs := by
    obtain ⟨htop, hkinds, howned⟩ := hdirectories.sound hs
    refine ⟨htop, ?_, hkinds, howned, ?_, ?_, ?_, ?_, ?_⟩
    · intro path m hm
      by_cases hpath : path = destinationPath store write
      · rw [hpath, hfs, FileSystem.addName_entries_self] at hm
        cases hm
        exact hs.allocated _ _ hnumber
      · rw [hsame path hpath] at hm
        exact hs.allocated path m hm
    · intro m hm
      rw [hfs, FileSystem.addName_entries_self] at hm
      cases hm
      rw [hself]
      exact ⟨hcomplete.kind, hcomplete.content, hcomplete.uid, hcomplete.mode,
        .inr (congrArg (· + 1) hnlink)⟩
    · intro p' m hm
      rw [htemporary] at hm
      by_cases hsame : m = number
      · rw [hsame, hself]
        exact hcomplete.kind
      · rw [hother m hsame]
        exact hs.temporary p' m hm
    · intro p' p'' m hm hm'
      rw [htemporary] at hm hm'
      exact hs.distinct p' p'' m hm hm'
    · rw [hfs, FileSystem.addName_linked, hs.unlinked hnone]
      exact le_rfl
    · intro h
      rw [hfs, FileSystem.addName_entries_self] at h
      cases h
  refine ⟨fun _ => hsound, fun p' hp => ⟨fun _ => hsound, hdirectories.directory, htemporary _,
    fun m hm => ?_, fun m hm => ?_, fun m hm hlinked => ?_, fun path hpath => ?_, id⟩⟩
  · exact hother m (by rintro rfl; exact hp (hs.distinct p p' m hnumber hm))
  · rw [hnone] at hm
    cases hm
  · rw [withFiles_files, hfs, FileSystem.addName_entries_self] at hlinked
    cases hlinked
    exact absurd (hs.distinct p p' _ hnumber hm) hp
  · exact List.mem_append_left _ hpath

/-- A temporary name may be removed by its process, of a file that is not published, or that is and
has no other name. -/
theorem guarantee_unlink (hsuffix : Function.Injective suffix)
    (hs : Sound store write suffix s.files)
    (hnumber : s.files.entries (temporaryPath store write (suffix p)) = some number)
    (hpublished : s.files.entries (destinationPath store write) = some number →
      (s.files.inodes number).nlink = 2) :
    Guarantee store write suffix p s (s.withFiles (s.files.removeName
      (temporaryPath store write (suffix p)) number)) := by
  set fs := s.files.removeName (temporaryPath store write (suffix p)) number with hfs
  have hsame : ∀ path, path ≠ temporaryPath store write (suffix p) →
      fs.entries path = s.files.entries path := fun path hpath =>
    FileSystem.removeName_entries_of_ne hpath
  have hother : ∀ m, m ≠ number → fs.inodes m = s.files.inodes m := fun m hm =>
    FileSystem.removeName_inodes_of_ne hm
  have hdirectories : KeepsDirectories store write s.files fs :=
    ⟨fun path hpath => hsame path (ne_of_isPrefix hpath _),
      fun path hpath m hm => hother m (hs.ne_temporary hpath hm hnumber)⟩
  have htemporary : ∀ p', p ≠ p' → fs.entries (temporaryPath store write (suffix p')) =
      s.files.entries (temporaryPath store write (suffix p')) := fun p' hp =>
    hsame _ fun heq => hp (hsuffix (temporaryPath_injective write heq)).symm
  have hself : fs.inodes number = { s.files.inodes number with
      nlink := (s.files.inodes number).nlink - 1
      changes := (s.files.inodes number).changes + 1 } := FileSystem.removeName_inodes_self
  have hgone : fs.entries (temporaryPath store write (suffix p)) = none :=
    FileSystem.removeName_entries_self
  have hdestination : fs.entries (destinationPath store write) =
      s.files.entries (destinationPath store write) :=
    hsame _ (temporaryPath_ne_destinationPath write _).symm
  have hremains : ∀ p' m, fs.entries (temporaryPath store write (suffix p')) = some m →
      s.files.entries (temporaryPath store write (suffix p')) = some m := by
    intro p' m hm
    by_cases hp : p = p'
    · subst hp
      rw [hgone] at hm
      cases hm
    · exact (htemporary p' hp).symm.trans hm
  have hsound : Sound store write suffix fs := by
    obtain ⟨htop, hkinds, howned⟩ := hdirectories.sound hs
    refine ⟨htop, ?_, hkinds, howned, ?_, ?_, ?_, hs.linked, ?_⟩
    · intro path m hm
      by_cases hpath : path = temporaryPath store write (suffix p)
      · rw [hpath, hgone] at hm
        cases hm
      · rw [hsame path hpath] at hm
        exact hs.allocated path m hm
    · intro m hm
      rw [hdestination] at hm
      have hcomplete := hs.complete m hm
      by_cases hm' : m = number
      · subst hm'
        rw [hself]
        exact ⟨hcomplete.kind, hcomplete.content, hcomplete.uid, hcomplete.mode,
          .inl (by rw [hpublished hm])⟩
      · rw [hother m hm']
        exact hcomplete
    · intro p' m hm
      by_cases hm' : m = number
      · rw [hm', hself]
        exact hs.temporary p number hnumber
      · rw [hother m hm']
        exact hs.temporary p' m (hremains p' m hm)
    · exact fun p' p'' m hm hm' => hs.distinct p' p'' m (hremains p' m hm) (hremains p'' m hm')
    · intro h
      rw [hdestination] at h
      exact hs.unlinked h
  refine ⟨fun _ => hsound, fun p' hp => ⟨fun _ => hsound, hdirectories.directory, htemporary p' hp,
    fun m hm => ?_, fun m hm => ⟨hdestination.trans hm, fun hnlink => ?_⟩,
    fun m _ hm => hdestination ▸ hm, fun _ => id, id⟩⟩
  · exact hother m (by rintro rfl; exact hp (hs.distinct p p' m hnumber hm))
  · refine hother m ?_
    rintro rfl
    rw [hpublished hm] at hnlink
    cases hnlink

end Calls

/-! ### What is known -/

section Known

variable {sha256 : Bytes → JsString} (store : Store) (write : ValidatedWrite sha256 store)
  (suffix : ℕ → JsString)

/-- Something is there. -/
def Present (path : Path) (s : Shared) : Prop := s.files.entries path ≠ none

/-- A file of the user is there. -/
def OwnedAt (path : Path) (s : Shared) : Prop :=
  ∃ number, s.files.entries path = some number ∧ (s.files.inodes number).uid = store.ownerUid

/-- A directory of the user is there that nobody else may use. -/
def PrivateAt (path : Path) (s : Shared) : Prop :=
  ∃ number, s.files.entries path = some number ∧ (s.files.inodes number).uid = store.ownerUid ∧
    (s.files.inodes number).mode = directoryMode

/-- The directories of the key are there, and private from the root on. -/
structure Ready (s : Shared) : Prop where
  sound : Sound store write suffix s.files
  present : ∀ path, path <+: destinationDirectory store write → Present path s
  isPrivate : ∀ path, store.rootDirectory <+: path → path <+: destinationDirectory store write →
    PrivateAt store path s

/-- The temporary file of a process, which nobody has published. -/
structure Writing (p number : ℕ) (content : Bytes) (mode : ℕ) (s : Shared) : Prop where
  entry : s.files.entries (temporaryPath store write (suffix p)) = some number
  content : (s.files.inodes number).content = content
  mode : (s.files.inodes number).mode = mode
  uid : (s.files.inodes number).uid = store.ownerUid
  nlink : (s.files.inodes number).nlink = 1
  unlinked : s.files.entries (destinationPath store write) ≠ some number

/-- A file that is published and has no other name. -/
structure Published (number : ℕ) (inode : Inode) (s : Shared) : Prop where
  entry : s.files.entries (destinationPath store write) = some number
  inode_eq : s.files.inodes number = inode
  complete : inode.IsComplete store write
  nlink : inode.nlink = 1

variable {store write suffix} {p number : ℕ} {path : Path} {inode : Inode}

/-- The others keep the file system sound. -/
theorem stable_sound :
    Stable (contract store write suffix p) fun s => Sound store write suffix s.files :=
  fun _ _ hrely => hrely.sound

section

variable (hpath : path <+: destinationDirectory store write)

include hpath

/-- A directory that is there stays. -/
theorem stable_present :
    Stable (contract store write suffix p) (Present path) := by
  intro s s' hrely h
  obtain ⟨number, hnumber⟩ := Option.ne_none_iff_exists'.mp h
  exact Option.ne_none_iff_exists'.mpr ⟨number, (hrely.directory path hpath number hnumber).1⟩

/-- It stays the user's. -/
theorem stable_ownedAt :
    Stable (contract store write suffix p) (OwnedAt store path) := by
  rintro s s' hrely ⟨number, hnumber, huid⟩
  obtain ⟨hentry, huid', -⟩ := hrely.directory path hpath number hnumber
  exact ⟨number, hentry, huid'.trans huid⟩

/-- It stays private. -/
theorem stable_privateAt :
    Stable (contract store write suffix p) (PrivateAt store path) := by
  rintro s s' hrely ⟨number, hnumber, huid, hmode⟩
  obtain ⟨hentry, huid', hmode'⟩ := hrely.directory path hpath number hnumber
  exact ⟨number, hentry, huid'.trans huid, hmode' hmode⟩

end

theorem PrivateAt.present {s : Shared} (h : PrivateAt store path s) : Present path s :=
  Option.ne_none_iff_exists'.mpr (h.imp fun _ => And.left)

/-- The directories of the key stay ready. -/
theorem stable_ready : Stable (contract store write suffix p) (Ready store write suffix) :=
  fun s s' hrely h => ⟨hrely.sound h.sound,
    fun path hpath => stable_present hpath s s' hrely (h.present path hpath),
    fun path hroot hpath => stable_privateAt hpath s s' hrely (h.isPrivate path hroot hpath)⟩

/-- What is published stays. -/
theorem stable_destination :
    Stable (contract store write suffix p) (Present (destinationPath store write)) := by
  intro s s' hrely h
  obtain ⟨number, hnumber⟩ := Option.ne_none_iff_exists'.mp h
  exact Option.ne_none_iff_exists'.mpr ⟨number, (hrely.destination number hnumber).1⟩

/-- What is published, with no other name, is left alone. -/
theorem stable_published :
    Stable (contract store write suffix p) (Published store write number inode) := by
  rintro s s' hrely ⟨hentry, hinode, hcomplete, hnlink⟩
  obtain ⟨hentry', hsame⟩ := hrely.destination number hentry
  exact ⟨hentry', (hsame (hinode ▸ hnlink)).trans hinode, hcomplete, hnlink⟩

/-- The temporary name of a process is left alone. -/
theorem stable_entry {value : Option ℕ} : Stable (contract store write suffix p) fun s =>
    s.files.entries (temporaryPath store write (suffix p)) = value :=
  fun _ _ hrely h => hrely.entry.trans h

/-- The file of a process is left alone, and not published by others. -/
theorem stable_writing {content : Bytes} {mode : ℕ} :
    Stable (contract store write suffix p) (Writing store write suffix p number content mode) := by
  rintro s s' hrely ⟨hentry, hcontent, hmode, huid, hnlink, hunlinked⟩
  have hinode := hrely.inode number hentry
  refine ⟨hrely.entry.trans hentry, ?_, ?_, ?_, ?_, fun hlinked => ?_⟩
  · rw [hinode]; exact hcontent
  · rw [hinode]; exact hmode
  · rw [hinode]; exact huid
  · rw [hinode]; exact hnlink
  · exact hunlinked (hrely.unlinked number hentry hlinked)

/-- What was linked stays so. -/
theorem stable_linked : Stable (contract store write suffix p) fun s => path ∈ s.files.linked :=
  fun _ _ hrely h => hrely.linked path h

end Known

/-! ### Rules -/

section Rules

variable {sha256 : Bytes → JsString} (platform : Platform) (store : Store)
  (write : ValidatedWrite sha256 store) (suffix : ℕ → JsString) (p : ℕ)

/-- What a program of a process assures. -/
abbrev Ensures {α : Type} (post : α → Shared → Prop) (failed : Failure → Shared → Prop) :
    BlobProg α → Shared → Prop :=
  Assures (machine platform) (contract store write suffix p) post failed

/-- What is known while a program runs, and that it may fail where its signal is aborted. -/
structure Knows (J : Shared → Prop) (failed : Failure → Shared → Prop) : Prop where
  stable : Stable (contract store write suffix p) J
  stable_failed : Stable (contract store write suffix p) (failed (.code .cancelled))
  cancelled : ∀ s, J s → s.aborted p = true → failed (.code .cancelled) s

variable {platform store write suffix p} {J K : Shared → Prop} {failed : Failure → Shared → Prop}
  {α β : Type} {post : β → Shared → Prop} {s s' : Shared}

/-- More is known. -/
theorem Knows.and (h : Knows store write suffix p J failed)
    (hK : Stable (contract store write suffix p) K) :
    Knows store write suffix p (fun s => J s ∧ K s) failed :=
  ⟨h.stable.and hK, h.stable_failed, fun s hs => h.cancelled s hs.1⟩

/-- The state that a call leaves which changes nothing. -/
theorem eq_of_admits (α : Type) {P : α → Prop} [DecidablePred P] {answer : α}
    (h : admits P answer s = some s') : P answer ∧ s' = s := by
  obtain ⟨hp, heq⟩ := Option.ite_none_right_eq_some.mp h
  exact ⟨hp, (Option.some.inj heq).symm⟩

/-- The answer of a call that has one. -/
theorem eq_of_returns (α : Type) [DecidableEq α] {answer value : α}
    (h : returns value answer s = some s') : answer = value ∧ s' = s :=
  eq_of_admits α h

/-- A value is returned. -/
theorem ensures_pure {a : β} (hstable : Stable (contract store write suffix p) (post a))
    (hpost : post a s) :
    Ensures platform store write suffix p post failed (pure a) s :=
  Assures.pure hstable hpost

section

variable (h : Knows store write suffix p J failed)

include h

/-- **A call that changes nothing**, of which the answer is known. -/
theorem ensures_read {q : Call}
    {f : Answer q → BlobProg β} {P : Shared → Answer q → Prop}
    (hP : ∀ s answer s', act platform s q answer = some s' → P s answer ∧ s' = s) (hJ : J s)
    (hnext : ∀ s answer, J s → NotMidway s q → P s answer →
      Ensures platform store write suffix p post failed (f answer) s) :
    Ensures platform store write suffix p post failed (ask q >>= f) s := by
  refine Assures.ask h.stable hJ fun s answer s' hs hmay hact => ?_
  obtain ⟨hanswer, rfl⟩ := hP s answer s' hact
  exact ⟨Quiet.refl.guarantee, hnext s' answer hs hmay hanswer⟩

/-- **A call that is answered from the state**, and leaves it. -/
theorem ensures_returns {q : Call}
    {f : Answer q → BlobProg β} (value : Shared → Answer q)
    (hact : ∀ s answer s', act platform s q answer = some s' → answer = value s ∧ s' = s) (hJ : J s)
    (hnext : ∀ s, J s → NotMidway s q →
      Ensures platform store write suffix p post failed (f (value s)) s) :
    Ensures platform store write suffix p post failed (ask q >>= f) s :=
  ensures_read (P := fun s answer => answer = value s) h hact hJ fun s _ hs hmay hanswer =>
    hanswer ▸ hnext s hs hmay

/-- A call that changes nothing, whatever it is answered. -/
theorem ensures_skip {q : Call} {f : Answer q → BlobProg β}
    (hskip : ∀ s answer, act platform s q answer = some s) (hJ : J s)
    (hnext : ∀ s answer, J s → Ensures platform store write suffix p post failed (f answer) s) :
    Ensures platform store write suffix p post failed (ask q >>= f) s :=
  ensures_read (P := fun _ _ => True) h
    (fun s answer _ hact => ⟨trivial, (Option.some.inj ((hskip s answer).symm.trans hact)).symm⟩)
    hJ fun s answer hs _ _ => hnext s answer hs

/-- The status of a path. -/
theorem ensures_lstat {stage : Stage} {path : Path}
    {f : Reply Stats → BlobProg β} (hJ : J s)
    (hnext : ∀ s, J s → NotMidway s (.lstat stage path) →
      Ensures platform store write suffix p post failed (f (s.files.lstat path)) s) :
    Ensures platform store write suffix p post failed (ask (.lstat stage path) >>= f) s :=
  ensures_returns h (fun s => s.files.lstat path)
    (fun _ _ _ hact => eq_of_returns (Reply Stats) hact) hJ hnext

/-- The status of a file that is open. -/
theorem ensures_fstat {number : ℕ}
    {f : Stats → BlobProg β} (hJ : J s)
    (hnext : ∀ s, J s →
      Ensures platform store write suffix p post failed (f ((s.files.inodes number).stats number)) s) :
    Ensures platform store write suffix p post failed (ask (.fstat number) >>= f) s :=
  ensures_returns h (fun s => (s.files.inodes number).stats number)
    (fun _ _ _ hact => eq_of_returns Stats hact) hJ fun s hs _ => hnext s hs

/-- A process goes on, or its signal is aborted. -/
theorem ensures_throwIfCancelled (hJ : J s) :
    Ensures platform store write suffix p (fun _ => J) failed (throwIfCancelled p) s := by
  refine ensures_returns h (fun s => s.aborted p) (fun _ _ _ hact => eq_of_returns Bool hact) hJ
    fun s hs _ => ?_
  cases haborted : s.aborted p with
  | false => exact Assures.require_end rfl h.stable hs
  | true => exact Assures.require_fail nofun h.stable_failed (h.cancelled s hs haborted)

variable {signal : Option ℕ}

/-- The signals that a process may be given. -/
theorem ensures_throwIfAborted (hsignal : ∀ q ∈ signal, q = p) (hJ : J s) :
    Ensures platform store write suffix p (fun _ => J) failed (throwIfAborted signal) s := by
  cases signal with
  | none => exact Assures.pure h.stable hJ
  | some q =>
    obtain rfl := hsignal q rfl
    exact ensures_throwIfCancelled h hJ

end

/-! ### Directories -/

variable {path : Path}

theorem stable_at {number : ℕ} (hpath : path <+: destinationDirectory store write) :
    Stable (contract store write suffix p) fun s => s.files.entries path = some number :=
  fun _ _ hrely h => (hrely.directory path hpath number h).1

/-- The status of a directory that is there. -/
theorem lstat_eq_ok {fs : FileSystem} {number : ℕ} (h : fs.entries path = some number) :
    fs.lstat path = .ok ((fs.inodes number).stats number) := by
  unfold FileSystem.lstat
  rw [h]

/-- The status of what is not there. -/
theorem lstat_eq_error {fs : FileSystem} (h : fs.entries path = none) :
    fs.lstat path = .error .enoent := by
  unfold FileSystem.lstat
  rw [h]

/-- Where a name may be made. -/
theorem nameable_eq_ok {fs : FileSystem} (hnone : fs.entries path = none) {number : ℕ}
    (hparent : fs.entries path.dropLast = some number)
    (hkind : (fs.inodes number).kind = .directory) : fs.nameable path = .ok () := by
  simp [FileSystem.nameable, FileSystem.inode?, hnone, hparent, hkind]

theorem nameable_eq_error {fs : FileSystem} {number : ℕ} (h : fs.entries path = some number) :
    fs.nameable path = .error .eexist := by
  unfold FileSystem.nameable
  rw [h]

theorem PrivateAt.ownedAt (h : PrivateAt store path s) : OwnedAt store path s :=
  h.imp fun _ h => ⟨h.1, h.2.1⟩

theorem Sound.ownedAt (hs : Sound store write suffix s.files)
    (hroot : store.rootDirectory <+: path) (hpath : path <+: destinationDirectory store write)
    (hpresent : Present path s) : OwnedAt store path s := by
  obtain ⟨number, hnumber⟩ := Option.ne_none_iff_exists'.mp hpresent
  exact ⟨number, hnumber, hs.owned path hroot hpath number hnumber⟩

/-- What is known of a directory on the way to the root, once it is checked. -/
def Checked (store : Store) (path : Path) (s : Shared) : Prop :=
  Present path s ∧ (path = store.rootDirectory → PrivateAt store path s)

theorem stable_checked (hpath : path <+: destinationDirectory store write) :
    Stable (contract store write suffix p) (Checked store path) :=
  fun s s' hrely h => ⟨stable_present hpath s s' hrely h.1, fun heq =>
    stable_privateAt hpath s s' hrely (h.2 heq)⟩

/-- What is known once the root is checked. -/
structure RootReady (store : Store) (s : Shared) : Prop where
  present : ∀ path, path <+: store.rootDirectory → Present path s
  isPrivate : PrivateAt store store.rootDirectory s

theorem root_isPrefix : store.rootDirectory <+: destinationDirectory store write :=
  List.prefix_append _ _

theorem stable_rootReady : Stable (contract store write suffix p) (RootReady store) :=
  fun s s' hrely h => ⟨fun path hpath =>
    stable_present (hpath.trans root_isPrefix) s s' hrely (h.present path hpath),
    stable_privateAt root_isPrefix s s' hrely h.isPrivate⟩

section

variable (huid : platform.uid = store.ownerUid)
  (h : Knows store write suffix p J failed)
  (hsound : ∀ s, J s → Sound store write suffix s.files)

include h hsound

/-- A directory passes its check, since it does not lack its mode when that is made. -/
theorem ensures_lstatDirectory (hpath : path <+: destinationDirectory store write)
    {isPrivate : Bool} (hpresent : ∀ s, J s → Present path s)
    (howned : isPrivate = true → ∀ s, J s → OwnedAt store path s) (hJ : J s) :
    Ensures platform store write suffix p
      (fun _ s => J s ∧ (isPrivate = true → PrivateAt store path s)) failed
      (lstatDirectory store path isPrivate) s := by
  refine ensures_lstat h hJ fun s hs hmay => ?_
  obtain ⟨number, hnumber⟩ := Option.ne_none_iff_exists'.mp (hpresent s hs)
  rw [lstat_eq_ok hnumber]
  have hprivate : isPrivate = true → (s.files.inodes number).uid = store.ownerUid ∧
      (s.files.inodes number).mode = directoryMode := by
    intro htrue
    obtain ⟨m, hm, huid⟩ := howned htrue s hs
    obtain rfl := Option.some.inj (hnumber.symm.trans hm)
    rw [htrue] at hmay
    exact ⟨huid, hmay _ (by simp [FileSystem.inode?, hnumber])⟩
  refine Assures.require ((hsound s hs).directory path hpath number hnumber) ?_
  refine Assures.require_end hprivate (fun s s' hrely hK => ⟨h.stable s s' hrely hK.1, fun htrue =>
    stable_privateAt hpath s s' hrely (hK.2 htrue)⟩) ⟨hs, fun htrue => ?_⟩
  exact ⟨number, hnumber, hprivate htrue⟩

/-- On the way to a directory there are no symbolic links. -/
theorem ensures_demandRealpath (hpath : path <+: destinationDirectory store write)
    (hpresent : ∀ s, J s → Present path s) (hJ : J s) :
    Ensures platform store write suffix p (fun _ => J) failed (demandRealpath path) s := by
  refine ensures_read (P := fun s answer => IsRealpath s.files path answer) h
    (fun _ _ _ hact => eq_of_admits (Reply Path) hact) hJ fun s answer hs _ hanswer => ?_
  have hlinks : NoSymbolicLink s.files path := by
    intro part hpart inode hinode
    obtain ⟨number, hnumber, rfl⟩ := Option.map_eq_some_iff.mp hinode
    rw [(hsound s hs).directory part (((List.mem_inits _ _).mp hpart).trans hpath) number hnumber]
    decide
  cases hreply : (answer : Reply Path) with
  | error e =>
    rw [hreply] at hanswer
    exact absurd hanswer.2 (hpresent s hs)
  | ok real =>
    rw [hreply] at hanswer
    exact Assures.require_end (hanswer.2 hlinks) h.stable hs

include huid

/-- A directory is there when it has been made, by whomever. -/
theorem ensures_makeDirectory (hpath : path <+: destinationDirectory store write)
    (hparent : ∀ s, J s → Present path.dropLast s) (hJ : J s) :
    Ensures platform store write suffix p
      (fun created s => J s ∧ Present path s ∧ (created = true → PrivateAt store path s)) failed
      (makeDirectory path) s := by
  refine Assures.ask h.stable hJ fun s answer s' hs _ hact => ?_
  obtain ⟨rfl, rfl⟩ := eq_of_returns (Reply Unit) hact
  have hstable : ∀ created : Bool, Stable (contract store write suffix p) fun s =>
      J s ∧ Present path s ∧ (created = true → PrivateAt store path s) := fun created s s' hrely hK =>
    ⟨h.stable s s' hrely hK.1, stable_present hpath s s' hrely hK.2.1, fun htrue =>
      stable_privateAt hpath s s' hrely (hK.2.2 htrue)⟩
  cases hentry : s.files.entries path with
  | some number =>
    have hmkdir : mkdirAt platform s.files path = (.error .eexist, s.files) := by
      unfold mkdirAt
      rw [nameable_eq_error hentry]
    rw [hmkdir]
    refine ⟨Quiet.refl.guarantee, ensures_pure (hstable false) ⟨hs, ?_, nofun⟩⟩
    exact Option.ne_none_iff_exists'.mpr ⟨number, hentry⟩
  | none =>
    obtain ⟨parent, hparentEntry⟩ := Option.ne_none_iff_exists'.mp (hparent s hs)
    have hkind := (hsound s hs).directory path.dropLast ((List.dropLast_prefix _).trans hpath)
      parent hparentEntry
    obtain ⟨inode, hmkdir, hinodeKind, hinodeUid⟩ : ∃ inode : Inode,
        mkdirAt platform s.files path = (.ok (), s.files.create path inode) ∧
          inode.kind = .directory ∧ inode.uid = store.ownerUid := by
      unfold mkdirAt
      rw [nameable_eq_ok hentry hparentEntry hkind]
      exact ⟨_, rfl, rfl, huid⟩
    rw [hmkdir]
    have hquiet := quiet_mkdir (hsound s hs) hpath hentry hinodeKind hinodeUid
    refine ⟨hquiet.guarantee, ?_⟩
    -- the mode of the new directory is set
    refine Assures.ask (J := fun s => J s ∧ OwnedAt store path s)
      (h.stable.and (stable_ownedAt hpath))
      ⟨h.stable _ _ (hquiet p) hs, s.files.next, FileSystem.create_entries_self, ?_⟩
      fun s answer s' hs _ hact => ?_
    · rw [withFiles_files, FileSystem.create_inodes_self]
      exact hinodeUid
    · obtain ⟨rfl, rfl⟩ := eq_of_returns (Reply Unit) hact
      obtain ⟨hs, number, hnumber, howned⟩ := hs
      have hchmod : chmodAt s.files path directoryMode = (.ok (), s.files.change number fun inode =>
          { inode with mode := directoryMode }) := by
        unfold chmodAt
        rw [hnumber]
      rw [hchmod]
      have hquiet := quiet_chmod (hsound s hs) hpath hnumber
      refine ⟨hquiet.guarantee, ?_⟩
      have hprivate : PrivateAt store path (s.withFiles (s.files.change number fun inode =>
          { inode with mode := directoryMode })) := by
        refine ⟨number, hnumber, ?_⟩
        rw [withFiles_files, FileSystem.change_inodes_self]
        exact ⟨howned, rfl⟩
      exact ensures_pure (hstable true)
        ⟨h.stable _ _ (hquiet p) hs, hprivate.present, fun _ => hprivate⟩

/-- The directories on the way to the root are there, one after the other. -/
theorem ensures_ensureSafeSegments {start : Path} {segments : List JsString}
    (hwithin : start ++ segments <+: destinationDirectory store write)
    (hstart : ∀ s, J s → Present start s) (hJ : J s) :
    Ensures platform store write suffix p
      (fun _ s => J s ∧ ∀ path ∈ pathsFrom start segments, Checked store path s) failed
      (ensureSafeSegments store p (pathsFrom start segments)) s := by
  induction segments generalizing start J s with
  | nil =>
    exact ensures_pure (fun s s' hrely hK => ⟨h.stable s s' hrely hK.1, nofun⟩) ⟨hJ, nofun⟩
  | cons segment segments ih =>
    rw [pathsFrom]
    have hpath : start ++ [segment] <+: destinationDirectory store write :=
      List.IsPrefix.trans ⟨segments, by simp⟩ hwithin
    refine Assures.seq (ensures_throwIfCancelled h hJ) fun _ s hs => ?_
    refine ensures_lstat h hs fun s hs _ => ?_
    have hknown : Knows store write suffix p (fun s => J s ∧ Present (start ++ [segment]) s) failed :=
      h.and (stable_present hpath)
    -- whatever was there, the directory is there then
    refine Assures.seq ?_ fun created s (hs : (J s ∧ Present (start ++ [segment]) s) ∧
      (created = true → PrivateAt store (start ++ [segment]) s)) => ?_
    · cases hentry : s.files.entries (start ++ [segment]) with
      | none =>
        rw [lstat_eq_error hentry]
        refine (ensures_makeDirectory huid h hsound hpath (fun s hs => ?_) hs).mono
          (fun _ _ hs => ⟨⟨hs.1, hs.2.1⟩, hs.2.2⟩) fun _ _ => id
        rw [List.dropLast_concat]
        exact hstart s hs
      | some number =>
        rw [lstat_eq_ok hentry]
        exact ensures_pure (fun s s' hrely hK => ⟨hknown.stable s s' hrely hK.1, nofun⟩)
          ⟨⟨hs, Option.ne_none_iff_exists'.mpr ⟨number, hentry⟩⟩, nofun⟩
    · have hcreated : Knows store write suffix p (fun s => (J s ∧ Present (start ++ [segment]) s) ∧
          (created = true → PrivateAt store (start ++ [segment]) s)) failed :=
        hknown.and fun s s' hrely hK htrue => stable_privateAt hpath s s' hrely (hK htrue)
      refine Assures.seq (ensures_lstatDirectory hcreated (fun s hs => hsound s hs.1.1) hpath
        (fun s hs => hs.1.2) (fun hprivate s hs => ?_) hs) fun _ s hs => ?_
      · obtain htrue | hroot := (Bool.or_eq_true _ _).mp hprivate
        · exact (hs.2 htrue).ownedAt
        · exact (hsound s hs.1.1).ownedAt (of_decide_eq_true hroot ▸ List.prefix_rfl) hpath hs.1.2
      · refine (ih (J := fun s => J s ∧ Checked store (start ++ [segment]) s)
          (h.and (stable_checked hpath)) (fun s hs => hsound s hs.1) ?_ (fun s hs => hs.2.1)
          ⟨hs.1.1.1, hs.1.1.2, fun hroot => hs.2 (by simp [hroot])⟩).mono (fun _ s hs => ?_)
          fun _ _ => id
        · rw [List.append_assoc]
          exact hwithin
        · exact ⟨hs.1.1, List.forall_mem_cons.mpr ⟨hs.1.2, hs.2⟩⟩

/-- The root is there, and private. -/
theorem ensures_ensureSafeRoot (hJ : J s) :
    Ensures platform store write suffix p (fun _ s => J s ∧ RootReady store s) failed
      (ensureSafeRoot store p) s := by
  refine Assures.seq (ensures_throwIfCancelled h hJ) fun _ s hs => ?_
  refine Assures.seq (ensures_ensureSafeSegments huid h hsound (by simpa using root_isPrefix)
    (fun s hs => (hsound s hs).top) hs) fun _ s hs => ?_
  have hready : RootReady store s := by
    have hroot : store.rootDirectory ∈ pathsFrom [] store.rootDirectory :=
      mem_pathsFrom.mpr ⟨List.nil_prefix, by simp, store.root_ne⟩
    refine ⟨fun path hpath => ?_, (hs.2 _ hroot).2 rfl⟩
    by_cases htop : path = []
    · rw [htop]
      exact (hsound s hs.1).top
    · exact (hs.2 path (mem_pathsFrom.mpr ⟨List.nil_prefix, hpath, htop⟩)).1
  have hknown := h.and (K := RootReady store) stable_rootReady
  refine Assures.seq (ensures_demandRealpath hknown (fun s hs => hsound s hs.1) root_isPrefix
    (fun s hs => hs.2.isPrivate.present) ⟨hs.1, hready⟩) fun _ s hs => ?_
  exact ensures_throwIfCancelled hknown hs

/-- The directories of the key are there and private, one after the other. -/
theorem ensures_ensureKeySegments {start : Path} {segments : List JsString}
    (hroot : store.rootDirectory <+: start)
    (hwithin : start ++ segments <+: destinationDirectory store write)
    (hstart : ∀ s, J s → Present start s) (hJ : J s) :
    Ensures platform store write suffix p
      (fun _ s => J s ∧ ∀ path ∈ pathsFrom start segments, PrivateAt store path s) failed
      (ensureKeySegments store p (pathsFrom start segments)) s := by
  induction segments generalizing start J s with
  | nil =>
    exact ensures_pure (fun s s' hrely hK => ⟨h.stable s s' hrely hK.1, nofun⟩) ⟨hJ, nofun⟩
  | cons segment segments ih =>
    rw [pathsFrom]
    have hpath : start ++ [segment] <+: destinationDirectory store write :=
      List.IsPrefix.trans ⟨segments, by simp⟩ hwithin
    have hbelow : store.rootDirectory <+: start ++ [segment] :=
      hroot.trans (List.prefix_append _ _)
    refine Assures.seq (ensures_throwIfCancelled h hJ) fun _ s hs => ?_
    refine Assures.seq (ensures_makeDirectory huid h hsound hpath (fun s hs => ?_) hs)
      fun _ s hs => ?_
    · rw [List.dropLast_concat]
      exact hstart s hs
    have hknown := h.and (K := Present (start ++ [segment])) (stable_present hpath)
    refine Assures.seq (ensures_lstatDirectory hknown (fun s hs => hsound s hs.1) hpath
      (fun s hs => hs.2) (fun _ s hs => (hsound s hs.1).ownedAt hbelow hpath hs.2)
      ⟨hs.1, hs.2.1⟩) fun _ s hs => ?_
    have hknown' := h.and (K := PrivateAt store (start ++ [segment])) (stable_privateAt hpath)
    refine Assures.seq (ensures_demandRealpath hknown' (fun s hs => hsound s hs.1) hpath
      (fun s hs => hs.2.present) ⟨hs.1.1, hs.2 rfl⟩) fun _ s hs => ?_
    refine (ih hknown' (fun s hs => hsound s hs.1) hbelow ?_ (fun s hs => hs.2.present) hs).mono
      (fun _ s hs => ⟨hs.1.1, List.forall_mem_cons.mpr ⟨hs.1.2, hs.2⟩⟩) fun _ _ => id
    rw [List.append_assoc]
    exact hwithin

/-- All directories are ready. -/
theorem ensures_ensureKeyDirectories (hroot : ∀ s, J s → RootReady store s) (hJ : J s) :
    Ensures platform store write suffix p (fun _ s => J s ∧ Ready store write suffix s) failed
      (ensureKeyDirectories store p write) s := by
  refine Assures.seq (ensures_ensureKeySegments huid h hsound List.prefix_rfl List.prefix_rfl
    (fun s hs => (hroot s hs).isPrivate.present) hJ) fun _ s hs => ?_
  have hprivate : ∀ path, store.rootDirectory <+: path →
      path <+: destinationDirectory store write → PrivateAt store path s := by
    intro path hbelow hpath
    by_cases heq : path = store.rootDirectory
    · rw [heq]
      exact (hroot s hs.1).isPrivate
    · exact hs.2 path (mem_pathsFrom.mpr ⟨hbelow, hpath, heq⟩)
  have hready : Ready store write suffix s := by
    refine ⟨hsound s hs.1, fun path hpath => ?_, hprivate⟩
    obtain hbelow | habove := List.prefix_or_prefix_of_prefix
      (root_isPrefix : store.rootDirectory <+: destinationDirectory store write) hpath
    · exact (hprivate path hbelow hpath).present
    · exact (hroot s hs.1).present path habove
  exact ensures_throwIfCancelled (h.and stable_ready) ⟨hs.1, hready⟩

end

section

variable (h : Knows store write suffix p J failed) (hready : ∀ s, J s → Ready store write suffix s)

include h hready

/-- Directories that are ready pass their checks. -/
theorem ensures_assertPrivateSegments {paths : List Path}
    (hpaths : ∀ path ∈ paths, store.rootDirectory <+: path ∧
      path <+: destinationDirectory store write) (hJ : J s) :
    Ensures platform store write suffix p (fun _ => J) failed
      (assertPrivateSegments store p paths) s := by
  induction paths generalizing s with
  | nil => exact ensures_pure h.stable hJ
  | cons path paths ih =>
    obtain ⟨⟨hroot, hpath⟩, hpaths⟩ := List.forall_mem_cons.mp hpaths
    refine Assures.seq (ensures_throwIfCancelled h hJ) fun _ s hs => ?_
    refine Assures.seq (ensures_lstatDirectory h (fun s hs => (hready s hs).sound) hpath
      (fun s hs => (hready s hs).present path hpath)
      (fun _ s hs => ((hready s hs).isPrivate path hroot hpath).ownedAt) hs) fun _ s hs => ?_
    refine Assures.seq (ensures_demandRealpath h (fun s hs => (hready s hs).sound) hpath
      (fun s hs => (hready s hs).present path hpath) hs.1) fun _ s hs => ?_
    exact ih hpaths hs

/-! ### Syncs -/

/-- A directory is synced: the one that is opened is still there afterwards. -/
theorem ensures_syncDirectory (hsignal : ∀ q ∈ signal, q = p)
    (hpath : path <+: destinationDirectory store write) {requirePrivate : Bool}
    (hroot : requirePrivate = true → store.rootDirectory <+: path) (hJ : J s) :
    Ensures platform store write suffix p (fun _ => J) failed
      (syncDirectory store signal path requirePrivate) s := by
  refine Assures.seq (ensures_throwIfAborted h hsignal hJ) fun _ s hs => ?_
  refine ensures_returns h (fun s => s.files.openDirectory path)
    (fun _ _ _ hact => eq_of_returns (Reply ℕ) hact) hs fun s hs _ => ?_
  obtain ⟨number, hnumber⟩ := Option.ne_none_iff_exists'.mp ((hready s hs).present path hpath)
  have hkind := (hready s hs).sound.directory path hpath number hnumber
  have hopen : s.files.openDirectory path = .ok number := by
    unfold FileSystem.openDirectory
    rw [hnumber]
    exact if_pos hkind
  rw [hopen]
  -- the directory that is opened stays the one of the path
  have hknown := h.and (K := fun s => s.files.entries path = some number) (stable_at hpath)
  have hdirectory : ∀ s, J s ∧ s.files.entries path = some number →
      (s.files.inodes number).kind = .directory ∧ (requirePrivate = true →
        (s.files.inodes number).uid = store.ownerUid ∧
          (s.files.inodes number).mode = directoryMode) := by
    rintro s ⟨hs, hentry⟩
    refine ⟨(hready s hs).sound.directory path hpath number hentry, fun htrue => ?_⟩
    obtain ⟨m, hm, huid, hmode⟩ := (hready s hs).isPrivate path (hroot htrue) hpath
    obtain rfl := Option.some.inj (hentry.symm.trans hm)
    exact ⟨huid, hmode⟩
  refine ensures_fstat hknown ⟨hs, hnumber⟩ fun s hs => ?_
  refine Assures.require (hdirectory s hs).1 (Assures.require (hdirectory s hs).2 ?_)
  refine ensures_skip hknown (fun _ _ => rfl) hs fun s _ hs => ?_
  refine ensures_skip hknown (fun _ _ => rfl) hs fun s _ hs => ?_
  refine ensures_lstat hknown hs fun s hs _ => ?_
  rw [lstat_eq_ok hs.2]
  refine Assures.require ⟨(hdirectory s hs).1, rfl, (hdirectory s hs).2⟩ ?_
  exact ensures_throwIfAborted h hsignal hs.1

/-- Directories are synced, one after the other. -/
theorem ensures_syncDirectories (hsignal : ∀ q ∈ signal, q = p) {paths : List Path}
    (hpaths : ∀ path ∈ paths, store.rootDirectory <+: path ∧
      path <+: destinationDirectory store write) (hJ : J s) :
    Ensures platform store write suffix p (fun _ => J) failed
      (syncDirectories store signal paths) s := by
  induction paths generalizing s with
  | nil => exact ensures_pure h.stable hJ
  | cons path paths ih =>
    obtain ⟨⟨hroot, hpath⟩, hpaths⟩ := List.forall_mem_cons.mp hpaths
    refine Assures.seq (ensures_syncDirectory h hready hsignal hpath (fun _ => hroot) hJ)
      fun _ s hs => ?_
    exact ih hpaths hs

/-- All directories of the key are synced. -/
theorem ensures_syncPrivateHierarchy (hsignal : ∀ q ∈ signal, q = p) (hJ : J s) :
    Ensures platform store write suffix p (fun _ => J) failed
      (syncPrivateHierarchy store write signal) s := by
  refine Assures.seq (ensures_syncDirectories h hready hsignal (fun path hpath => ?_) hJ)
    fun _ s hs => ?_
  · obtain rfl | hpath := List.mem_cons.mp (List.mem_reverse.mp hpath)
    · exact ⟨List.prefix_rfl, root_isPrefix⟩
    · exact isPrefix_of_mem_key hpath
  · exact ensures_syncDirectory h hready hsignal
      ((List.dropLast_prefix _).trans root_isPrefix) nofun hs

end

end Rules

/-! ### Verifications -/

section Verifications

variable {sha256 : Bytes → JsString} {platform : Platform} {store : Store}
  {write : ValidatedWrite sha256 store} {suffix : ℕ → JsString} {p : ℕ} {J : Shared → Prop}
  {failed : Failure → Shared → Prop} {s : Shared} {number : ℕ} {inode : Inode}

/-- The loop that reads a file reads all of it.

**Proof sketch.** Induction on the reads that are left: each but the last takes a byte at least. -/
theorem ensures_readAll (h : Knows store write suffix p J failed)
    (hcontent : ∀ s, J s → (s.files.inodes number).content = write.bytes) {fuel : ℕ} {total : Bytes}
    (htotal : total <+: write.bytes) (hfuel : write.bytes.length + 1 ≤ fuel + total.length)
    (hJ : J s) :
    Ensures platform store write suffix p (fun bytes s => J s ∧ bytes = write.bytes) failed
      (readAll store p write number fuel total) s := by
  induction fuel generalizing total s with
  | zero =>
    have hlength := htotal.length_le
    omega
  | succ fuel ih =>
    have hlength := htotal.length_le
    have hpositive : 0 < min (min verifyChunkBytes store.maxBlobBytes)
        (write.bytes.length + 1 - total.length) := by
      have hmax := store.maxBlobBytes_le.1
      simp only [verifyChunkBytes]
      omega
    refine Assures.seq (ensures_throwIfCancelled h hJ) fun _ s hs => ?_
    refine ensures_read (P := fun s answer => IsRead (s.files.inodes number).content total.length
      (min (min verifyChunkBytes store.maxBlobBytes) (write.bytes.length + 1 - total.length)) answer)
      h (fun _ _ _ hact => eq_of_admits Bytes hact) hs fun s (answer : Bytes) hs _ hanswer => ?_
    rw [hcontent s hs] at hanswer
    refine Assures.seq (ensures_throwIfCancelled h hs) fun _ s hs => ?_
    split_ifs with hempty
    · -- nothing is left to read
      have hdone := hanswer.2 hempty
      have hrest : write.bytes.drop total.length = [] := by
        cases hdrop : write.bytes.drop total.length with
        | nil => rfl
        | cons byte rest =>
          rw [hdrop, List.take_eq_nil_iff] at hdone
          obtain hzero | hnil := hdone
          · exact absurd hzero hpositive.ne'
          · cases hnil
      have hall : total = write.bytes :=
        htotal.eq_of_length_le (List.drop_eq_nil_iff.mp hrest)
      exact ensures_pure (h.stable.and stable_const) ⟨hs, hall⟩
    · have hmore : total ++ answer <+: write.bytes := by
        obtain ⟨rest, hrest⟩ := htotal
        have hnext : answer <+: write.bytes.drop total.length :=
          hanswer.1.trans (List.take_prefix _ _)
        rw [← hrest, List.drop_left] at hnext
        rw [← hrest]
        exact (List.prefix_append_right_inj total).mpr hnext
      have hbound := hmore.length_le
      rw [List.length_append] at hbound
      have hsome : 0 < answer.length := List.length_pos_iff.mpr hempty
      refine Assures.require ⟨hbound, hbound.trans write.length_bytes.2⟩ ?_
      refine ih hmore ?_ hs
      rw [List.length_append]
      omega

/-- What a process knows of the outcome of an attempt to verify a competing publication. -/
def Attempted (p : ℕ) (left : ℕ) (outcome : Except Failure (Option Receipt)) (s : Shared) : Prop :=
  match outcome with
  | .ok found => ∃ receipt, found = some receipt ∧ receipt.state = .alreadyPresent
  | .error e => (e = .code .cancelled ∧ s.aborted p = true) ∨
      (e = .code .unsafeFilesystem ∧ left ≠ 0)

variable {left : ℕ}

/-- The outcome of an attempt stays known. -/
theorem stable_attempted {outcome : Except Failure (Option Receipt)} :
    Stable (contract store write suffix p) (Attempted p left outcome) := by
  intro s s' hrely h
  cases outcome with
  | ok found => exact h
  | error e => exact h.imp (fun h => ⟨h.1, hrely.aborted h.2⟩) id

variable (h : Knows store write suffix p J failed) (hready : ∀ s, J s → Ready store write suffix s)

include h hready

/-- What is published passes its verification. -/
theorem ensures_verifyFile (hpublished : ∀ s, J s → Published store write number inode s) (hJ : J s) :
    Ensures platform store write suffix p (fun receipt s => J s ∧ receipt.state = .alreadyPresent)
      failed (verifyFile store p write (inode.stats number)) s := by
  obtain ⟨-, -, hcomplete, hnlink⟩ := hpublished s hJ
  have hsize : inode.content.length = write.bytes.length := by rw [hcomplete.content]
  refine Assures.require ⟨hcomplete.kind, hcomplete.uid, hcomplete.mode, hnlink⟩ ?_
  refine Assures.require ⟨hsize, hsize.trans_le write.length_bytes.2⟩ ?_
  refine ensures_returns h (fun s => s.files.openFile (destinationPath store write))
    (fun _ _ _ hact => eq_of_returns (Reply ℕ) hact) hJ fun s hs _ => ?_
  have hopen : s.files.openFile (destinationPath store write) = .ok number := by
    unfold FileSystem.openFile
    rw [(hpublished s hs).entry]
    refine if_neg ?_
    rw [(hpublished s hs).inode_eq, hcomplete.kind]
    decide
  rw [hopen]
  refine ensures_fstat h hs fun s hs => ?_
  rw [(hpublished s hs).inode_eq]
  refine Assures.require ⟨hcomplete.kind, hcomplete.uid⟩ ?_
  refine Assures.require ⟨rfl, hcomplete.mode, hnlink, hsize⟩ ?_
  refine Assures.seq (ensures_readAll h (fun s hs => ?_) List.nil_prefix (by simp) hs)
    fun bytes s hs => ?_
  · rw [(hpublished s hs).inode_eq]
    exact hcomplete.content
  obtain ⟨hs, rfl⟩ := hs
  refine ensures_fstat h hs fun s hs => ?_
  rw [(hpublished s hs).inode_eq]
  refine Assures.require rfl (Assures.require ⟨rfl, write.checksum_eq⟩ ?_)
  refine ensures_skip h (fun _ _ => rfl) hs fun s _ hs => ?_
  refine ensures_lstat h hs fun s hs _ => ?_
  rw [lstat_eq_ok (hpublished s hs).entry, (hpublished s hs).inode_eq]
  refine Assures.require ⟨hcomplete.kind, rfl, rfl, rfl, hcomplete.mode, hnlink⟩ ?_
  refine Assures.seq (ensures_syncPrivateHierarchy h hready (fun _ => ?_) hs) fun _ s hs => ?_
  · exact fun hsignal => (Option.some.inj hsignal).symm
  refine Assures.seq (ensures_throwIfCancelled h hs) fun _ s hs => ?_
  exact ensures_pure (h.stable.and stable_const) ⟨hs, rfl⟩

/-- **A verification** finds nothing, or what is published; it fails where that has its temporary
name too. -/
theorem ensures_verifyExisting {stage : Stage}
    (hstable : Stable (contract store write suffix p) (failed (.code .unsafeFilesystem)))
    (htwice : ∀ s number, J s → NotMidway s (.lstat stage (destinationPath store write)) →
      s.files.entries (destinationPath store write) = some number →
      (s.files.inodes number).nlink = 2 → failed (.code .unsafeFilesystem) s) (hJ : J s) :
    Ensures platform store write suffix p
      (fun found s => J s ∧ (∀ receipt ∈ found, receipt.state = .alreadyPresent) ∧
        (found = none → ∃ s, J s ∧ ¬ Present (destinationPath store write) s)) failed
      (verifyExisting store p write stage) s := by
  refine Assures.seq (ensures_throwIfCancelled h hJ) fun _ s hs => ?_
  refine ensures_lstat h hs fun s hs hmay => ?_
  cases hentry : s.files.entries (destinationPath store write) with
  | none =>
    rw [lstat_eq_error hentry]
    exact ensures_pure (h.stable.and stable_const)
      ⟨hs, nofun, fun _ => ⟨s, hs, fun hpresent => hpresent hentry⟩⟩
  | some number =>
    rw [lstat_eq_ok hentry]
    have hcomplete := (hready s hs).sound.complete number hentry
    obtain hone | htwo := hcomplete.nlink
    · have hknown := h.and (K := Published store write number (s.files.inodes number))
        stable_published
      refine Assures.seq (ensures_verifyFile hknown (fun s hs => hready s hs.1)
        (fun s hs => hs.2) ⟨hs, hentry, rfl, hcomplete, hone⟩) fun receipt s hs => ?_
      refine ensures_pure (h.stable.and stable_const)
        ⟨hs.1.1, fun other hother => ?_, nofun⟩
      cases hother
      exact hs.2
    · -- the first check of a status fails
      have hfails : ¬ IsStoredFile store ((s.files.inodes number).stats number) := by
        rintro ⟨-, -, -, hone⟩
        exact absurd (htwo.symm.trans hone) (by decide)
      have heq : (do
          let receipt ← verifyFile store p write ((s.files.inodes number).stats number)
          pure (some receipt) : BlobProg (Option Receipt)) =
            .fail (.code .unsafeFilesystem) := by
        unfold verifyFile demand Prog.require
        rw [if_neg hfails]
        rfl
      show Assures _ _ _ _ (do
        let receipt ← verifyFile store p write ((s.files.inodes number).stats number)
        pure (some receipt) : BlobProg (Option Receipt)) s
      rw [heq]
      exact Assures.fail hstable (htwice s number hs hmay hentry htwo)

/-- One attempt, where those after it go well. -/
theorem ensures_attempt (hpresent : ∀ s, J s → Present (destinationPath store write) s)
    (hnext : left ≠ 0 → ∀ s, J s → Ensures platform store write suffix p (fun found s => J s ∧
      ∃ receipt, found = some receipt ∧ receipt.state = .alreadyPresent) failed
      (verifyCompetingPublish store p write left) s)
    (hJ : J s) :
    Ensures platform store write suffix p
      (fun found s => J s ∧ ∃ receipt, found = some receipt ∧ receipt.state = .alreadyPresent)
      failed (verifyCompetingPublish store p write (left + 1)) s := by
  have hattempted : ∀ outcome, Stable (contract store write suffix p) fun s =>
      J s ∧ Attempted p left outcome s := fun outcome => h.stable.and stable_attempted
  have hknown : Knows store write suffix p J fun e s => J s ∧ Attempted p left (.error e) s :=
    ⟨h.stable, hattempted _, fun s hs haborted => ⟨hs, .inl ⟨rfl, haborted⟩⟩⟩
  refine Assures.seq (Assures.attempt ?_)
    fun outcome s (hs : J s ∧ Attempted p left outcome s) => ?_
  · refine (ensures_verifyExisting hknown hready (hattempted _) (fun s number hs hmay hentry htwo =>
    ⟨hs, .inr ⟨rfl, ?_⟩⟩) hJ).mono
      (fun found s hs => ⟨hs.1, ?_⟩) fun _ _ => id
    · -- the last attempt does not meet two links
      rintro rfl
      exact hmay rfl _ (by simp [FileSystem.inode?, hentry]) htwo
    · cases found with
      | none =>
        obtain ⟨s', hs', habsent⟩ := hs.2.2 rfl
        exact absurd (hpresent s' hs') habsent
      | some receipt => exact ⟨receipt, rfl, hs.2.1 receipt rfl⟩
  obtain ⟨hs, houtcome⟩ := hs
  cases outcome with
  | ok found =>
    exact Assures.pure (h.stable.and stable_const) ⟨hs, houtcome⟩
  | error e =>
    obtain ⟨rfl, haborted⟩ | ⟨rfl, hleft⟩ := houtcome
    · exact Assures.fail h.stable_failed (h.cancelled s hs haborted)
    refine ensures_lstat h hs fun s hs _ => ?_
    obtain ⟨number, hnumber⟩ := Option.ne_none_iff_exists'.mp (hpresent s hs)
    rw [lstat_eq_ok hnumber]
    have hcomplete := (hready s hs).sound.complete number hnumber
    show Assures _ _ _ _ (@ite _ _ _ _ _) s
    rw [if_neg (not_not_intro ⟨hcomplete.kind, hcomplete.uid, hcomplete.mode,
      congrArg List.length hcomplete.content⟩)]
    split_ifs with hone htwo
    · exact hnext hleft s hs
    · exact absurd (hcomplete.nlink.resolve_left hone) htwo
    · refine ensures_skip h (fun _ _ => rfl) hs fun s _ hs => ?_
      refine Assures.seq (ensures_throwIfCancelled h hs) fun _ s hs => ?_
      exact hnext hleft s hs

/-- **A competing publication** is verified, if it is met without its temporary name in the last
attempt at the latest.

**Proof sketch.** Induction on the attempts left: the file is there, and complete, in all of
them. -/
theorem ensures_verifyCompetingPublish (hpresent : ∀ s, J s → Present (destinationPath store write) s) (hJ : J s) :
    Ensures platform store write suffix p
      (fun found s => J s ∧ ∃ receipt, found = some receipt ∧ receipt.state = .alreadyPresent) failed
      (verifyCompetingPublish store p write (left + 1)) s := by
  induction left generalizing s with
  | zero => exact ensures_attempt h hready hpresent (fun hne => absurd rfl hne) hJ
  | succ left ih => exact ensures_attempt h hready hpresent (fun _ _ hs => ih hs) hJ

end Verifications

/-! ### Publications -/

section Publications

variable {sha256 : Bytes → JsString} {platform : Platform} {store : Store}
  {write : ValidatedWrite sha256 store} {suffix : ℕ → JsString} {p : ℕ} {J : Shared → Prop}
  {failed : Failure → Shared → Prop} {s s' : Shared} {number : ℕ}

/-- What a process keeps of the directories by what it guarantees to any other. -/
theorem Guarantee.ready (h : Guarantee store write suffix p s s')
    (hs : Ready store write suffix s) : Ready store write suffix s' :=
  stable_ready (p := p + 1) s s' (h.2 (p + 1) (Nat.ne_of_lt (Nat.lt_succ_self p))) hs

/-- The file that a process writes is there, and not published. -/
def Holding (store : Store) (write : ValidatedWrite sha256 store) (suffix : ℕ → JsString)
    (p number : ℕ) (s : Shared) : Prop :=
  ∃ content mode, Writing store write suffix p number content mode s

/-- A process whose signal is aborted fails with that. -/
def Cancelled (p : ℕ) (J : Shared → Prop) (e : Failure) (s : Shared) : Prop :=
  (e = .code .cancelled ∧ s.aborted p = true) ∧ J s

/-- An aborted signal stays aborted. -/
theorem stable_cancelled (hJ : Stable (contract store write suffix p) J) {e : Failure} :
    Stable (contract store write suffix p) (Cancelled p J e) :=
  fun s s' hrely h => ⟨⟨h.1.1, hrely.aborted h.1.2⟩, hJ s s' hrely h.2⟩

/-- What is known may be weakened for the failure. -/
theorem knows_cancelled {K : Shared → Prop} (hJ : Stable (contract store write suffix p) J)
    (hK : Stable (contract store write suffix p) K) (hle : ∀ s, J s → K s) :
    Knows store write suffix p J (Cancelled p K) :=
  ⟨hJ, stable_cancelled hK, fun s hs haborted => ⟨⟨rfl, haborted⟩, hle s hs⟩⟩

theorem stable_holding :
    Stable (contract store write suffix p) (Holding store write suffix p number) := by
  rintro s s' hrely ⟨content, mode, h⟩
  exact ⟨content, mode, stable_writing s s' hrely h⟩

/-- What a process does to the file it writes. -/
theorem Writing.change {content content' : Bytes} {mode mode' : ℕ}
    (h : Writing store write suffix p number content mode s) {f : Inode → Inode}
    (hf : f (s.files.inodes number) =
      { s.files.inodes number with content := content', mode := mode' }) :
    Writing store write suffix p number content' mode'
      (s.withFiles (s.files.change number f)) := by
  refine ⟨h.entry, ?_, ?_, ?_, ?_, h.unlinked⟩ <;>
    rw [withFiles_files, FileSystem.change_inodes_self, hf]
  · exact h.uid
  · exact h.nlink

/-- The loop that writes a file writes all of it. -/
theorem ensures_writeAll {fuel offset : ℕ} (hoffset : offset ≤ write.bytes.length)
    (hfuel : write.bytes.length ≤ fuel + offset) {mode : ℕ}
    (hknows : ∀ content, Knows store write suffix p (fun s => Ready store write suffix s ∧
      Writing store write suffix p number content mode s) failed)
    (hs : Ready store write suffix s ∧
      Writing store write suffix p number (write.bytes.take offset) mode s) :
    Ensures platform store write suffix p (fun _ s => Ready store write suffix s ∧
        Writing store write suffix p number write.bytes mode s) failed
      (writeAll store p write number fuel offset) s := by
  have hend : ∀ {offset s}, write.bytes.length ≤ offset → (Ready store write suffix s ∧
      Writing store write suffix p number (write.bytes.take offset) mode s) →
        Ready store write suffix s ∧ Writing store write suffix p number write.bytes mode s := by
    intro offset s hdone hs
    rw [List.take_of_length_le hdone] at hs
    exact hs
  induction fuel generalizing offset s with
  | zero =>
    have hdone : write.bytes.length ≤ offset := by omega
    exact Assures.require_end hdone (hknows _).stable (hend hdone hs)
  | succ fuel ih =>
    show Assures _ _ _ _ (@ite _ _ _ _ _) s
    split_ifs with hdone
    · exact ensures_pure (hknows _).stable (hend hdone hs)
    refine Assures.seq (ensures_throwIfCancelled (hknows _) hs) fun _ s hs => ?_
    refine Assures.ask (hknows _).stable hs fun s (written : ℕ) s' hs _ hact => ?_
    obtain ⟨⟨hle, hzero⟩, rfl⟩ := eq_of_admits ℕ hact
    rw [List.length_take, List.length_drop] at hle
    have hpositive : 1 ≤ written := by
      refine Nat.one_le_iff_ne_zero.mpr fun hnone => ?_
      have hempty := congrArg List.length (hzero hnone)
      rw [List.length_take, List.length_drop] at hempty
      simp only [writeChunkBytes, List.length_nil] at hempty
      omega
    have hguarantee : Guarantee store write suffix p s (s.withFiles (writeAt s.files number offset
        ((write.bytes.drop offset).take writeChunkBytes) written)) :=
      guarantee_change hs.1.sound hs.2.entry hs.2.unlinked fun _ => rfl
    refine ⟨hguarantee, ?_⟩
    refine Assures.require ⟨hpositive, by rwa [List.length_take, List.length_drop]⟩ ?_
    refine ih (by omega) (by omega) ⟨hguarantee.ready hs.1, hs.2.change ?_⟩
    -- what is written continues what is there
    rw [hs.2.content, hs.2.mode.symm]
    have htake : ((write.bytes.drop offset).take writeChunkBytes).take written =
        (write.bytes.drop offset).take written := by
      rw [List.take_take]
      congr 1
      omega
    have hrest : (write.bytes.take offset).drop (offset + written) = [] := by
      rw [List.drop_eq_nil_iff, List.length_take]
      omega
    rw [htake, hrest, List.append_nil, List.take_take, Nat.min_self, List.take_add]

/-- The file that is prepared has all of the content. -/
theorem ensures_prepare (huid : platform.uid = store.ownerUid)
    (hs : Ready store write suffix s ∧
      Writing store write suffix p number [] temporaryFileMode s) :
    Ensures platform store write suffix p (fun _ s => Ready store write suffix s ∧
        Writing store write suffix p number write.bytes fileMode s)
      (Cancelled p fun s => Ready store write suffix s ∧ Holding store write suffix p number s)
      (prepare store p write number) s := by
  have hknows : ∀ content mode, Knows store write suffix p (fun s => Ready store write suffix s ∧
      Writing store write suffix p number content mode s)
      (Cancelled p fun s => Ready store write suffix s ∧ Holding store write suffix p number s) :=
    fun content mode => knows_cancelled (stable_ready.and stable_writing)
      (stable_ready.and stable_holding) fun s hs => ⟨hs.1, content, mode, hs.2⟩
  have hfile : ∀ {s content mode}, (Ready store write suffix s ∧
      Writing store write suffix p number content mode s) →
        (s.files.inodes number).kind = .file := fun hs => hs.1.sound.temporary p number hs.2.entry
  refine ensures_fstat (hknows _ _) hs fun s hs => ?_
  refine Assures.require ⟨hfile hs, congrArg List.length hs.2.content, hs.2.nlink, hs.2.uid⟩ ?_
  refine Assures.seq (ensures_writeAll (Nat.zero_le _) le_rfl (fun content => hknows content _) hs)
    fun _ s hs => ?_
  refine Assures.seq (ensures_throwIfCancelled (hknows _ _) hs) fun _ s hs => ?_
  refine ensures_skip (hknows _ _) (fun _ _ => rfl) hs fun s _ hs => ?_
  refine Assures.seq (ensures_throwIfCancelled (hknows _ _) hs) fun _ s hs => ?_
  -- the mode is set
  refine Assures.ask (hknows _ _).stable hs fun s answer s' hs _ hact => ?_
  cases hact
  have hguarantee := guarantee_change (f := fun inode => { inode with mode := fileMode })
    hs.1.sound hs.2.entry hs.2.unlinked fun _ => rfl
  refine ⟨hguarantee, ?_⟩
  obtain ⟨hready, hwriting⟩ := hs
  have hs : Ready store write suffix (s.withFiles (s.files.change number fun inode =>
      { inode with mode := fileMode })) ∧ Writing store write suffix p number write.bytes fileMode
        (s.withFiles (s.files.change number fun inode => { inode with mode := fileMode })) :=
    ⟨hguarantee.ready hready, hwriting.change (by rw [hwriting.content])⟩
  refine ensures_skip (hknows _ _) (fun _ _ => rfl) hs fun s _ hs => ?_
  refine Assures.seq (ensures_throwIfCancelled (hknows _ _) hs) fun _ s hs => ?_
  refine ensures_fstat (hknows _ _) hs fun s hs => ?_
  refine Assures.require ⟨hfile hs, congrArg List.length hs.2.content, hs.2.nlink, hs.2.mode⟩ ?_
  refine Assures.require hs.2.uid ?_
  refine ensures_skip (hknows _ _) (fun _ _ => rfl) hs fun s _ hs => ?_
  refine Assures.seq (ensures_ensureSafeRoot huid (hknows _ _) (fun s hs => hs.1.sound) hs)
    fun _ s hs => ?_
  exact ensures_assertPrivateSegments (hknows _ _) (fun s hs => hs.1)
    (fun path hpath => isPrefix_of_mem_key hpath) hs.1

/-- What holds when a process has returned: its temporary name is gone, and if it has stored the
content, it has linked it. -/
def Done (store : Store) (write : ValidatedWrite sha256 store) (suffix : ℕ → JsString) (p : ℕ)
    (receipt : Receipt) (s : Shared) : Prop :=
  s.files.entries (temporaryPath store write (suffix p)) = none ∧
    (receipt.state = .stored → temporaryPath store write (suffix p) ∈ s.files.linked)

theorem stable_done {receipt : Receipt} :
    Stable (contract store write suffix p) (Done store write suffix p receipt) :=
  fun _ _ hrely h => ⟨hrely.entry.trans h.1, fun hstored => hrely.linked _ (h.2 hstored)⟩

/-- Its temporary name is gone. -/
def Gone (store : Store) (write : ValidatedWrite sha256 store) (suffix : ℕ → JsString) (p : ℕ)
    (s : Shared) : Prop :=
  s.files.entries (temporaryPath store write (suffix p)) = none

theorem stable_gone : Stable (contract store write suffix p) (Gone store write suffix p) :=
  stable_entry

/-- What a process knows of the outcome of its publication when it cleans up. -/
def Outcome (p : ℕ) : Except Failure Receipt → Shared → Prop
  | .ok receipt, _ => receipt.state = .alreadyPresent
  | .error e, s => e = .code .cancelled ∧ s.aborted p = true

theorem stable_outcome {outcome : Except Failure Receipt} :
    Stable (contract store write suffix p) (Outcome p outcome) := by
  intro s s' hrely h
  cases outcome with
  | ok receipt => exact h
  | error e => exact ⟨h.1, hrely.aborted h.2⟩

/-- A name that is there is removed. -/
theorem unlinkAt_eq {fs : FileSystem} {path : Path} (h : fs.entries path = some number) :
    unlinkAt fs path = (.ok (), fs.removeName path number) := by
  unfold unlinkAt
  rw [h]

/-- The temporary name is removed, whatever the outcome. -/
theorem ensures_cleanup (hsuffix : Function.Injective suffix) {outcome : Except Failure Receipt}
    (hs : (Ready store write suffix s ∧ Holding store write suffix p number s) ∧
      Outcome p outcome s) :
    Ensures platform store write suffix p (Done store write suffix p)
      (Cancelled p (Gone store write suffix p))
      (cleanup store write (temporaryPath store write (suffix p)) outcome) s := by
  refine Assures.ask ((stable_ready.and stable_holding).and stable_outcome) hs
    fun s answer s' hs _ hact => ?_
  obtain ⟨rfl, rfl⟩ := eq_of_returns (Reply Unit) hact
  obtain ⟨⟨hready, content, mode, hwriting⟩, houtcome⟩ := hs
  rw [unlinkAt_eq hwriting.entry]
  have hguarantee := guarantee_unlink hsuffix hready.sound hwriting.entry
    fun hlinked => absurd hlinked hwriting.unlinked
  refine ⟨hguarantee, ?_⟩
  have hgone : Gone store write suffix p (s.withFiles
      (s.files.removeName (temporaryPath store write (suffix p)) number)) :=
    FileSystem.removeName_entries_self
  have hkept : Outcome p outcome (s.withFiles
      (s.files.removeName (temporaryPath store write (suffix p)) number)) := by
    cases outcome <;> exact houtcome
  have hknows : Knows store write suffix p (fun s => (Ready store write suffix s ∧
      Gone store write suffix p s) ∧ Outcome p outcome s) (Cancelled p (Gone store write suffix p)) :=
    knows_cancelled ((stable_ready.and stable_gone).and stable_outcome) stable_gone
      fun s hs => hs.1.2
  refine Assures.seq (Assures.pure hknows.stable ⟨⟨hguarantee.ready hready, hgone⟩, hkept⟩)
    fun _ s (hs : (Ready store write suffix s ∧ Gone store write suffix p s) ∧
      Outcome p outcome s) => ?_
  refine Assures.seq (ensures_syncDirectory hknows (fun s hs => hs.1.1) (by rintro _ ⟨⟩)
    List.prefix_rfl (fun _ => root_isPrefix) hs) fun _ s hs => ?_
  cases outcome with
  | ok receipt =>
    have hpresent : receipt.state = .alreadyPresent := hs.2
    refine Assures.pure stable_done ⟨hs.1.2, fun hstored => ?_⟩
    rw [hpresent] at hstored
    cases hstored
  | error e => exact Assures.fail (stable_cancelled stable_gone) ⟨hs.2, hs.1.2⟩

/-- What follows when the published file has no other name. -/
theorem ensures_finishPublication {inode : Inode} (hs : (Ready store write suffix s ∧
      Published store write number inode s) ∧ (Gone store write suffix p s ∧
        temporaryPath store write (suffix p) ∈ s.files.linked)) :
    Ensures platform store write suffix p (Done store write suffix p)
      (Cancelled p (Gone store write suffix p)) (finishPublication store p write) s := by
  have hknows : Knows store write suffix p (fun s => (Ready store write suffix s ∧
      Published store write number inode s) ∧ (Gone store write suffix p s ∧
        temporaryPath store write (suffix p) ∈ s.files.linked))
      (Cancelled p (Gone store write suffix p)) :=
    knows_cancelled ((stable_ready.and stable_published).and (stable_gone.and stable_linked))
      stable_gone fun s hs => hs.2.1
  refine Assures.seq (ensures_syncPrivateHierarchy hknows (fun s hs => hs.1.1) (by rintro _ ⟨⟩) hs)
    fun _ s hs => ?_
  refine Assures.seq (ensures_throwIfCancelled hknows hs) fun _ s hs => ?_
  refine Assures.seq (ensures_verifyExisting hknows (fun s hs => hs.1.1)
    (stable_cancelled stable_gone) (fun s m hs _ hentry htwo => ?_) hs) fun found s hs => ?_
  · obtain rfl := Option.some.inj (hs.1.2.entry.symm.trans hentry)
    rw [hs.1.2.inode_eq, hs.1.2.nlink] at htwo
    cases htwo
  obtain ⟨hs, -, hfound⟩ := hs
  cases found with
  | none =>
    obtain ⟨s', hs', habsent⟩ := hfound rfl
    exact absurd (Option.ne_none_iff_exists'.mpr ⟨number, hs'.1.2.entry⟩) habsent
  | some receipt => exact Assures.pure stable_done ⟨hs.2.1, fun _ => hs.2.2⟩

/-- The file of a process, which it has published and which has its temporary name too. -/
structure Twice (store : Store) (write : ValidatedWrite sha256 store) (suffix : ℕ → JsString)
    (p number : ℕ) (s : Shared) : Prop where
  entry : s.files.entries (temporaryPath store write (suffix p)) = some number
  published : s.files.entries (destinationPath store write) = some number
  nlink : (s.files.inodes number).nlink = 2
  linked : temporaryPath store write (suffix p) ∈ s.files.linked

theorem stable_twice :
    Stable (contract store write suffix p) (Twice store write suffix p number) :=
  fun _ _ hrely h => ⟨hrely.entry.trans h.entry, (hrely.destination number h.published).1,
    (congrArg Inode.nlink (hrely.inode number h.entry)).trans h.nlink, hrely.linked _ h.linked⟩

/-- A published file is left with one name. -/
theorem Twice.published_removeName (h : Twice store write suffix p number s)
    (hs : Sound store write suffix s.files) :
    Published store write number
      ((s.files.removeName (temporaryPath store write (suffix p)) number).inodes number)
      (s.withFiles (s.files.removeName (temporaryPath store write (suffix p)) number)) := by
  have hcomplete := hs.complete number h.published
  have hentry : (s.files.removeName (temporaryPath store write (suffix p)) number).entries
      (destinationPath store write) = some number :=
    (FileSystem.removeName_entries_of_ne (temporaryPath_ne_destinationPath write _).symm).trans
      h.published
  have hnlink : (s.files.inodes number).nlink - 1 = 1 := by rw [h.nlink]
  refine ⟨hentry, rfl, ?_, ?_⟩ <;> rw [FileSystem.removeName_inodes_self]
  · exact ⟨hcomplete.kind, hcomplete.content, hcomplete.uid, hcomplete.mode, .inl hnlink⟩
  · exact hnlink

/-- The file is linked, or another process has linked its own. -/
theorem ensures_linkAndFinish (hsuffix : Function.Injective suffix)
    (hs : Ready store write suffix s ∧
      Writing store write suffix p number write.bytes fileMode s) :
    Ensures platform store write suffix p (Done store write suffix p)
      (Cancelled p (Gone store write suffix p)) (linkAndFinish store p write (suffix p)) s := by
  refine Assures.ask (stable_ready.and stable_writing) hs fun s answer s' hs _ hact => ?_
  obtain ⟨rfl, rfl⟩ := eq_of_returns (Reply Unit) hact
  obtain ⟨hready, hwriting⟩ := hs
  cases hentry : s.files.entries (destinationPath store write) with
  | some m =>
    -- another process has published the content
    have hlink : linkAt s.files (temporaryPath store write (suffix p)) (destinationPath store write) =
        (.error .eexist, s.files) := by
      unfold linkAt
      rw [hwriting.entry, nameable_eq_error hentry]
    rw [hlink]
    refine ⟨Quiet.refl.guarantee, ?_⟩
    have hknows : Knows store write suffix p (fun s => (Ready store write suffix s ∧
        Holding store write suffix p number s) ∧ Present (destinationPath store write) s)
        (Cancelled p fun s => Ready store write suffix s ∧ Holding store write suffix p number s) :=
      knows_cancelled ((stable_ready.and stable_holding).and stable_destination)
        (stable_ready.and stable_holding) fun s hs => hs.1
    refine Assures.seq (Assures.attempt ((ensures_verifyCompetingPublish hknows (fun s hs => hs.1.1)
        (fun s hs => hs.2) ⟨⟨hready, write.bytes, fileMode, hwriting⟩,
          Option.ne_none_iff_exists'.mpr ⟨m, hentry⟩⟩).mono (fun found s hs => ?_)
        fun e s hs => ⟨hs.2, hs.1⟩)) fun outcome s (hs : (Ready store write suffix s ∧
          Holding store write suffix p number s) ∧ Outcome p (servedAs outcome) s) =>
        ensures_cleanup hsuffix hs
    obtain ⟨hs, receipt, rfl, hstate⟩ := hs
    exact ⟨hs.1, hstate⟩
  | none =>
    obtain ⟨parent, hparent⟩ := Option.ne_none_iff_exists'.mp
      (hready.present (destinationDirectory store write) List.prefix_rfl)
    have hdirectory : s.files.entries (destinationPath store write).dropLast = some parent := by
      rw [destinationPath, List.dropLast_concat]
      exact hparent
    have hkind := hready.sound.directory _ List.prefix_rfl parent hparent
    have hlink : linkAt s.files (temporaryPath store write (suffix p)) (destinationPath store write) =
        (.ok (), s.files.addName (temporaryPath store write (suffix p))
          (destinationPath store write) number) := by
      unfold linkAt
      rw [hwriting.entry, nameable_eq_ok hentry hdirectory hkind]
    rw [hlink]
    have hcomplete : (s.files.inodes number).IsComplete store write :=
      ⟨hready.sound.temporary p number hwriting.entry, hwriting.content, hwriting.uid, hwriting.mode,
        .inl hwriting.nlink⟩
    have hguarantee := guarantee_link hready.sound hwriting.entry hcomplete hwriting.nlink hentry
    refine ⟨hguarantee, ?_⟩
    -- the file has two names
    have htwice : Twice store write suffix p number (s.withFiles (s.files.addName
        (temporaryPath store write (suffix p)) (destinationPath store write) number)) := by
      refine ⟨?_, FileSystem.addName_entries_self, ?_,
        List.mem_append_right _ (List.mem_singleton_self _)⟩
      · exact (FileSystem.addName_entries_of_ne (temporaryPath_ne_destinationPath write _)).trans
          hwriting.entry
      · rw [withFiles_files, FileSystem.addName_inodes_self, hwriting.nlink]
    refine Assures.ask (stable_ready.and stable_twice) ⟨hguarantee.ready hready, htwice⟩
      fun s answer s' hs _ hact => ?_
    obtain ⟨rfl, rfl⟩ := eq_of_returns (Reply Unit) hact
    rw [unlinkAt_eq hs.2.entry]
    have hguarantee := guarantee_unlink hsuffix hs.1.sound hs.2.entry fun _ => hs.2.nlink
    exact ⟨hguarantee, ensures_finishPublication
      ⟨⟨hguarantee.ready hs.1, hs.2.published_removeName hs.1.sound⟩,
        FileSystem.removeName_entries_self, hs.2.linked⟩⟩

/-- What a process knows of the outcome of the preparation of its file. -/
def Prepared (store : Store) (write : ValidatedWrite sha256 store) (suffix : ℕ → JsString)
    (p number : ℕ) : Except Failure Unit → Shared → Prop
  | .ok _, s => Writing store write suffix p number write.bytes fileMode s
  | .error e, s => (e = .code .cancelled ∧ s.aborted p = true) ∧
      Holding store write suffix p number s

/-- The content is written, and published. -/
theorem ensures_publish (hsuffix : Function.Injective suffix) (huid : platform.uid = store.ownerUid)
    (hs : Ready store write suffix s ∧ Gone store write suffix p s) :
    Ensures platform store write suffix p (Done store write suffix p)
      (Cancelled p (Gone store write suffix p)) (publish store p write (suffix p)) s := by
  have hknows : Knows store write suffix p (fun s => Ready store write suffix s ∧
      Gone store write suffix p s) (Cancelled p (Gone store write suffix p)) :=
    knows_cancelled (stable_ready.and stable_gone) stable_gone fun s hs => hs.2
  refine Assures.seq (ensures_throwIfCancelled hknows hs) fun _ s hs => ?_
  refine Assures.ask hknows.stable hs fun s answer s' hs _ hact => ?_
  obtain ⟨rfl, rfl⟩ := eq_of_returns (Reply ℕ) hact
  obtain ⟨hready, hgone⟩ := hs
  obtain ⟨parent, hparent⟩ := Option.ne_none_iff_exists'.mp
    (hready.present (destinationDirectory store write) List.prefix_rfl)
  have hdirectory : s.files.entries (temporaryPath store write (suffix p)).dropLast =
      some parent := by
    rw [temporaryPath, List.dropLast_concat]
    exact hparent
  have hkind := hready.sound.directory _ List.prefix_rfl parent hparent
  obtain ⟨inode, hopen, hinode⟩ : ∃ inode : Inode,
      openExclusiveAt platform s.files (temporaryPath store write (suffix p)) =
        (.ok s.files.next, s.files.create (temporaryPath store write (suffix p)) inode) ∧
          inode = ⟨.file, [], temporaryFileMode, store.ownerUid, 1, 0⟩ := by
    unfold openExclusiveAt
    rw [nameable_eq_ok hgone hdirectory hkind]
    exact ⟨_, rfl, by rw [huid]⟩
  rw [hopen]
  have hguarantee : Guarantee store write suffix p s (s.withFiles (s.files.create
      (temporaryPath store write (suffix p)) inode)) :=
    guarantee_openExclusive hsuffix hready.sound (by rw [hinode])
  refine ⟨hguarantee, ?_⟩
  have hwriting : Writing store write suffix p s.files.next [] temporaryFileMode (s.withFiles
      (s.files.create (temporaryPath store write (suffix p)) inode)) := by
    refine ⟨FileSystem.create_entries_self, ?_, ?_, ?_, ?_, fun hentry => ?_⟩ <;>
      try rw [withFiles_files, FileSystem.create_inodes_self, hinode]
    rw [withFiles_files, FileSystem.create_entries_of_ne
      (temporaryPath_ne_destinationPath write _).symm] at hentry
    exact absurd (hready.sound.allocated _ _ hentry) (lt_irrefl _)
  show Assures _ _ _ _ (attempt (prepare store p write s.files.next) >>= _) _
  refine Assures.seq (Assures.attempt ((ensures_prepare huid
    ⟨hguarantee.ready hready, hwriting⟩).mono (fun _ s hs => hs) fun e s hs => ?_))
    fun prepared s' (hs : Ready store write suffix s' ∧
      Prepared store write suffix p s.files.next prepared s') => ?_
  · exact ⟨hs.2.1, hs.1, hs.2.2⟩
  cases prepared with
  | ok _ => exact ensures_linkAndFinish hsuffix hs
  | error e => exact ensures_cleanup hsuffix ⟨⟨hs.1, hs.2.2⟩, hs.2.1⟩

/-- What is published is verified, or the content is. -/
theorem ensures_put (hsuffix : Function.Injective suffix) (huid : platform.uid = store.ownerUid)
    (hs : Sound store write suffix s.files ∧ Gone store write suffix p s) :
    Ensures platform store write suffix p (Done store write suffix p)
      (Cancelled p (Gone store write suffix p)) (put store p write (suffix p)) s := by
  have hsound : Knows store write suffix p (fun s => Sound store write suffix s.files ∧
      Gone store write suffix p s) (Cancelled p (Gone store write suffix p)) :=
    knows_cancelled (stable_sound.and stable_gone) stable_gone fun s hs => hs.2
  refine Assures.seq (ensures_ensureSafeRoot huid hsound (fun s hs => hs.1) hs) fun _ s hs => ?_
  refine Assures.seq (ensures_ensureKeyDirectories huid (hsound.and stable_rootReady)
    (fun s hs => hs.1.1) (fun s hs => hs.2) hs) fun _ s hs => ?_
  have hready : Knows store write suffix p (fun s => Ready store write suffix s ∧
      Gone store write suffix p s) (Cancelled p (Gone store write suffix p)) :=
    knows_cancelled (stable_ready.and stable_gone) stable_gone fun s hs => hs.2
  -- the first verification does not meet two links
  refine Assures.seq (ensures_verifyExisting hready (fun s hs => hs.1)
    (stable_cancelled stable_gone) (fun s number hs hmay hentry htwo => ?_)
    ⟨hs.2, hs.1.1.2⟩) fun found s hs => ?_
  · exact absurd htwo (hmay _ (by simp [FileSystem.inode?, hentry]))
  obtain ⟨hs, hpresent, -⟩ := hs
  cases found with
  | none => exact ensures_publish hsuffix huid hs
  | some receipt =>
    refine Assures.pure stable_done ⟨hs.2, fun hstored => ?_⟩
    rw [hpresent receipt rfl] at hstored
    cases hstored

/-- What holds when a process has failed: its signal is aborted, and its temporary name gone. -/
def Failed (store : Store) (write : ValidatedWrite sha256 store) (suffix : ℕ → JsString) (p : ℕ)
    (e : Failure) (s : Shared) : Prop :=
  Cancelled p (Gone store write suffix p) e s

/-- What a process knows of the outcome of its call. -/
def Returned (store : Store) (write : ValidatedWrite sha256 store) (suffix : ℕ → JsString)
    (p : ℕ) : Except Failure Receipt → Shared → Prop
  | .ok receipt, s => Done store write suffix p receipt s
  | .error e, s => Failed store write suffix p e s

/-- **What one process assures**: it returns a receipt, or fails for its signal is aborted; either
way its temporary name is gone. -/
theorem assures_putIfAbsent (hsuffix : Function.Injective suffix)
    (huid : platform.uid = store.ownerUid)
    (hs : Sound store write suffix s.files ∧ Gone store write suffix p s) :
    Ensures platform store write suffix p (Done store write suffix p)
      (Failed store write suffix p) (putIfAbsent store p write (suffix p)) s := by
  have hsound : Knows store write suffix p (fun s => Sound store write suffix s.files ∧
      Gone store write suffix p s) (Failed store write suffix p) :=
    knows_cancelled (stable_sound.and stable_gone) stable_gone fun s hs => hs.2
  refine Assures.seq (ensures_throwIfCancelled hsound hs) fun _ s hs => ?_
  refine Assures.seq (Assures.attempt ((ensures_put hsuffix huid hs).mono
    (fun receipt s hs => hs) fun e s hs => hs))
    fun outcome s (hs : Returned store write suffix p outcome s) => ?_
  cases outcome with
  | ok receipt => exact Assures.pure stable_done hs
  | error e =>
    obtain ⟨⟨rfl, haborted⟩, hgone⟩ := hs
    exact Assures.fail (stable_cancelled stable_gone) ⟨⟨rfl, haborted⟩, hgone⟩

end Publications

/-! ### Runs -/

section Runs

variable {sha256 : Bytes → JsString} {platform : Platform} {store : Store}
  {write : ValidatedWrite sha256 store} {suffix : ℕ → JsString} {n : ℕ}

/-- A state of processes that put the same content. -/
abbrev Puts (n : ℕ) := State (Fin n) Shared Call Answer Failure Receipt

/-- A file system in which nothing of the key is in use: what is there under it is complete, and no
process has a temporary file. -/
structure Fresh (store : Store) (write : ValidatedWrite sha256 store) (suffix : ℕ → JsString)
    (s : Shared) : Prop where
  sound : Sound store write suffix s.files
  gone : ∀ p, Gone store write suffix p s
  linked : s.files.linked = []

/-- Processes that put the same content under the same key. -/
def puts (platform : Platform) (store : Store) (write : ValidatedWrite sha256 store)
    (suffix : ℕ → JsString) (n : ℕ) : System (Puts n) (Step (Fin n) ℕ Call Answer) :=
  (machine platform).system (Fresh store write suffix) fun p =>
    putIfAbsent store p write (suffix p)

/-- **What is asked of a state**: each process that is not done may go on; one that failed has its
signal aborted; no two have stored the content; what is there under the key is complete; and each
process that is done has left no temporary file. -/
structure PutsOnce (platform : Platform) (store : Store) (write : ValidatedWrite sha256 store)
    (suffix : ℕ → JsString) (st : Puts n) : Prop where
  proceeds : ∀ p q next, st.rest p = .ask q next →
    ∃ answers, ((machine platform).step st (.proceeds p answers)).isSome
  succeeds : ∀ p e, st.rest p = .fail e → e = .code .cancelled ∧ st.shared.aborted p = true
  once : ∀ p p' receipt receipt', st.rest p = .ret receipt → st.rest p' = .ret receipt' →
    receipt.state = .stored → receipt'.state = .stored → p = p'
  complete : ∀ inode ∈ st.shared.files.inode? (destinationPath store write),
    inode.kind = .file ∧ inode.content = write.bytes
  cleaned : ∀ p, (st.rest p).next? = none →
    st.shared.files.entries (temporaryPath store write (suffix p)) = none

/-- An answer that each call may have: all that is asked for is read or written. -/
def answerOf (platform : Platform) (s : Shared) : (call : Call) → Answer call
  | .aborted process => s.aborted process
  | .lstat _ path => s.files.lstat path
  | .mkdir path => (mkdirAt platform s.files path).1
  | .chmod path mode => (chmodAt s.files path mode).1
  | .realpath path => match s.files.entries path with
    | none => Reply.error (α := Path) .enoent
    | some _ => Reply.ok path
  | .openFile path => s.files.openFile path
  | .openDirectory path => s.files.openDirectory path
  | .openExclusive path => (openExclusiveAt platform s.files path).1
  | .fstat number => (s.files.inodes number).stats number
  | .read number offset length => (((s.files.inodes number).content.drop offset).take length : Bytes)
  | .write _ _ bytes => bytes.length
  | .fsync _ => ()
  | .fchmod _ _ => ()
  | .close _ => ()
  | .link source path => (linkAt s.files source path).1
  | .unlink path => (unlinkAt s.files path).1
  | .setImmediate => ()

/-- An answer that is admitted leads to a state. -/
theorem isSome_admits (α : Type) {P : α → Prop} [DecidablePred P] {answer : α} {s : Shared}
    (h : P answer) : (admits P answer s).isSome := by
  unfold admits
  rw [if_pos h]
  rfl

theorem isSome_returns {α : Type} [DecidableEq α] (value : α) (s : Shared) :
    (returns value value s).isSome :=
  isSome_admits α rfl

/-- Each call may be answered in each state. -/
theorem isSome_act (s : Shared) (call : Call) :
    (act platform s call (answerOf platform s call)).isSome := by
  cases call with
  | realpath path =>
    refine isSome_admits (Reply Path) ?_
    cases hentry : s.files.entries path with
    | none => simpa [answerOf, hentry] using ⟨rfl, hentry⟩
    | some number => simp [answerOf, hentry, IsRealpath]
  | read number offset length => exact isSome_admits Bytes ⟨List.prefix_rfl, id⟩
  | write number offset bytes =>
    exact isSome_admits ℕ ⟨le_rfl, fun hzero => List.length_eq_zero_iff.mp hzero⟩
  | fsync number => rfl
  | fchmod number mode => rfl
  | close number => rfl
  | setImmediate => rfl
  | aborted process => exact isSome_returns (s.aborted process) s
  | lstat stage path => exact isSome_returns (s.files.lstat path) s
  | mkdir path => exact isSome_returns (mkdirAt platform s.files path).1 _
  | chmod path mode => exact isSome_returns (chmodAt s.files path mode).1 _
  | openFile path => exact isSome_returns (s.files.openFile path) s
  | openDirectory path => exact isSome_returns (s.files.openDirectory path) s
  | openExclusive path => exact isSome_returns (openExclusiveAt platform s.files path).1 _
  | fstat number => exact isSome_returns ((s.files.inodes number).stats number) s
  | link source path => exact isSome_returns (linkAt s.files source path).1 _
  | unlink path => exact isSome_returns (unlinkAt s.files path).1 _

/-- An aborted signal changes nothing that is relied on. -/
theorem rely_disturb (p process : ℕ) (s : Shared) :
    Rely store write suffix p s ((machine platform).disturb s process) where
  sound := id
  directory _ _ _ h := ⟨h, rfl, id⟩
  entry := rfl
  inode _ _ := rfl
  destination _ h := ⟨h, fun _ => rfl⟩
  unlinked _ _ h := h
  linked _ := id
  aborted h := by
    show Function.update s.aborted process true p = true
    by_cases hp : p = process
    · rw [hp, Function.update_self]
    · rw [Function.update_of_ne hp]
      exact h

/-- **What each process assures** holds in every run whose steps meet the condition. -/
theorem ensures_of_reachable (hsuffix : Function.Injective suffix)
    (huid : platform.uid = store.ownerUid) {st : Puts n}
    (h : (puts platform store write suffix n).Reachable (Machine.Where NotMidway) st) :
    Sound store write suffix st.shared.files ∧ ∀ p : Fin n,
      Ensures platform store write suffix p (Done store write suffix p) (Failed store write suffix p)
        (st.rest p) st.shared := by
  have hmay : ∀ (st : Puts n) (p : Fin n) answers q next,
      Machine.Where NotMidway st (.proceeds p answers : Step (Fin n) ℕ Call Answer) →
        st.rest p = .ask q next → (contract store write suffix p).may st.shared q := by
    intro st p answers q next hwhere hrest
    exact hwhere q (by rw [hrest]; rfl)
  have hothers : ∀ p p' : Fin n, p ≠ p' → ∀ s s', (contract store write suffix p).guarantee s s' →
      (contract store write suffix p').rely s s' := fun p p' hp s s' hguarantee =>
    hguarantee.2 p' fun heq => hp (Fin.ext heq)
  have hinit : ∀ s, Fresh store write suffix s → ∀ p : Fin n, Ensures platform store write suffix p
      (Done store write suffix p) (Failed store write suffix p)
      (putIfAbsent store p write (suffix p)) s := fun s hs p =>
    assures_putIfAbsent hsuffix huid ⟨hs.sound, hs.gone p⟩
  exact ⟨Machine.invariant_of_reachable (C := fun p : Fin n => contract store write suffix p) hmay
      hothers (fun p s d => rely_disturb p d s) hinit (fun s hs => hs.sound)
      (fun p s s' hguarantee => hguarantee.1) (fun s d hs => hs) h,
    Machine.assures_of_reachable (C := fun p : Fin n => contract store write suffix p) hmay hothers
      (fun p s d => rely_disturb p d s) hinit h⟩

/-- **Processes that put the same content** store it once, and all succeed but those whose signal is
aborted, in every run in which no call meets another process midway; and no process goes on for
ever.

**Proof sketch.** Each process relies on the others to leave its temporary file, the directories and
what is published alone. What is published first stays, and what it was linked from tells who stored
it. -/
theorem putsOnce_of_notMidway (hsuffix : Function.Injective suffix)
    (huid : platform.uid = store.ownerUid) :
    (∀ st : Puts n, (puts platform store write suffix n).Reachable (Machine.Where NotMidway) st →
      PutsOnce platform store write suffix st) ∧
    ∀ (run : ℕ → Puts n) (events : ℕ → Step (Fin n) ℕ Call Answer),
      (∀ k, (machine platform).step (run k) (events k) = some (run (k + 1))) →
        ∀ p, ∃ K, ∀ k, K ≤ k → ∀ answers, events k ≠ .proceeds p answers := by
  refine ⟨fun st h => ?_, fun run events hrun p => Machine.finitely_often hrun p⟩
  obtain ⟨hsound, hensures⟩ := ensures_of_reachable hsuffix huid h
  have hfailed : ∀ p e, st.rest p = .fail e → Failed store write suffix p e st.shared := by
    intro p e hrest
    have hp := hensures p
    rw [hrest] at hp
    exact hp st.shared Rely.refl
  have hdone : ∀ p receipt, st.rest p = .ret receipt →
      Done store write suffix p receipt st.shared := by
    intro p receipt hrest
    have hp := hensures p
    rw [hrest] at hp
    exact hp st.shared Rely.refl
  refine ⟨fun p q next hrest => ?_, fun p e hrest => (hfailed p e hrest).1,
    fun p p' receipt receipt' hrest hrest' hstored hstored' => ?_, fun inode hinode => ?_,
    fun p hnone => ?_⟩
  · refine ⟨answerOf platform st.shared, ?_⟩
    show ((machine platform).step st _).isSome
    unfold Machine.step
    simp only [hrest, Option.isSome_map]
    exact isSome_act st.shared q
  · have hmem := (hdone p receipt hrest).2 hstored
    have hmem' := (hdone p' receipt' hrest').2 hstored'
    have hsame : ∀ paths : List Path, paths.length ≤ 1 → ∀ path ∈ paths, ∀ path' ∈ paths,
        path = path' := by
      rintro (_ | ⟨first, _ | ⟨second, rest⟩⟩) hlength path hpath path' hpath'
      · cases hpath
      · exact (List.mem_singleton.mp hpath).trans (List.mem_singleton.mp hpath').symm
      · simp at hlength
    exact Fin.ext (hsuffix (temporaryPath_injective write (hsame _ hsound.linked _ hmem _ hmem')))
  · obtain ⟨number, hnumber, rfl⟩ := Option.map_eq_some_iff.mp hinode
    exact ⟨(hsound.complete number hnumber).kind, (hsound.complete number hnumber).content⟩
  · cases hrest : st.rest p with
    | ret receipt => exact (hdone p receipt hrest).1
    | fail e => exact (hfailed p e hrest).2
    | ask q next =>
      rw [hrest] at hnone
      cases hnone

/-! ### Two processes -/

/-- A file system with nothing but its top directory. -/
def FileSystem.empty : FileSystem where
  entries path := if path = [] then some 0 else none
  inodes _ := ⟨.directory, [], 493, 0, 2, 0⟩
  next := 1
  linked := []

theorem FileSystem.entries_empty {path : Path} {number : ℕ}
    (h : FileSystem.empty.entries path = some number) : path = [] ∧ number = 0 := by
  obtain ⟨hpath, hnumber⟩ := Option.ite_none_right_eq_some.mp h
  exact ⟨hpath, (Option.some.inj hnumber).symm⟩

/-- An empty file system is one in which nothing of a key is in use. -/
theorem fresh_empty : Fresh store write suffix ⟨FileSystem.empty, fun _ => false⟩ := by
  have hbelow : ∀ name, FileSystem.empty.entries (destinationDirectory store write ++ [name]) =
      none := fun name => if_neg (by simp)
  refine ⟨⟨nofun, fun path number h => ?_, fun path _ number _ => rfl, fun path hroot _ number h => ?_,
    fun number h => ?_, fun p number h => ?_, fun p p' number h _ => ?_, Nat.zero_le _, fun _ => rfl⟩,
    fun p => hbelow _, rfl⟩
  · rw [(FileSystem.entries_empty h).2]
    exact Nat.one_pos
  · rw [(FileSystem.entries_empty h).1] at hroot
    exact absurd (List.prefix_nil.mp hroot) store.root_ne
  · exact absurd ((hbelow _).symm.trans h) nofun
  · exact absurd ((hbelow _).symm.trans h) nofun
  · exact absurd ((hbelow _).symm.trans h) nofun

theorem oneByte_maxBlobBytes : 1 ≤ 1024 ∧ 1024 ≤ maxPrivateOfficialOfferBlobBytes := by decide

theorem oneByte_length : 1 ≤ [(7 : UInt8)].length ∧ [(7 : UInt8)].length ≤ 1024 := by decide

/-- A store of a user. -/
def dataStore : Store := ⟨[js "data"], 1024, 501, nofun, oneByte_maxBlobBytes⟩

/-- A content of one byte. -/
def oneByte : ValidatedWrite (fun _ => js "c") dataStore :=
  ⟨[js "official-offers", js "private", js "v1", js "r", js "1"], [7], js "c", rfl, rfl,
    oneByte_length⟩

/-- What temporary names end with. -/
def ones (p : ℕ) : JsString := List.replicate p 49

theorem ones_injective : Function.Injective ones := fun p p' heq => by
  simpa [ones] using congrArg List.length heq

/-- Two processes that start. -/
def twoProcesses : Puts 2 :=
  ⟨⟨FileSystem.empty, fun _ => false⟩, fun p => putIfAbsent dataStore p oneByte (ones p)⟩

/-- How they have ended, after they have gone on in an order. -/
def outcomes (allowed : Puts 2 → Step (Fin 2) ℕ Call Answer → Prop)
    [∀ st e, Decidable (allowed st e)] (order : List (Fin 2)) :
    Option (List (Option (Except Failure Receipt))) :=
  ((machine ⟨501, directoryMode⟩).turns allowed (answerOf ⟨501, directoryMode⟩) twoProcesses
    order).map fun st => [outcome? (st.rest 0), outcome? (st.rest 1)]

/-- The processes are reached in a state in which they have ended so. -/
theorem exists_of_outcomes {allowed : Puts 2 → Step (Fin 2) ℕ Call Answer → Prop}
    [∀ st e, Decidable (allowed st e)] {order : List (Fin 2)}
    {outcome outcome' : Option (Except Failure Receipt)}
    (h : outcomes allowed order = some [outcome, outcome']) :
    ∃ st, (puts ⟨501, directoryMode⟩ dataStore oneByte ones 2).Reachable allowed st ∧
      outcome? (st.rest 0) = outcome ∧ outcome? (st.rest 1) = outcome' := by
  obtain ⟨st, hturns, heq⟩ := Option.map_eq_some_iff.mp h
  have hstart : (puts ⟨501, directoryMode⟩ dataStore oneByte ones 2).Reachable allowed
      twoProcesses := .init ⟨fresh_empty, rfl⟩
  exact ⟨st, Machine.reachable_turns hstart hturns, List.head_eq_of_cons_eq heq,
    List.head_eq_of_cons_eq (List.tail_eq_of_cons_eq heq)⟩

/-- The second process comes to its link before the first has linked, and links after it has
ended. -/
theorem putsOnce_inTurn : ∃ st : Puts 2,
    PutsOnce ⟨501, directoryMode⟩ dataStore oneByte ones st ∧
      st.rest 0 = .ret ⟨.stored, js "c", 1⟩ ∧ st.rest 1 = .ret ⟨.alreadyPresent, js "c", 1⟩ := by
  have houtcomes : outcomes (Machine.Where NotMidway) (List.replicate 71 0 ++
      List.replicate 64 1 ++ List.replicate 101 0 ++ List.replicate 70 1) =
        some [some (.ok ⟨.stored, js "c", 1⟩), some (.ok ⟨.alreadyPresent, js "c", 1⟩)] := by
    decide +kernel
  obtain ⟨st, hreachable, hfirst, hsecond⟩ := exists_of_outcomes houtcomes
  exact ⟨st, (putsOnce_of_notMidway ones_injective rfl).1 st hreachable,
    eq_of_outcome?_ok hfirst, eq_of_outcome?_ok hsecond⟩

/-- **The second process fails** where its first verification meets what the first has linked and
not yet unlinked. -/
theorem not_putsOnce_midway : ¬ ∀ st : Puts 2,
    (puts ⟨501, directoryMode⟩ dataStore oneByte ones 2).Reachable (fun _ _ => True) st →
      PutsOnce ⟨501, directoryMode⟩ dataStore oneByte ones st := by
  intro hall
  have houtcomes : outcomes (fun _ _ => True) (List.replicate 72 0 ++ List.replicate 30 1) =
      some [none, some (.error (.code .unsafeFilesystem))] := by decide +kernel
  obtain ⟨st, hreachable, -, hsecond⟩ := exists_of_outcomes houtcomes
  have hfails := (hall st hreachable).succeeds 1 _ (eq_of_outcome?_error hsecond)
  exact absurd hfails.1 (by decide)

end Runs

end Handleplan.BlobStore
