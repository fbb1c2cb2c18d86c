import Mathlib.Data.Nat.Digits.Defs
import Peak.Common.LinkedDirectory
import Peak.Common.Program

/-!
# The parent registry

The registry of running processes is a file in a private directory. It is replaced by a rename,
under a lock, and a second name keeps the old file until the new one is in place. A `RegistryKernel`
says which calls fail and how much of a write is accepted, and the trail holds the directory as each
call left it, where the process may be killed. Syncing has no effect on what others find there.
-/

namespace Peak

/-- The names in the directory. The temporary files of the installing thread are numbered by the
attempt. -/
inductive RegistryName where
  | lock
  | data
  | backup
  | temp (attempt : ℕ)
  | other (number : ℕ)
deriving DecidableEq

inductive RegistryErrno where
  | eperm
  | enoent
  | eio
  | eexist
  | enotdir
  | eisdir
  | efbig
  | enotempty
  | eloop
  | other (code : ℕ)

inductive FileKind where
  | regular
  | directory (empty : Bool)
  | symlink
  | other
deriving DecidableEq

/-- A file, with the permission bits of its mode. It is `owned` by the effective user. -/
structure RegistryFile where
  kind : FileKind
  owned : Bool
  mode : ℕ
  content : List Char

abbrev RegistryDirectory := LinkedDirectory RegistryName RegistryFile

def maxSnapshot : ℕ := 1024 * 1024

def snapshotFile (content : List Char) : RegistryFile where
  kind := .regular
  owned := true
  mode := 0o600
  content := content

namespace RegistryDirectory

def unlinkat (directory : RegistryDirectory) (name : RegistryName) (removeDirectory : Bool) :
    Except RegistryErrno RegistryDirectory :=
  match directory.lookup name with
  | none => .error .enoent
  | some file =>
    match (directory.files file).kind, removeDirectory with
    | .directory _, false => .error .eisdir
    | .directory true, true => .ok (directory.remove name)
    | .directory false, true => .error .enotempty
    | _, true => .error .enotdir
    | _, false => .ok (directory.remove name)

def linkat (directory : RegistryDirectory) (source target : RegistryName) :
    Except RegistryErrno RegistryDirectory :=
  match directory.link source target with
  | none => .error (if directory.lookup source = none then .enoent else .eexist)
  | some linked => .ok linked

def renameat (directory : RegistryDirectory) (source target : RegistryName) :
    Except RegistryErrno RegistryDirectory :=
  match directory.lookup target with
  | none => ((directory.rename source target).elim (.error .enoent) .ok)
  | some file =>
    match (directory.files file).kind with
    | .directory _ => .error .eisdir
    | _ => ((directory.rename source target).elim (.error .enoent) .ok)

/-- `openat` with `O_CREAT | O_EXCL`. The mode is what the mask of the process leaves. -/
def openExclusive (directory : RegistryDirectory) (name : RegistryName) (mode : ℕ) :
    Except RegistryErrno (ℕ × RegistryDirectory) :=
  if directory.lookup name = none then
    .ok (directory.next, directory.create name ⟨.regular, true, mode, []⟩)
  else
    .error .eexist

def fchmod (directory : RegistryDirectory) (file mode : ℕ) : RegistryDirectory :=
  directory.write file { directory.files file with mode := mode }

def append (directory : RegistryDirectory) (file : ℕ) (data : List Char) : RegistryDirectory :=
  directory.write file
    { directory.files file with content := (directory.files file).content ++ data }

/-- `secure_open_regular_at` for an existing file. -/
def secureOpenRegularAt (directory : RegistryDirectory) (name : RegistryName) :
    Except RegistryErrno ℕ :=
  match directory.lookup name with
  | none => .error .enoent
  | some file =>
    if (directory.files file).kind = .symlink then
      .error .eloop
    else if (directory.files file).kind ≠ .regular ∨ !(directory.files file).owned ∨
        (directory.files file).mode ≠ 0o600 ∨ directory.linkCount file ≠ 1 then
      .error .eperm
    else
      .ok file

/-- The loop of `read_snapshot`: the number of bytes read, where a read returns at most `chunk + 1`
bytes. Every read but the last returns something. -/
def readRounds (chunk : ℕ → ℕ) (length : ℕ) : ℕ → ℕ → ℕ
  | 0, used => used
  | rounds + 1, used =>
    if used < maxSnapshot then
      let count := min (chunk rounds + 1) (min (maxSnapshot - used) (length - used))
      if count = 0 then used else readRounds chunk length rounds (used + count)
    else
      used

/-- `read_snapshot`. There is no content if there is no snapshot. -/
def readSnapshot (directory : RegistryDirectory) (chunk : ℕ → ℕ) :
    Except RegistryErrno (Option (List Char)) :=
  match directory.secureOpenRegularAt .data with
  | .error .enoent => .ok none
  | .error errno => .error errno
  | .ok file =>
    let content := (directory.files file).content
    let used := readRounds chunk content.length maxSnapshot 0
    if used < content.length then .error .efbig else .ok (some (content.take used))

def removeUnexpectedBackup (directory : RegistryDirectory) (backup : RegistryFile) :
    Except RegistryErrno RegistryDirectory :=
  match backup.kind with
  | .directory _ => directory.unlinkat .backup true
  | _ => directory.unlinkat .backup false

def secureSnapshotStat (file : RegistryFile) : Bool :=
  file.kind = .regular ∧ file.owned ∧ file.mode = 0o600

/-- The state which a process killed between the link and the rename leaves. -/
def legitimatePreRename (directory : RegistryDirectory) (backup data : ℕ) : Bool :=
  secureSnapshotStat (directory.files backup) ∧ secureSnapshotStat (directory.files data) ∧
    backup = data ∧ directory.linkCount backup = 2 ∧ directory.linkCount data = 2

def legitimatePostRename (directory : RegistryDirectory) (backup data : ℕ) : Bool :=
  secureSnapshotStat (directory.files backup) ∧ secureSnapshotStat (directory.files data) ∧
    backup ≠ data ∧ directory.linkCount backup = 1 ∧ directory.linkCount data = 1

def recoverSnapshotBackup (directory : RegistryDirectory) :
    Except RegistryErrno RegistryDirectory :=
  match directory.lookup .backup with
  | none => .ok directory
  | some backup =>
    let legitimate := (directory.lookup .data).any fun data =>
      directory.legitimatePreRename backup data || directory.legitimatePostRename backup data
    if legitimate then
      directory.unlinkat .backup false
    else
      directory.removeUnexpectedBackup (directory.files backup)

def recoverAndRead (directory : RegistryDirectory) (chunk : ℕ → ℕ) :
    Except RegistryErrno (Option (List Char)) := do
  (← directory.recoverSnapshotBackup).readSnapshot chunk

end RegistryDirectory

structure ParentEntry where
  pid : Fin (2 ^ 31)
  starttime : Fin (2 ^ 64)

def ParentEntry.record (entry : ParentEntry) : List Char :=
  Nat.toDigits 10 entry.pid ++ ' ' :: Nat.toDigits 10 entry.starttime ++ ['\n']

def snapshotContent (entries : List ParentEntry) : List Char :=
  entries.flatMap (·.record)

/-- The answers to the calls of an installation, by the number of calls before: the error of a call
without an effect, and the number of bytes a write accepts beyond the first. `mode` is that of a new
file. -/
structure RegistryKernel where
  fails : ℕ → Option RegistryErrno
  accepts : ℕ → ℕ
  mode : ℕ

def RegistryKernel.Faulty (kernel : RegistryKernel) : Prop :=
  ∃ calls, kernel.fails calls ≠ none

structure Installation where
  directory : RegistryDirectory
  calls : ℕ
  trail : List RegistryDirectory

namespace Installation

def start (directory : RegistryDirectory) : Installation where
  directory := directory
  calls := 0
  trail := [directory]

def after (installation : Installation) (directory : RegistryDirectory) : Installation where
  directory := directory
  calls := installation.calls + 1
  trail := installation.trail ++ [directory]

end Installation

abbrev InstallM := Program Installation Empty

namespace RegistryKernel

variable (kernel : RegistryKernel)

/-- A system call with the given effect. A call that fails has none. -/
def call {α : Type}
    (effect : ℕ → RegistryDirectory → Except RegistryErrno (α × RegistryDirectory)) :
    InstallM (Except RegistryErrno α) := fun installation =>
  match kernel.fails installation.calls with
  | some errno => .ok (.error errno, installation.after installation.directory)
  | none =>
    match effect installation.calls installation.directory with
    | .error errno => .ok (.error errno, installation.after installation.directory)
    | .ok (value, directory) => .ok (.ok value, installation.after directory)

def act (effect : RegistryDirectory → Except RegistryErrno RegistryDirectory) :
    InstallM (Except RegistryErrno Unit) :=
  kernel.call fun _ directory => (effect directory).map ((), ·)

def sync : InstallM (Except RegistryErrno Unit) :=
  kernel.act .ok

/-- The loop of `install_snapshot` for a temporary file, with the attempts left. -/
def openTemp : ℕ → ℕ → InstallM (Except RegistryErrno (ℕ × ℕ))
  | 0, _ => pure (.error .eexist)
  | remaining + 1, attempt => do
      match ← kernel.call fun _ directory =>
          directory.openExclusive (.temp attempt) kernel.mode with
      | .ok file => pure (.ok (attempt, file))
      | .error .eexist => openTemp remaining (attempt + 1)
      | .error errno => pure (.error errno)

/-- `write_all`. -/
def writeAll (file : ℕ) : ℕ → List Char → InstallM (Except RegistryErrno Unit)
  | 0, _ => pure (.ok ())
  | rounds + 1, data =>
    if data = [] then
      pure (.ok ())
    else do
      match ← kernel.call fun calls directory =>
          let count := min (kernel.accepts calls + 1) data.length
          .ok (count, directory.append file (data.take count)) with
      | .error errno => pure (.error errno)
      | .ok count => writeAll file rounds (data.drop count)

def writeEntries (file : ℕ) : List ParentEntry → InstallM (Except RegistryErrno Unit)
  | [] => pure (.ok ())
  | entry :: entries =>
    if 96 ≤ entry.record.length then
      pure (.error (.other 0))
    else do
      match ← kernel.writeAll file entry.record.length entry.record with
      | .error errno => pure (.error errno)
      | .ok () => writeEntries file entries

/-- The label `fail_temp`, with the temporary file still open or not. -/
def failTemp (attempt : ℕ) (opened : Bool) (errno : RegistryErrno) :
    InstallM (Except RegistryErrno Unit) := do
  if opened then
    let _ ← kernel.sync
  let _ ← kernel.act (·.unlinkat (.temp attempt) false)
  pure (.error errno)

def rollbackSnapshot (hadSnapshot : Bool) : InstallM (Except RegistryErrno Unit) := do
  if hadSnapshot then
    match ← kernel.act (·.renameat .backup .data) with
    | .error errno => pure (.error errno)
    | .ok () => kernel.sync
  else
    match ← kernel.act (·.unlinkat .data false) with
    | .error .enoent => kernel.sync
    | .error errno => pure (.error errno)
    | .ok () => kernel.sync

def syncSnapshot (hadSnapshot : Bool) : InstallM (Except RegistryErrno Unit) := do
  match ← kernel.sync with
  | .error errno =>
    match ← kernel.rollbackSnapshot hadSnapshot with
    | .error rollback => pure (.error rollback)
    | .ok () => pure (.error errno)
  | .ok () => do
      if hadSnapshot then
        let _ ← kernel.act (·.unlinkat .backup false)
      pure (.ok ())

def renameSnapshot (attempt : ℕ) (hadSnapshot : Bool) : InstallM (Except RegistryErrno Unit) := do
  match ← kernel.act (·.renameat (.temp attempt) .data) with
  | .error errno => do
      if hadSnapshot then
        let _ ← kernel.act (·.unlinkat .backup false)
      kernel.failTemp attempt false errno
  | .ok () => kernel.syncSnapshot hadSnapshot

def replaceSnapshot (attempt : ℕ) (hadSnapshot : Bool) :
    InstallM (Except RegistryErrno Unit) := do
  let _ ← kernel.act (·.unlinkat .backup false)
  if hadSnapshot then
    match ← kernel.act (·.linkat .data .backup) with
    | .error errno => kernel.failTemp attempt false errno
    | .ok () => kernel.renameSnapshot attempt hadSnapshot
  else
    kernel.renameSnapshot attempt hadSnapshot

def installSnapshot (entries : List ParentEntry) (hadSnapshot : Bool) :
    InstallM (Except RegistryErrno Unit) := do
  match ← kernel.openTemp 128 0 with
  | .error errno => pure (.error errno)
  | .ok (attempt, file) =>
    match ← kernel.act fun directory => .ok (directory.fchmod file 0o600) with
    | .error errno => kernel.failTemp attempt true errno
    | .ok () =>
      match ← kernel.writeEntries file entries with
      | .error errno => kernel.failTemp attempt true errno
      | .ok () =>
        match ← kernel.sync with
        | .error errno => kernel.failTemp attempt true errno
        | .ok () =>
          match ← kernel.sync with
          | .error errno => kernel.failTemp attempt false errno
          | .ok () => kernel.replaceSnapshot attempt hadSnapshot

def install (entries : List ParentEntry) (hadSnapshot : Bool) (directory : RegistryDirectory) :
    Except RegistryErrno Unit × Installation :=
  match kernel.installSnapshot entries hadSnapshot (.start directory) with
  | .ok outcome => outcome
  | .error impossible => impossible.elim

end RegistryKernel

end Peak
