import Peak.Utils.ParentRegistry

/-!
# Recovering the parent registry

Whatever names a killed process leaves, the snapshot is read as long as the file with
its name has no link beside that name and the backup, and is not too long.
-/

namespace Peak

open LinkedDirectory

/-- The snapshot is `content`, and nothing but a backup may stand in the way of reading it. -/
def Holds : Option (List Char) → RegistryDirectory → Prop
  | none, directory => directory.lookup .data = none ∧ directory.lookup .backup = none
  | some content, directory =>
    ∃ file, directory.lookup .data = some file ∧
      directory.files file = snapshotFile content ∧
      directory.linkCount file = (if directory.lookup .backup = some file then 2 else 1) ∧
      ∀ backup, directory.lookup .backup = some backup → (directory.files backup).kind = .regular

/-- The snapshot is `content`, and there is no backup. -/
def Settled (content : Option (List Char)) (directory : RegistryDirectory) : Prop :=
  Holds content directory ∧ directory.lookup .backup = none

namespace RegistryDirectory

variable {directory recovered : RegistryDirectory} {content : Option (List Char)} {chunk : ℕ → ℕ}

variable {file : ℕ}

theorem unlinkat_regular {name : RegistryName} (found : directory.lookup name = some file)
    (regular : (directory.files file).kind = .regular) :
    directory.unlinkat name false = .ok (directory.remove name) := by
  simp only [unlinkat, found, regular]

theorem eq_remove_of_unlinkat {name : RegistryName} {flag : Bool}
    (removed : directory.unlinkat name flag = .ok recovered) :
    recovered = directory.remove name := by
  unfold unlinkat at removed
  split at removed
  · cases removed
  · split at removed <;> cases removed <;> rfl

theorem removeUnexpectedBackup_regular {backup : ℕ}
    (found : directory.lookup .backup = some backup)
    (regular : (directory.files backup).kind = .regular) :
    directory.removeUnexpectedBackup (directory.files backup) = .ok (directory.remove .backup) := by
  simp only [removeUnexpectedBackup, regular]
  exact unlinkat_regular found regular

theorem recoverSnapshotBackup_regular {backup : ℕ}
    (found : directory.lookup .backup = some backup)
    (regular : (directory.files backup).kind = .regular) :
    directory.recoverSnapshotBackup = .ok (directory.remove .backup) := by
  simp only [recoverSnapshotBackup, found]
  split
  · exact unlinkat_regular found regular
  · exact removeUnexpectedBackup_regular found regular

theorem lookup_backup_of_recover (recovers : directory.recoverSnapshotBackup = .ok recovered) :
    recovered.lookup .backup = none := by
  have gone : ∀ flag, directory.unlinkat .backup flag = .ok recovered →
      recovered.lookup .backup = none := by
    intro flag removed
    rw [eq_remove_of_unlinkat removed, lookup_remove_self]
  unfold recoverSnapshotBackup at recovers
  split at recovers
  next absent =>
    cases recovers
    exact absent
  next backup _ =>
    simp only at recovers
    split at recovers
    · exact gone false recovers
    · unfold removeUnexpectedBackup at recovers
      split at recovers
      · exact gone true recovers
      · exact gone false recovers

theorem readRounds_eq {length : ℕ} : ∀ {rounds used : ℕ}, used ≤ min maxSnapshot length →
    min maxSnapshot length ≤ used + rounds →
      readRounds chunk length rounds used = min maxSnapshot length := by
  intro rounds
  induction rounds with
  | zero =>
    intro used bounded enough
    simp only [readRounds]
    omega
  | succ _ hypothesis =>
    intro used bounded enough
    simp only [readRounds]
    split
    · split
      · omega
      · apply hypothesis <;> omega
    · omega

theorem readSnapshot_of_open (opened : directory.secureOpenRegularAt .data = .ok file) :
    directory.readSnapshot chunk =
      if maxSnapshot < (directory.files file).content.length then .error .efbig
      else .ok (some (directory.files file).content) := by
  have used : readRounds chunk (directory.files file).content.length maxSnapshot 0 =
      min maxSnapshot (directory.files file).content.length :=
    readRounds_eq (Nat.zero_le _) (by omega)
  simp only [readSnapshot, opened, used]
  by_cases big : maxSnapshot < (directory.files file).content.length
  · simp [big]
  · have whole : min maxSnapshot (directory.files file).content.length =
        (directory.files file).content.length := by omega
    simp [big, whole]

theorem secureOpen_inversion (opened : directory.secureOpenRegularAt .data = .ok file) :
    directory.lookup .data = some file ∧
      directory.files file = snapshotFile (directory.files file).content ∧
      directory.linkCount file = 1 := by
  unfold secureOpenRegularAt at opened
  split at opened
  next => cases opened
  next found =>
    split at opened
    next => cases opened
    next =>
      split at opened
      next => cases opened
      next secure =>
        cases opened
        simp only [not_or, not_not] at secure
        rcases secure with ⟨_, _, _, links⟩
        refine ⟨found, ?_, links⟩
        cases isFile : directory.files file
        simp_all [snapshotFile]

theorem lookup_data_of_enoent (missing : directory.secureOpenRegularAt .data = .error .enoent) :
    directory.lookup .data = none := by
  unfold secureOpenRegularAt at missing
  split at missing
  next absent => exact absent
  next =>
    split at missing
    · cases missing
    · split at missing <;> cases missing

end RegistryDirectory

open RegistryDirectory

variable {directory : RegistryDirectory} {content : Option (List Char)} {chunk : ℕ → ℕ}

theorem Holds.remove_backup (holds : Holds content directory) :
    Holds content (directory.remove .backup) := by
  cases content with
  | none => exact ⟨by simpa using holds.1, lookup_remove_self⟩
  | some =>
    rcases holds with ⟨file, found, isSnapshot, links, _⟩
    have count := directory.linkCount_remove .backup file
    refine ⟨file, by simpa using found, by simpa using isSnapshot, ?_, by simp⟩
    rw [links] at count
    simp only [lookup_remove_self, reduceCtorEq, if_false]
    split at count <;> omega

theorem Holds.recovers (holds : Holds content directory) :
    ∃ recovered, directory.recoverSnapshotBackup = .ok recovered ∧ Settled content recovered := by
  cases backup : directory.lookup .backup with
  | none =>
    refine ⟨directory, ?_, holds, backup⟩
    simp only [recoverSnapshotBackup, backup]
  | some file =>
    have regular : (directory.files file).kind = .regular := by
      cases content with
      | none => simp [Holds, backup] at holds
      | some =>
        rcases holds with ⟨_, _, _, _, regular⟩
        exact regular file backup
    refine ⟨directory.remove .backup, recoverSnapshotBackup_regular backup regular, ?_, ?_⟩
    · exact holds.remove_backup
    · exact lookup_remove_self

theorem Settled.secureOpen {content : List Char} (settled : Settled (some content) directory) :
    ∃ file, directory.secureOpenRegularAt .data = .ok file ∧
      directory.files file = snapshotFile content := by
  rcases settled with ⟨⟨file, found, isSnapshot, links, _⟩, absent⟩
  refine ⟨file, ?_, isSnapshot⟩
  simp [secureOpenRegularAt, found, isSnapshot, snapshotFile, links, absent]

theorem Settled.readSnapshot_eq (settled : Settled content directory)
    (fits : ∀ snapshot ∈ content, snapshot.length ≤ maxSnapshot) :
    directory.readSnapshot chunk = .ok content := by
  cases content with
  | none => simp [readSnapshot, secureOpenRegularAt, settled.1.1]
  | some content =>
    rcases settled.secureOpen with ⟨_, opened, isSnapshot⟩
    rw [readSnapshot_of_open opened, isSnapshot]
    exact if_neg (not_lt.mpr (fits content rfl))

theorem Settled.readSnapshot_oversized {content : List Char}
    (settled : Settled (some content) directory) (oversized : maxSnapshot < content.length) :
    directory.readSnapshot chunk = .error .efbig := by
  rcases settled.secureOpen with ⟨_, opened, isSnapshot⟩
  rw [readSnapshot_of_open opened, isSnapshot]
  exact if_pos oversized

theorem settled_of_readSnapshot (absent : directory.lookup .backup = none)
    (read : directory.readSnapshot chunk = .ok content) :
    Settled content directory ∧ ∀ snapshot ∈ content, snapshot.length ≤ maxSnapshot := by
  cases opened : directory.secureOpenRegularAt .data with
  | ok file =>
    rw [readSnapshot_of_open opened] at read
    split at read
    next => cases read
    next fits =>
      cases read
      rcases secureOpen_inversion opened with ⟨found, isSnapshot, links⟩
      refine ⟨⟨⟨file, found, isSnapshot, ?_, ?_⟩, absent⟩, by simpa using fits⟩
      · simp [links, absent]
      · simp [absent]
  | error =>
    simp only [readSnapshot, opened] at read
    split at read
    next missing =>
      cases missing
      cases read
      exact ⟨⟨⟨lookup_data_of_enoent opened, absent⟩, absent⟩, by simp⟩
    next => cases read
    next impossible => cases impossible

theorem Holds.recoverAndRead_eq (holds : Holds content directory)
    (fits : ∀ snapshot ∈ content, snapshot.length ≤ maxSnapshot) :
    directory.recoverAndRead chunk = .ok content := by
  rcases holds.recovers with ⟨_, recovers, settled⟩
  rw [← settled.readSnapshot_eq fits]
  simp only [recoverAndRead, recovers]
  rfl

theorem Holds.recoverAndRead_oversized {content : List Char}
    (holds : Holds (some content) directory) (oversized : maxSnapshot < content.length) :
    directory.recoverAndRead chunk = .error .efbig := by
  rcases holds.recovers with ⟨_, recovers, settled⟩
  rw [← settled.readSnapshot_oversized oversized]
  simp only [recoverAndRead, recovers]
  rfl

end Peak
