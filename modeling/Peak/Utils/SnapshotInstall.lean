import Peak.Utils.SnapshotRecovery

/-!
# Replacing the parent registry

A process which is killed while it installs a snapshot leaves the old one or the new one to be read.
A new file is complete before it takes the name of the snapshot, and the old file has a second name
until then.
-/

namespace Peak

open LinkedDirectory

open Program RegistryDirectory

variable {directory : RegistryDirectory} {content : Option (List Char)} {attempt file : ℕ}

theorem Holds.create (holds : Holds content directory) {created : RegistryFile}
    (absent : directory.lookup (.temp attempt) = none) :
    Holds content (directory.create (.temp attempt) created) := by
  cases content with
  | none => simpa [Holds] using holds
  | some =>
    rcases holds with ⟨data, found, isSnapshot, links, regular⟩
    have old := lookup_lt found
    refine ⟨data, by simpa using found, ?_, ?_, ?_⟩
    · rw [files_create_of_lt old, isSnapshot]
    · rw [linkCount_create_of_lt absent old]
      simpa using links
    · intro backup isBackup
      have isBackup : directory.lookup .backup = some backup := by simpa using isBackup
      rw [files_create_of_lt (lookup_lt isBackup)]
      exact regular backup isBackup

theorem Holds.write (holds : Holds content directory) {written : RegistryFile}
    (notData : directory.lookup .data ≠ some file)
    (notBackup : directory.lookup .backup ≠ some file) :
    Holds content (directory.write file written) := by
  cases content with
  | none => exact holds
  | some =>
    rcases holds with ⟨data, found, isSnapshot, links, regular⟩
    refine ⟨data, found, ?_, links, ?_⟩
    · have other : data ≠ file := by
        rintro rfl
        exact notData found
      rw [files_write_of_ne other, isSnapshot]
    · intro backup isBackup
      have other : backup ≠ file := by
        rintro rfl
        exact notBackup isBackup
      rw [files_write_of_ne other]
      exact regular backup isBackup

theorem Holds.remove_temp (holds : Holds content directory)
    (named : directory.lookup (.temp attempt) = some file)
    (notData : directory.lookup .data ≠ some file) :
    Holds content (directory.remove (.temp attempt)) := by
  cases content with
  | none => simpa [Holds] using holds
  | some =>
    rcases holds with ⟨data, found, isSnapshot, links, regular⟩
    have count := directory.linkCount_remove (.temp attempt) data
    have other : ¬ directory.lookup (.temp attempt) = some data := by
      rw [named]
      rintro ⟨rfl⟩
      exact notData found
    refine ⟨data, by simpa using found, isSnapshot, ?_, by simpa using regular⟩
    rw [if_neg other, Nat.add_zero] at count
    rw [count]
    simpa using links

/-- The old snapshot is in place, and `file` is the new file, known only by its temporary
name. -/
structure Staged (old : Option (List Char)) (attempt file : ℕ) (directory : RegistryDirectory) :
    Prop where
  holds : Holds old directory
  named : directory.lookup (.temp attempt) = some file
  single : directory.linkCount file = 1
  notData : directory.lookup .data ≠ some file
  notBackup : directory.lookup .backup ≠ some file

namespace Staged

variable {old : Option (List Char)}

theorem create (settled : Settled old directory) {created : RegistryFile}
    (absent : directory.lookup (.temp attempt) = none) :
    Staged old attempt directory.next (directory.create (.temp attempt) created) where
  holds := settled.1.create absent
  named := lookup_create_self
  single := linkCount_create_next absent
  notData := by
    rw [lookup_create_of_ne (by simp)]
    intro found
    exact lt_irrefl _ (lookup_lt found)
  notBackup := by
    rw [lookup_create_of_ne (by simp), settled.2]
    simp

section

variable (staged : Staged old attempt file directory)

include staged

theorem write {written : RegistryFile} : Staged old attempt file (directory.write file written) :=
  ⟨staged.holds.write staged.notData staged.notBackup, staged.named, staged.single,
    staged.notData, staged.notBackup⟩

theorem remove_backup :
    Staged old attempt file (directory.remove .backup) where
  holds := staged.holds.remove_backup
  named := by simpa using staged.named
  single := by
    have count := directory.linkCount_remove .backup file
    rw [if_neg staged.notBackup, staged.single] at count
    exact count
  notData := by simpa using staged.notData
  notBackup := by simp

theorem remove_temp : Holds old (directory.remove (.temp attempt)) :=
  staged.holds.remove_temp staged.named staged.notData

end

theorem link {content : List Char} (staged : Staged (some content) attempt file directory)
    (absent : directory.lookup .backup = none) :
    ∃ linked, directory.linkat .data .backup = .ok linked ∧
      Staged (some content) attempt file linked ∧
      linked.lookup .backup = linked.lookup .data ∧ linked.files file = directory.files file := by
  rcases staged.holds with ⟨data, found, isSnapshot, links, _⟩
  have other : data ≠ file := by
    rintro rfl
    exact staged.notData found
  refine ⟨directory.put .backup data (lookup_lt found), ?_, ?_, ?_, rfl⟩
  · simp only [linkat, link_eq found absent]
  · constructor
    · refine ⟨data, by simpa using found, isSnapshot, ?_, ?_⟩
      · rw [linkCount_put_of_absent absent, links, absent]
        simp
      · intro backup isBackup
        have same : data = backup := by simpa using isBackup
        rw [← same, files_put, isSnapshot]
        rfl
    · simpa using staged.named
    · rw [linkCount_put_of_absent absent, staged.single, if_neg other]
    · simpa using staged.notData
    · simpa using other
  · simpa using found.symm

end Staged

def Kept (directory : RegistryDirectory) : Option (List Char) → Prop
  | none => directory.lookup .backup = none
  | some content =>
    ∃ backup, directory.lookup .backup = some backup ∧
      directory.files backup = snapshotFile content ∧ directory.linkCount backup = 1 ∧
      directory.lookup .data ≠ some backup

structure Replaced (old : Option (List Char)) (new : List Char) (directory : RegistryDirectory) :
    Prop where
  holds : Holds (some new) directory
  kept : Kept directory old

section

variable {old : Option (List Char)} {new : List Char}

theorem renameat_eq {source target : RegistryName}
    (named : directory.lookup source = some file)
    (apart : directory.lookup target ≠ some file)
    (plain : ∀ replaced, directory.lookup target = some replaced →
      (directory.files replaced).kind = .regular) :
    directory.renameat source target =
      .ok ((directory.put target file (lookup_lt named)).remove source) := by
  cases found : directory.lookup target with
  | none =>
    simp only [renameat, found, rename_eq named apart]
    rfl
  | some replaced =>
    simp only [renameat, found, plain replaced found, rename_eq named apart]
    rfl

theorem Holds.data_regular (holds : Holds content directory) :
    ∀ data, directory.lookup .data = some data → (directory.files data).kind = .regular := by
  intro data found
  cases content with
  | none =>
    rw [holds.1] at found
    cases found
  | some =>
    rcases holds with ⟨_, isData, isSnapshot, _⟩
    rw [isData] at found
    cases found
    rw [isSnapshot]
    rfl

theorem Staged.rename (staged : Staged old attempt file directory)
    (linked : directory.lookup .backup = directory.lookup .data)
    (written : directory.files file = snapshotFile new) :
    ∃ replaced, directory.renameat (.temp attempt) .data = .ok replaced ∧
      Replaced old new replaced := by
  have named := staged.named
  have differ : RegistryName.temp attempt ≠ .data := by simp
  have count := linkCount_put_remove named differ
  refine ⟨_, renameat_eq named staged.notData staged.holds.data_regular, ?_, ?_⟩
  · refine ⟨file, by simp, written, ?_, ?_⟩
    · have single := count file
      rw [if_neg staged.notData, staged.single] at single
      have unsaved : ¬ directory.lookup .backup = some file := staged.notBackup
      simpa [unsaved] using single
    · intro backup isBackup
      apply staged.holds.data_regular backup
      rw [← linked]
      simpa using isBackup
  · cases old with
    | none =>
      simpa [Kept] using staged.holds.2
    | some =>
      rcases staged.holds with ⟨data, found, isSnapshot, links, _⟩
      have saved : directory.lookup .backup = some data := linked.trans found
      refine ⟨data, by simpa using saved, isSnapshot, ?_, ?_⟩
      · have single := count data
        rw [if_pos found, links, if_pos saved] at single
        omega
      · rintro same
        apply staged.notData
        have isFile : file = data := by simpa using same
        rw [found, isFile]

namespace Replaced

theorem remove_backup (replaced : Replaced old new directory) :
    Holds (some new) (directory.remove .backup) :=
  replaced.holds.remove_backup

theorem rename_backup {content : List Char} (replaced : Replaced (some content) new directory) :
    ∃ restored, directory.renameat .backup .data = .ok restored ∧
      Holds (some content) restored := by
  rcases replaced.kept with ⟨backup, saved, isSnapshot, single, apart⟩
  have differ : RegistryName.backup ≠ .data := by simp
  have count := linkCount_put_remove saved differ backup
  refine ⟨_, renameat_eq saved apart replaced.holds.data_regular, ?_⟩
  refine ⟨backup, by simp, isSnapshot, ?_, by simp⟩
  rw [if_neg apart, single] at count
  simpa using count

end Replaced

end

end Peak
