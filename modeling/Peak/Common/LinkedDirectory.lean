import Mathlib.Data.List.AList

/-!
# Directories with hard links

A directory maps names to files. The link count of a file is the number of its names, in this
directory and in others. The operations which change the names are atomic.
-/

namespace Peak

open List AList Function

/-- A directory over numbered files. `elsewhere` counts the names of a file in other directories; no
file has a number from `next` on. -/
structure LinkedDirectory (Name File : Type) where
  names : AList fun _ : Name => ℕ
  files : ℕ → File
  elsewhere : ℕ → ℕ
  next : ℕ
  allocated : ∀ entry ∈ names.entries, entry.2 < next
  unused : ∀ file, next ≤ file → elsewhere file = 0

namespace LinkedDirectory

variable {Name File : Type} [DecidableEq Name]

def lookup (directory : LinkedDirectory Name File) (name : Name) : Option ℕ :=
  directory.names.lookup name

/-- The links of a file, in other directories too. -/
def linkCount (directory : LinkedDirectory Name File) (file : ℕ) : ℕ :=
  directory.elsewhere file + directory.names.entries.countP (·.2 == file)

theorem lookup_lt {directory : LinkedDirectory Name File} {name : Name} {file : ℕ}
    (found : directory.lookup name = some file) : file < directory.next :=
  directory.allocated ⟨name, file⟩ (mem_lookup_iff.mp found)

def write (directory : LinkedDirectory Name File) (file : ℕ) (content : File) :
    LinkedDirectory Name File :=
  { directory with files := update directory.files file content }

def remove (directory : LinkedDirectory Name File) (name : Name) : LinkedDirectory Name File :=
  { directory with
    names := directory.names.erase name
    allocated := fun entry isEntry =>
      directory.allocated entry ((kerase_sublist name _).subset isEntry) }

/-- The name stands for a file which exists, whatever it stood for before. -/
def put (directory : LinkedDirectory Name File) (name : Name) (file : ℕ)
    (exists_ : file < directory.next) : LinkedDirectory Name File :=
  { directory with
    names := directory.names.insert name file
    allocated := by
      intro entry isEntry
      rw [entries_insert, mem_cons] at isEntry
      rcases isEntry with rfl | kept
      · exact exists_
      · exact (directory.remove name).allocated entry kept }

def create (directory : LinkedDirectory Name File) (name : Name) (content : File) :
    LinkedDirectory Name File :=
  { names := directory.names.insert name directory.next
    files := update directory.files directory.next content
    elsewhere := directory.elsewhere
    next := directory.next + 1
    allocated := by
      intro entry isEntry
      rw [entries_insert, mem_cons] at isEntry
      rcases isEntry with rfl | kept
      · exact Nat.lt_succ_self _
      · exact Nat.lt_succ_of_lt ((directory.remove name).allocated entry kept)
    unused := fun file after => directory.unused file (Nat.le_of_succ_le after) }

/-- `link`: another name for the file of `source`, unless `target` is taken. -/
def link (directory : LinkedDirectory Name File) (source target : Name) :
    Option (LinkedDirectory Name File) :=
  match found : directory.lookup source with
  | none => none
  | some file =>
    if directory.lookup target = none then
      some (directory.put target file (lookup_lt found))
    else
      none

/-- `rename`: the file of `source` has the name `target` instead, and replaces its file. Two names
of one file are both kept. -/
def rename (directory : LinkedDirectory Name File) (source target : Name) :
    Option (LinkedDirectory Name File) :=
  match found : directory.lookup source with
  | none => none
  | some file =>
    if directory.lookup target = some file then
      some directory
    else
      some ((directory.put target file (lookup_lt found)).remove source)

variable {directory : LinkedDirectory Name File} {name other : Name} {file id : ℕ}
  {content : File} {exists_ : file < directory.next}

@[simp]
theorem lookup_remove_self : (directory.remove name).lookup name = none :=
  lookup_erase name directory.names

@[simp]
theorem lookup_remove_of_ne (different : other ≠ name) :
    (directory.remove name).lookup other = directory.lookup other :=
  lookup_erase_ne different

@[simp]
theorem lookup_put_self : (directory.put name file exists_).lookup name = some file :=
  lookup_insert directory.names

@[simp]
theorem lookup_put_of_ne (different : other ≠ name) :
    (directory.put name file exists_).lookup other = directory.lookup other :=
  lookup_insert_ne different

@[simp]
theorem lookup_create_self : (directory.create name content).lookup name = some directory.next :=
  lookup_insert directory.names

@[simp]
theorem lookup_create_of_ne (different : other ≠ name) :
    (directory.create name content).lookup other = directory.lookup other :=
  lookup_insert_ne different

@[simp]
theorem files_remove : (directory.remove name).files = directory.files := rfl

@[simp]
theorem files_put : (directory.put name file exists_).files = directory.files := rfl

omit [DecidableEq Name] in
@[simp]
theorem files_write_self : (directory.write file content).files file = content :=
  update_self ..

omit [DecidableEq Name] in
@[simp]
theorem files_write_of_ne (different : id ≠ file) :
    (directory.write file content).files id = directory.files id :=
  update_of_ne different ..

@[simp]
theorem files_create_next : (directory.create name content).files directory.next = content :=
  update_self ..

theorem files_create_of_lt (old : id < directory.next) :
    (directory.create name content).files id = directory.files id :=
  update_of_ne (Nat.ne_of_lt old) ..

theorem linkCount_remove (directory : LinkedDirectory Name File) (name : Name) (id : ℕ) :
    (directory.remove name).linkCount id + (if directory.lookup name = some id then 1 else 0) =
      directory.linkCount id := by
  have split : (kerase name directory.names.entries).countP (·.2 == id) +
      (if directory.lookup name = some id then 1 else 0) =
        directory.names.entries.countP (·.2 == id) := by
    cases found : directory.lookup name with
    | none =>
      have absent : name ∉ directory.names.entries.keys := lookup_eq_none.mp found
      simp [kerase_of_notMem_keys absent]
    | some file =>
      have isEntry : (⟨name, file⟩ : Sigma fun _ => ℕ) ∈ directory.names.entries :=
        mem_lookup_iff.mp found
      rcases exists_of_kerase (mem_keys_of_mem isEntry) with
        ⟨same, _, _, _, entries, rest⟩
      have here : same = file := by
        have second : directory.lookup name = some same := by
          apply mem_lookup_iff.mpr
          simp [entries]
        rw [found] at second
        cases second
        rfl
      rw [rest, entries, here]
      simp [countP_cons, Nat.add_assoc]
  unfold linkCount
  rw [Nat.add_assoc]
  exact congrArg (directory.elsewhere id + ·) split

theorem linkCount_put (directory : LinkedDirectory Name File) (name : Name) (file : ℕ)
    (exists_ : file < directory.next) (id : ℕ) :
    (directory.put name file exists_).linkCount id =
      (directory.remove name).linkCount id + (if file = id then 1 else 0) := by
  have entries : (directory.names.erase name).entries =
      kerase name directory.names.entries := rfl
  simp [linkCount, put, remove, entries, countP_cons, Nat.add_assoc]

theorem linkCount_create_of_lt (absent : directory.lookup name = none)
    (old : id < directory.next) :
    (directory.create name content).linkCount id = directory.linkCount id := by
  have fresh : name ∉ directory.names := lookup_eq_none.mp absent
  have other : directory.next ≠ id := Nat.ne_of_gt old
  unfold linkCount create
  rw [entries_insert_of_notMem fresh]
  simp [other]

theorem linkCount_create_next (absent : directory.lookup name = none) :
    (directory.create name content).linkCount directory.next = 1 := by
  have fresh : name ∉ directory.names := lookup_eq_none.mp absent
  have nothing : directory.names.entries.countP (·.2 == directory.next) = 0 := by
    rw [countP_eq_zero]
    intro entry isEntry
    simpa using Nat.ne_of_lt (directory.allocated entry isEntry)
  unfold linkCount create
  rw [entries_insert_of_notMem fresh]
  simp [nothing, directory.unused directory.next le_rfl]

theorem linkCount_put_of_absent (absent : directory.lookup name = none) :
    (directory.put name file exists_).linkCount id =
      directory.linkCount id + (if file = id then 1 else 0) := by
  have kept := directory.linkCount_remove name id
  simp only [absent, reduceCtorEq, if_false, Nat.add_zero] at kept
  rw [linkCount_put, kept]

section

variable (found : directory.lookup name = some file)

include found

theorem linkCount_put_remove (different : name ≠ other) (id : ℕ) :
    ((directory.put other file (lookup_lt found)).remove name).linkCount id +
      (if directory.lookup other = some id then 1 else 0) = directory.linkCount id := by
  have removed := (directory.put other file (lookup_lt found)).linkCount_remove name id
  have replaced := directory.linkCount_remove other id
  rw [lookup_put_of_ne different, found, linkCount_put] at removed
  simp only [Option.some.injEq] at removed
  omega

theorem link_eq (absent : directory.lookup other = none) :
    directory.link name other = some (directory.put other file (lookup_lt found)) := by
  unfold link
  split
  next missing =>
    rw [found] at missing
    cases missing
  next present =>
    rw [found] at present
    cases present
    exact if_pos absent

theorem rename_eq (different : directory.lookup other ≠ some file) :
    directory.rename name other =
      some ((directory.put other file (lookup_lt found)).remove name) := by
  unfold rename
  split
  next missing =>
    rw [found] at missing
    cases missing
  next present =>
    rw [found] at present
    cases present
    exact if_neg different

end

end LinkedDirectory

end Peak
