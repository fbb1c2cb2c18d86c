import Mathlib.Algebra.Order.Ring.Int
import Mathlib.Data.List.TakeWhile
import Peak.Common.Buffer

/-!
# Entries of an environment

An environment is a list of texts, and a missing one (`NULL`) is empty. An entry with an equals sign
defines the name in front of it. `src/exec_interceptor.c` keeps the length of a name in an `int`,
which is exact for names of less than two gigabytes.
-/

namespace Peak.Exec

open List

abbrev Text := List Char

def sizeMax : ℕ := 2 ^ 64 - 1

def maxEnvEntries : ℕ := 32768

/-- Why an environment is not built. Both `tooBig` and `noRoom` are `E2BIG`: a size is not
representable, or a check in front of a write fails. `outOfBounds` is an unchecked write beyond its
buffer. -/
inductive BuildError where
  | tooBig
  | noRoom
  | enomem
  | einval
  | outOfBounds
deriving DecidableEq

def sizeAdd (left right : ℕ) : Except BuildError ℕ :=
  if sizeMax - right < left then throw .tooBig else pure (left + right)

def sizeMul (left right : ℕ) : Except BuildError ℕ :=
  if left ≠ 0 ∧ sizeMax / left < right then throw .tooBig else pure (left * right)

def isSeparator (char : Char) : Bool :=
  char = ':' || char = ' ' || char = '\t' || char = '\n'

def nameLen (entry : Text) : ℤ :=
  if entry.contains '=' then Int.bmod (entry.idxOf '=') (2 ^ 32) else -1

def entryMatches (name entry : Text) : Bool :=
  0 ≤ nameLen entry ∧ name.length = (nameLen entry).toNat ∧
    entry.take (nameLen entry).toNat = name.take (nameLen entry).toNat

def valueOf (entry : Text) : Text :=
  (entry.dropWhile (· ≠ '=')).drop 1

def envGet (env : List Text) (name : Text) : Option Text :=
  (env.find? (entryMatches name)).map valueOf

def envHasName (env : List Text) (name : Text) : Bool :=
  (envGet env name).isSome

def storageHasName (env : List Text) (name : Text) : Bool :=
  env.any (entryMatches name)

def envNameCount (env : List Text) (name : Text) : ℕ :=
  env.countP (entryMatches name)

def isPeakEntry (entry : Text) : Bool :=
  "PEAK_".toList.isPrefixOf entry

def envHasPeakEntry (env : List Text) : Bool :=
  env.any isPeakEntry

def getenv (env : List Text) (name : Text) : Option Text :=
  (env.find? ((name ++ ['=']).isPrefixOf ·)).map (·.drop (name.length + 1))

def ldPreload : Text := "LD_PRELOAD".toList

def ldLibraryPath : Text := "LD_LIBRARY_PATH".toList

/-- The errors that may occur: all writes are within their buffers, and no check fails which is
there to ensure this. -/
def Expected (error : BuildError) : Prop :=
  error ≠ .outOfBounds ∧ error ≠ .noRoom

section

open Fallible

theorem expected_tooBig : Expected .tooBig := by
  constructor <;> simp

theorem meets_sizeAdd (left right : ℕ) :
    Meets Expected (sizeAdd left right) (· = left + right) := by
  apply meets_ite
  · exact fun _ => meets_throw expected_tooBig
  · exact fun _ => meets_pure rfl

theorem meets_sizeMul (left right : ℕ) :
    Meets Expected (sizeMul left right) (· = left * right) := by
  apply meets_ite
  · exact fun _ => meets_throw expected_tooBig
  · exact fun _ => meets_pure rfl

end

def definedName (entry : Text) : Option Text :=
  if 0 ≤ nameLen entry then some (entry.take (nameLen entry).toNat) else none

section

variable {entry name value : Text} {env : List Text}

theorem toNat_nameLen_le (entry : Text) : (nameLen entry).toNat ≤ entry.length := by
  unfold nameLen
  split
  · have index := idxOf_le_length (a := '=') (l := entry)
    have le : Int.bmod (entry.idxOf '=') (2 ^ 32) ≤ entry.idxOf '=' := by
      rw [Int.bmod_def]
      split <;> omega
    omega
  · simp

theorem entryMatches_iff : entryMatches name entry ↔ definedName entry = some name := by
  rw [entryMatches, decide_eq_true_eq, definedName]
  constructor
  · rintro ⟨positive, length, same⟩
    rw [if_pos positive, same, ← length, take_length]
  · intro isName
    split at isName
    next positive =>
      have isTaken := Option.some.inj isName
      have length : name.length = (nameLen entry).toNat := by
        rw [← isTaken, length_take, Nat.min_eq_left (toNat_nameLen_le entry)]
      refine ⟨positive, length, ?_⟩
      rw [isTaken, ← length, take_length]
    next => cases isName

theorem envHasName_iff : envHasName env name ↔ ∃ entry ∈ env, definedName entry = some name := by
  simp only [envHasName, envGet, Option.isSome_map, find?_isSome, entryMatches_iff]

theorem storageHasName_iff :
    storageHasName env name ↔ ∃ entry ∈ env, definedName entry = some name := by
  simp only [storageHasName, any_eq_true, entryMatches_iff]

theorem idxOf_append_cons (plain : '=' ∉ name) :
    (name ++ '=' :: value).idxOf '=' = name.length := by
  rw [idxOf_append_of_notMem plain, idxOf_cons_self, Nat.add_zero]

theorem definedName_append_cons (plain : '=' ∉ name) (short : name.length < 2 ^ 31) :
    definedName (name ++ '=' :: value) = some name := by
  have length : nameLen (name ++ '=' :: value) = name.length := by
    rw [nameLen, if_pos (by simp), idxOf_append_cons plain, Int.bmod_def]
    split <;> omega
  rw [definedName, length, if_pos (Int.natCast_nonneg _), Int.toNat_natCast, take_left]

theorem valueOf_append_cons (plain : '=' ∉ name) : valueOf (name ++ '=' :: value) = value := by
  have skipped : (name ++ '=' :: value).dropWhile (· ≠ '=') = '=' :: value := by
    rw [dropWhile_append_of_pos]
    · simp
    · intro char isChar
      have different : char ≠ '=' := by
        rintro rfl
        exact plain isChar
      simpa using different
  rw [valueOf, skipped, drop_one, tail_cons]

end

end Peak.Exec
