import Peak.Common.Lines
import Mathlib.Algebra.Group.Nat.Defs
import Mathlib.Tactic.Common

/-!
# Lines of a perf map

A line of a perf map has an address, a size and a name. This file models how
`src/jit_provider.c` reads and parses one line. A line is held in a buffer of `4096`
bytes, and is a C string there: a zero byte ends it for `strlen`.
-/

namespace Peak.Jit

open List

def newline : UInt8 := 10

/-- `sizeof(line) - 1`, the most that `fgets` reads. -/
def lineCapacity : ℕ := 4095

/-- `fgets(line, sizeof(line), fp)`, at the rest of the file behind the position. -/
def fgets (stream : List UInt8) : Option (List UInt8) :=
  if stream.isEmpty then none else some (Lines.readLine newline lineCapacity stream)

def cString (buffer : List UInt8) : List UInt8 :=
  buffer.takeWhile (· ≠ 0)

def strlen (buffer : List UInt8) : ℕ :=
  (cString buffer).length

def lineIsComplete (line : List UInt8) : Bool :=
  (cString line).getLast? = some newline

/-- `peak_jit_consume_overlong_line`: the number of bytes up to the next newline. -/
def consumeOverlongLine (stream : List UInt8) : Option ℕ :=
  Lines.skipLine newline stream

/-- `isspace` in the C locale. -/
def isSpace (byte : UInt8) : Bool :=
  byte = 32 || (9 ≤ byte && byte ≤ 13)

def hexDigit (byte : UInt8) : Option ℕ :=
  if 48 ≤ byte ∧ byte ≤ 57 then some (byte.toNat - 48)
  else if 65 ≤ byte ∧ byte ≤ 70 then some (byte.toNat - 55)
  else if 97 ≤ byte ∧ byte ≤ 102 then some (byte.toNat - 87)
  else none

/-- `strtoull` passes over `0x` when a digit follows. -/
def skipHexMark : List UInt8 → List UInt8
  | 48 :: mark :: digit :: rest =>
    if (mark = 120 ∨ mark = 88) ∧ (hexDigit digit).isSome then digit :: rest
    else 48 :: mark :: digit :: rest
  | text => text

def readSign : List UInt8 → Bool × List UInt8
  | 45 :: rest => (true, rest)
  | 43 :: rest => (false, rest)
  | text => (false, text)

/-- The result of `strtoull`: the value with `end`, or `ERANGE`. -/
inductive Strtoull where
  | noConversion
  | outOfRange
  | value (number : UInt64) (rest : List UInt8)

/-- `strtoull(text, &end, 16)`. A negated value wraps. -/
def strtoull (text : List UInt8) : Strtoull :=
  let (negative, unsigned) := readSign (text.dropWhile isSpace)
  let start := skipHexMark unsigned
  let digits := start.takeWhile fun byte => (hexDigit byte).isSome
  let number := (digits.filterMap hexDigit).foldl (fun value digit => 16 * value + digit) 0
  if digits.isEmpty then .noConversion
  else if 2 ^ 64 ≤ number then .outOfRange
  else .value (if negative then -UInt64.ofNat number else UInt64.ofNat number)
    (start.dropWhile fun byte => (hexDigit byte).isSome)

def trimRecordName (name : List UInt8) : List UInt8 :=
  ((name.dropWhile isSpace).reverse.dropWhile isSpace).reverse

/-- A symbol of a perf map. Its range is not empty and does not wrap, and it has a name. -/
structure PerfMapRecord where
  address : UInt64
  size : UInt64
  name : List UInt8
  nonempty : size ≠ 0
  named : name ≠ []
  inRange : ¬address + size < address

def parseNumbers (line : List UInt8) : Option (UInt64 × UInt64 × List UInt8) :=
  let cursor := line.dropWhile isSpace
  if cursor.isEmpty ∨ cursor.head? = some 35 then none
  else match strtoull cursor with
    | .value address rest =>
      if rest.head?.any isSpace then
        match strtoull (rest.dropWhile isSpace) with
        | .value size behind =>
          if behind.head?.any isSpace then some (address, size, behind) else none
        | _ => none
      else none
    | _ => none

def parsePerfMapLine (line : List UInt8) : Option PerfMapRecord :=
  match parseNumbers (cString line) with
  | none => none
  | some (address, size, behind) =>
    if nonempty : size ≠ 0 then
      if named : trimRecordName behind ≠ [] then
        if inRange : ¬address + size < address then
          some ⟨address, size, trimRecordName behind, nonempty, named, inRange⟩
        else none
      else none
    else none

-- `10 20 f\n`
example : (parsePerfMapLine [49, 48, 32, 50, 48, 32, 102, 10]).map
    (fun record => (record.address, record.size, record.name)) = some (16, 32, [102]) := by
  decide

theorem cString_eq_self_iff {buffer : List UInt8} : cString buffer = buffer ↔ 0 ∉ buffer := by
  rw [cString, takeWhile_eq_self_iff]
  constructor
  · intro nonzero zero
    simpa using nonzero 0 zero
  · intro noZero byte isByte
    rw [decide_eq_true_iff]
    rintro rfl
    exact noZero isByte

theorem cString_isPrefix (buffer : List UInt8) : cString buffer <+: buffer :=
  takeWhile_prefix _

theorem strlen_eq_length_iff {buffer : List UInt8} :
    strlen buffer = buffer.length ↔ 0 ∉ buffer := by
  rw [← cString_eq_self_iff]
  constructor
  · exact (cString_isPrefix buffer).eq_of_length
  · exact congrArg length

theorem lineIsComplete_iff {line : List UInt8} (single : newline ∉ line.dropLast) :
    lineIsComplete line ↔ 0 ∉ line ∧ line.getLast? = some newline := by
  rw [lineIsComplete, decide_eq_true_iff]
  constructor
  · intro ends
    -- the newline that ends the string is the only one in the buffer
    have whole : cString line = line := by
      rcases cString_isPrefix line with ⟨rest, parts⟩
      cases rest with
      | nil => rwa [append_nil] at parts
      | cons =>
        exfalso
        apply single
        rw [← parts, dropLast_append_of_ne_nil (cons_ne_nil _ _), mem_append]
        exact .inl (mem_of_getLast? ends)
    rw [whole] at ends
    exact ⟨cString_eq_self_iff.mp whole, ends⟩
  · rintro ⟨noZero, ends⟩
    rw [cString_eq_self_iff.mpr noZero]
    exact ends

end Peak.Jit
