import Mathlib.Data.List.TakeWhile

/-!
# Lines of a growing text

A text is a sequence of lines, each ended by a terminator, and a tail without one. A reader sees
only a part of the text after its position. What it reads up to a terminator is a line of the
whole text, since the text can only grow behind it.
-/

namespace Peak.Lines

open List

variable {α : Type} [DecidableEq α] (terminator : α)

/-- The lines which have been terminated. -/
def complete (text : List α) : List (List α) :=
  (text.splitOn terminator).dropLast.map (· ++ [terminator])

/-- Read up to a terminator, and at most `limit` elements. -/
def readLine : ℕ → List α → List α
  | 0, _ => []
  | _ + 1, [] => []
  | limit + 1, first :: rest =>
    if first = terminator then [first] else first :: readLine limit rest

/-- The length of the first line. -/
def skipLine : List α → Option ℕ
  | [] => none
  | first :: rest => if first = terminator then some 1 else (skipLine rest).map (· + 1)

variable {terminator} {text body rest : List α}

theorem complete_of_notMem (absent : terminator ∉ text) : complete terminator text = [] := by
  rw [complete, splitOn, splitOnP_eq_singleton]
  · rfl
  · intro element isElement
    simp only [beq_eq_false_iff_ne]
    rintro rfl
    exact absent isElement

theorem complete_append_cons (absent : terminator ∉ body) (rest : List α) :
    complete terminator (body ++ terminator :: rest) =
      (body ++ [terminator]) :: complete terminator rest := by
  have first : (body ++ terminator :: rest).splitOn terminator =
      body :: rest.splitOn terminator := by
    rw [splitOn, splitOn, splitOnP_append_cons _ _ (by simp), splitOnP_eq_singleton]
    · rfl
    · intro element isElement
      simp only [beq_eq_false_iff_ne]
      rintro rfl
      exact absent isElement
  rw [complete, complete, first, dropLast_cons_of_ne_nil, map_cons]
  exact splitOnP_ne_nil _ _

theorem cases_first (terminator : α) (text : List α) :
    terminator ∉ text ∨ ∃ body rest, text = body ++ terminator :: rest ∧ terminator ∉ body := by
  by_cases present : terminator ∈ text
  · right
    exact eq_append_cons_of_mem present
  · exact .inl present

theorem readLine_of_notMem {limit : ℕ} (absent : terminator ∉ text.take limit) :
    readLine terminator limit text = text.take limit := by
  induction limit generalizing text with
  | zero => simp [readLine]
  | succ _ ih =>
    cases text with
    | nil => simp [readLine]
    | cons =>
      rw [take_succ_cons, mem_cons, not_or] at absent
      rw [readLine, if_neg (Ne.symm absent.1), ih absent.2, take_succ_cons]

theorem readLine_append_cons {limit : ℕ} (absent : terminator ∉ body)
    (short : body.length < limit) (rest : List α) :
    readLine terminator limit (body ++ terminator :: rest) = body ++ [terminator] := by
  induction body generalizing limit with
  | nil =>
    cases limit with
    | zero => simp at short
    | succ => simp [readLine]
  | cons _ _ ih =>
    rw [mem_cons, not_or] at absent
    cases limit with
    | zero => simp at short
    | succ =>
      rw [cons_append, readLine, if_neg (Ne.symm absent.1), ih absent.2]
      · rfl
      · simpa using short

theorem skipLine_of_notMem (absent : terminator ∉ text) : skipLine terminator text = none := by
  induction text with
  | nil => rfl
  | cons _ _ ih =>
    rw [mem_cons, not_or] at absent
    rw [skipLine, if_neg (Ne.symm absent.1), ih absent.2]
    rfl

theorem skipLine_append_cons (absent : terminator ∉ body) (rest : List α) :
    skipLine terminator (body ++ terminator :: rest) = some (body.length + 1) := by
  induction body with
  | nil => simp [skipLine]
  | cons _ _ ih =>
    rw [mem_cons, not_or] at absent
    rw [cons_append, skipLine, if_neg (Ne.symm absent.1), ih absent.2]
    rfl

omit [DecidableEq α] in
theorem take_append_cons {shown : ℕ} (absent : terminator ∉ body)
    (seen : terminator ∈ (body ++ terminator :: rest).take shown) :
    body.length < shown ∧ (body ++ terminator :: rest).take shown =
      body ++ terminator :: rest.take (shown - (body.length + 1)) := by
  have long : body.length < shown := by
    by_contra short
    rw [take_append_of_le_length (Nat.le_of_not_lt short)] at seen
    exact absent (mem_of_mem_take seen)
  refine ⟨long, ?_⟩
  rw [take_append, take_of_length_le (Nat.le_of_lt long),
    show shown - body.length = shown - (body.length + 1) + 1 by omega, take_succ_cons]

end Peak.Lines
