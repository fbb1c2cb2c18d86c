import Mathlib.Data.List.GetD
import Mathlib.Data.List.Induction
import Mathlib.Data.List.TakeWhile
import Peak.Target.Batch

/-!
# Spellings of a function in a demangled name

A batch tests a selector against a demangled name only if an index has a key for both. A selector
that matches stands in the demangled name up to spaces. If the function is spelled alike in both,
they have a key in common.
-/

namespace Peak.Target

open List

/-- The selector stands in the demangled name at the index, up to spaces, where a declarator may
begin. -/
def OccursAt (symbol demangled : Text) (start : ℕ) : Prop :=
  declaratorBoundary demangled start ∧ withoutSpace symbol <+: withoutSpace (demangled.drop start)
deriving Decidable

/-- The text ends in an identifier and a bracket which begins template arguments or parameters. -/
def endsInCall (head : Text) : Bool :=
  match head.reverse with
  | [] => false
  | bracket :: front =>
    (bracket = '<' || bracket = '(') &&
      (front.takeWhile isWordChar).any fun char => isAlpha char || char = '_'

/-- The function is spelled alike in the selector and in the demangled name: both begin with the
same identifier and bracket, without other spaces in one of them, or the first `operator` of the
demangled name is the first one of the selector. -/
def SpelledAlike (symbol demangled : Text) (start : ℕ) : Prop :=
  (∃ length ≤ symbol.length, endsInCall (symbol.take length) ∧
    symbol.take length <+: (demangled.drop start).dropWhile asciiIsSpace) ∨
  ∃ first ∈ firstOccurrence operatorWord symbol, '(' ∈ symbol.drop first ∧
    ∃ shown ∈ firstOccurrence operatorWord demangled, start ≤ shown ∧
      withoutSpace (symbol.take first) =
        withoutSpace ((demangled.drop start).take (shown - start))
deriving Decidable

/-- The identifier that is being read after the text. -/
def identifierStep (reading : Option Text) (char : Char) : Option Text :=
  match reading with
  | none => if isAlpha char || char = '_' then some [char] else none
  | some identifier => if isWordChar char then some (identifier ++ [char]) else none

theorem identifierKeysFrom_append (reading : Option Text) (left right : Text) :
    identifierKeysFrom reading (left ++ right) =
      identifierKeysFrom reading left ++
        identifierKeysFrom (left.foldl identifierStep reading) right := by
  induction left generalizing reading with
  | nil => simp [identifierKeysFrom]
  | cons char rest ih =>
    cases reading with
    | none => simp only [cons_append, identifierKeysFrom, foldl_cons, identifierStep, ih]
    | some identifier =>
      simp only [cons_append, identifierKeysFrom, foldl_cons, identifierStep]
      split
      · rw [ih]
      · split
        · rw [ih, cons_append]
        · rw [ih]

theorem foldl_identifierStep_concat {char : Char} (notWord : isWordChar char = false)
    (reading : Option Text) (text : Text) :
    (text ++ [char]).foldl identifierStep reading = none := by
  have notLetter : ¬ (isAlpha char || char = '_') := by
    simp only [isWordChar, Bool.or_eq_false_iff] at notWord
    simp [notWord.1.1, notWord.2]
  rw [foldl_append, foldl_cons, foldl_nil]
  cases text.foldl identifierStep reading with
  | none => exact if_neg notLetter
  | some => simp [identifierStep, notWord]

/-- At the end of a word which has a letter, an identifier is being read. -/
theorem exists_foldl_identifierStep {front : Text} (reading : Option Text)
    (letter : (front.reverse.takeWhile isWordChar).any fun char => isAlpha char || char = '_') :
    ∃ identifier, front.foldl identifierStep reading = some identifier := by
  induction front using reverseRecOn with
  | nil => simp at letter
  | append_singleton front char ih =>
    rw [reverse_append, reverse_singleton, singleton_append, takeWhile_cons] at letter
    rw [foldl_append, foldl_cons, foldl_nil]
    split at letter
    next isWord =>
      cases isReading : front.foldl identifierStep reading with
      | some identifier => exact ⟨identifier ++ [char], if_pos isWord⟩
      | none =>
        rw [isReading] at ih
        have isLetter : isAlpha char || char = '_' := by
          rw [any_cons, Bool.or_eq_true] at letter
          exact letter.resolve_right fun earlier => by simpa using ih earlier
        exact ⟨[char], if_pos isLetter⟩
    · simp at letter

theorem exists_mem_identifierKeys {head : Text} (isCall : endsInCall head) :
    ∃ key, ∀ before rest, before.foldl identifierStep none = none →
      key ∈ identifierKeys (before ++ head ++ rest) := by
  cases head using reverseRecOn with
  | nil => cases isCall
  | append_singleton front bracket _ =>
    simp only [endsInCall, reverse_append, reverse_singleton, singleton_append,
      Bool.and_eq_true] at isCall
    rcases isCall with ⟨isBracket, letter⟩
    rcases exists_foldl_identifierStep none letter with ⟨identifier, isReading⟩
    refine ⟨identifier, fun before rest ready => ?_⟩
    have notWord : isWordChar bracket = false := by
      simp only [Bool.or_eq_true, decide_eq_true_eq] at isBracket
      rcases isBracket with rfl | rfl <;> decide
    rw [identifierKeys, append_assoc, append_assoc, singleton_append, identifierKeysFrom_append,
      ready, identifierKeysFrom_append, isReading]
    simp [identifierKeysFrom, notWord, isBracket]

theorem drop_skipSpace (space : Char → Bool) (text : Text) (index : ℕ) :
    text.drop (skipSpace space text index) = (text.drop index).dropWhile space := by
  rw [skipSpace, ← drop_drop]
  nth_rewrite 2 [← takeWhile_append_dropWhile (p := space) (l := text.drop index)]
  exact drop_left

theorem withoutSpace_append (left right : Text) :
    withoutSpace (left ++ right) = withoutSpace left ++ withoutSpace right :=
  filter_append left right

theorem withoutSpace_dropWhile (text : Text) :
    withoutSpace (text.dropWhile asciiIsSpace) = withoutSpace text := by
  induction text with
  | nil => rfl
  | cons char _ ih =>
    by_cases isSpace : asciiIsSpace char
    · rw [dropWhile_cons_of_pos isSpace, ih, withoutSpace, withoutSpace, filter_cons_of_neg]
      simp [isSpace]
    · rw [dropWhile_cons_of_neg isSpace]

/-- A selector that is found stands in the text up to spaces. -/
theorem prefix_of_normalizedPrefixEnd {text selector : Text} {candidate stop : ℕ}
    (terminated : '\x00' ∉ selector)
    (found : normalizedPrefixEnd text selector candidate = some stop) :
    selector <+: withoutSpace (text.drop candidate) := by
  induction selector generalizing candidate with
  | nil => exact nil_prefix
  | cons char selector ih =>
    rw [mem_cons, not_or] at terminated
    simp only [normalizedPrefixEnd] at found
    split at found
    · cases found
    next isChar =>
      rw [not_not] at isChar
      have later := ih terminated.2 found
      generalize isNext : skipSpace asciiIsSpace text candidate = next at isChar later
      have inside : next < text.length := by
        by_contra outside
        rw [charAt, getD_eq_default _ _ (Nat.le_of_not_lt outside)] at isChar
        exact terminated.1 isChar
      rw [charAt, getD_eq_getElem _ _ inside] at isChar
      have parts : (text.drop candidate).dropWhile asciiIsSpace = char :: text.drop (next + 1) := by
        rw [← drop_skipSpace, isNext, drop_eq_getElem_cons inside, isChar]
      have notSpace := head?_dropWhile_not asciiIsSpace (text.drop candidate)
      rw [parts, head?_cons] at notSpace
      rw [← withoutSpace_dropWhile, parts, withoutSpace,
        filter_cons_of_pos (by simpa using notSpace)]
      exact cons_prefix_cons.mpr ⟨rfl, later⟩

theorem exists_of_run {selector text : Text} {remaining cursor : ℕ} {scan : DemangledScan}
    (found : scan.run selector text remaining cursor) :
    ∃ start < cursor + remaining, declaratorBoundary text start ∧
      ∃ stop, normalizedPrefixEnd text selector start = some stop := by
  induction remaining generalizing cursor scan with
  | zero => cases found
  | succ remaining ih =>
    rw [DemangledScan.run] at found
    split at found
    next isMatch =>
      simp only [DemangledScan.matchesAt, Bool.and_eq_true, Option.any_eq_true] at isMatch
      rcases isMatch with ⟨⟨⟨_, boundary⟩, _⟩, stop, isStop, _⟩
      exact ⟨cursor, by omega, boundary, stop, isStop⟩
    next =>
      rcases ih found with ⟨start, lt, isStart⟩
      exact ⟨start, by omega, isStart⟩

theorem occursAt_of_fullSignatureMatches {symbol demangled : Text} (terminated : '\x00' ∉ symbol)
    (isFull : fullSignatureMatches symbol demangled)
    (different : ¬ equalNormalized symbol demangled) :
    ∃ start < demangled.length, OccursAt symbol demangled start := by
  simp only [fullSignatureMatches, if_neg different] at isFull
  split at isFull
  · cases isFull
  split at isFull
  · cases isFull
  split at isFull
  · cases isFull
  rcases exists_of_run isFull with ⟨start, lt, boundary, _, isStop⟩
  refine ⟨start, by omega, boundary, prefix_of_normalizedPrefixEnd ?_ isStop⟩
  exact fun isMember => terminated (mem_of_mem_filter isMember)

/-- No identifier is being read where a declarator may begin. -/
theorem foldl_identifierStep_of_boundary {text : Text} {start : ℕ}
    (boundary : declaratorBoundary text start) (inside : start < text.length) :
    (text.take start ++ (text.drop start).takeWhile asciiIsSpace).foldl identifierStep none =
      none := by
  have notWord : ∀ char, asciiIsSpace char → isWordChar char = false := by
    intro char isSpace
    simp only [asciiIsSpace, mem_cons, not_mem_nil, or_false, decide_eq_true_eq] at isSpace
    rcases isSpace with rfl | rfl | rfl | rfl | rfl <;> decide
  have ready : (text.take start).foldl identifierStep none = none := by
    cases start with
    | zero => rfl
    | succ last =>
      rw [take_succ_eq_append_getElem (by omega)]
      apply foldl_identifierStep_concat
      simp only [declaratorBoundary, charAt, Nat.add_sub_cancel] at boundary
      rw [getD_eq_getElem _ _ (by omega)] at boundary
      simp only [Bool.or_eq_true, Bool.and_eq_true, decide_eq_true_eq] at boundary
      rcases boundary with ((absurdity | isSpace) | ⟨isStar, _⟩) | ⟨isAmpersand, _⟩
      · cases absurdity
      · exact notWord _ isSpace
      · rw [isStar]; decide
      · rw [isAmpersand]; decide
  generalize isBlanks : (text.drop start).takeWhile asciiIsSpace = blanks
  cases blanks using reverseRecOn with
  | nil => rwa [append_nil]
  | append_singleton blanks blank _ =>
    have isBlank : blank ∈ (text.drop start).takeWhile asciiIsSpace := by simp [isBlanks]
    rw [← append_assoc]
    exact foldl_identifierStep_concat (notWord blank (mem_takeWhile_imp isBlank)) _ _

theorem withoutSpace_takeWhile (text : Text) :
    withoutSpace (text.takeWhile (· ≠ '(')) = (withoutSpace text).takeWhile (· ≠ '(') := by
  induction text with
  | nil => rfl
  | cons char rest ih =>
    by_cases isOpen : char = '('
    · subst isOpen
      rfl
    · rw [takeWhile_cons_of_pos (by simpa using isOpen)]
      by_cases isSpace : asciiIsSpace char
      · simpa [withoutSpace, isSpace] using ih
      · simpa [withoutSpace, isSpace, isOpen] using ih

/-- A selector that matches a demangled name in which it is spelled alike has a key in common with
it. -/
theorem exists_common_key {symbol demangled : Text} (terminated : '\x00' ∉ symbol)
    (isFull : fullSignatureMatches symbol demangled)
    (different : ¬ equalNormalized symbol demangled)
    (spelled : ∀ start < demangled.length, OccursAt symbol demangled start →
      SpelledAlike symbol demangled start) :
    ∃ key ∈ signatureKeys demangled, key ∈ signatureKeys symbol := by
  rcases occursAt_of_fullSignatureMatches terminated isFull different with ⟨start, inside, occurs⟩
  rcases spelled start inside occurs with ⟨length, _, isCall, rest, parts⟩ |
    ⟨first, isFirst, isOpen, shown, isShown, le, same⟩
  · -- both are scanned from the same state up to the bracket
    rcases exists_mem_identifierKeys isCall with ⟨key, isKey⟩
    have ready := foldl_identifierStep_of_boundary occurs.1 inside
    have inName := isKey _ rest ready
    rw [append_assoc, append_assoc, parts, takeWhile_append_dropWhile, take_append_drop] at inName
    have inSelector := isKey [] (symbol.drop length) rfl
    rw [nil_append, take_append_drop] at inSelector
    exact ⟨key, mem_cons_of_mem _ inName, mem_cons_of_mem _ inSelector⟩
  · refine ⟨fullFunctionId symbol, ?_, mem_cons_self⟩
    have continues : withoutSpace (symbol.drop first) <+: withoutSpace (demangled.drop shown) := by
      have whole := occurs.2
      rw [← take_append_drop first symbol,
        ← take_append_drop (shown - start) (demangled.drop start), drop_drop,
        Nat.add_sub_cancel' le, withoutSpace_append, withoutSpace_append, same] at whole
      exact (prefix_append_right_inj _).mp whole
    have isId : fullFunctionId demangled = fullFunctionId symbol := by
      rcases continues with ⟨rest, continues⟩
      simp only [fullFunctionId, Option.mem_def.mp isFirst, Option.mem_def.mp isShown]
      have isInside : '(' ∈ withoutSpace (symbol.drop first) :=
        mem_filter.mpr ⟨isOpen, by decide⟩
      rw [withoutSpace_takeWhile, withoutSpace_takeWhile, ← continues, takeWhile_append, if_neg]
      intro whole
      have all := takeWhile_eq_self_iff.mp (( takeWhile_prefix _).eq_of_length whole)
      exact absurd (all _ isInside) (by decide)
    exact isId ▸ mem_cons_self

end Peak.Target
