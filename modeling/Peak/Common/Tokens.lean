import Mathlib.Data.List.TakeWhile

/-!
# Tokens between separators

A text is read in rounds. Each round skips the separators in front of the cursor and
takes the token behind them. The tokens are the nonempty parts between separators.
-/

namespace Peak.Tokens

open List

variable {α : Type} (isSeparator : α → Bool)

def tokensWithin : ℕ → List α → List (List α)
  | 0, _ => []
  | rounds + 1, cursor =>
    let start := cursor.dropWhile isSeparator
    let token := start.takeWhile fun char => !isSeparator char
    let rest := start.dropWhile fun char => !isSeparator char
    if token.isEmpty then tokensWithin rounds rest else token :: tokensWithin rounds rest

def tokens (text : List α) : List (List α) :=
  tokensWithin isSeparator text.length text

/-- The nonempty parts between separators. -/
def parts (text : List α) : List (List α) :=
  (text.splitOnP isSeparator).filter fun part => !part.isEmpty

variable {isSeparator} {text token : List α}

@[simp]
theorem parts_nil : parts isSeparator ([] : List α) = [] := rfl

variable {separator : α}

theorem parts_append (separates : isSeparator separator) (left right : List α) :
    parts isSeparator (left ++ separator :: right) =
      parts isSeparator left ++ parts isSeparator right := by
  rw [parts, splitOnP_append_cons left right separates, filter_append]
  rfl

theorem parts_of_forall (free : ∀ char ∈ text, isSeparator char = false) :
    parts isSeparator text = if text.isEmpty then [] else [text] := by
  rw [parts, splitOnP_eq_singleton free]
  cases text <;> rfl

theorem parts_dropWhile (text : List α) :
    parts isSeparator (text.dropWhile isSeparator) = parts isSeparator text := by
  induction text with
  | nil => rfl
  | cons _ text ih =>
    rw [dropWhile_cons]
    split
    next separates =>
      exact ih.trans (parts_append separates [] text).symm
    next => rfl

theorem parts_eq_takeWhile (text : List α) :
    parts isSeparator text =
      (if (text.takeWhile fun char => !isSeparator char).isEmpty then []
        else [text.takeWhile fun char => !isSeparator char]) ++
      parts isSeparator (text.dropWhile fun char => !isSeparator char) := by
  have free : ∀ char ∈ text.takeWhile (fun char => !isSeparator char),
      isSeparator char = false := by
    intro char isChar
    simpa using mem_takeWhile_imp isChar
  have whole : (text.takeWhile fun char => !isSeparator char) ++
      (text.dropWhile fun char => !isSeparator char) = text := takeWhile_append_dropWhile
  rw [← parts_of_forall free]
  cases rest : text.dropWhile fun char => !isSeparator char with
  | nil =>
    rw [rest, append_nil] at whole
    rw [whole, parts_nil, append_nil]
  | cons char after =>
    have separates : isSeparator char := by
      have head := head_dropWhile_not (fun char => !isSeparator char) (l := text)
        (by rw [rest]; exact cons_ne_nil _ _)
      simpa [rest] using head
    have behind : parts isSeparator (char :: after) = parts isSeparator after :=
      parts_append separates [] after
    rw [rest] at whole
    rw [behind, ← parts_append separates, whole]

theorem tokensWithin_eq {rounds : ℕ} (enough : text.length ≤ rounds) :
    tokensWithin isSeparator rounds text = parts isSeparator text := by
  induction rounds generalizing text with
  | zero =>
    rw [eq_nil_of_length_eq_zero (Nat.le_zero.mp enough)]
    rfl
  | succ rounds ih =>
    have shorter : ((text.dropWhile isSeparator).dropWhile fun char =>
        !isSeparator char).length ≤ rounds := by
      cases start : text.dropWhile isSeparator with
      | nil => simp
      | cons char after =>
        have first : isSeparator char = false := by
          have head := head_dropWhile_not isSeparator (l := text)
            (by rw [start]; exact cons_ne_nil _ _)
          simpa [start] using head
        have le := length_dropWhile_le isSeparator text
        have rest := length_dropWhile_le (fun char => !isSeparator char) after
        rw [start, length_cons] at le
        rw [dropWhile_cons_of_pos (by simp [first])]
        omega
    rw [tokensWithin, ih shorter, ← parts_dropWhile text,
      parts_eq_takeWhile (text.dropWhile isSeparator)]
    split <;> rfl

theorem tokens_eq_parts (text : List α) : tokens isSeparator text = parts isSeparator text :=
  tokensWithin_eq le_rfl

theorem tokens_append (separates : isSeparator separator) (left right : List α) :
    tokens isSeparator (left ++ separator :: right) =
      tokens isSeparator left ++ tokens isSeparator right := by
  simp only [tokens_eq_parts, parts_append separates]

theorem tokens_of_forall (nonempty : text ≠ [])
    (free : ∀ char ∈ text, isSeparator char = false) : tokens isSeparator text = [text] := by
  rw [tokens_eq_parts, parts_of_forall free, if_neg (by simpa using nonempty)]

theorem ne_nil_of_mem_tokens (isToken : token ∈ tokens isSeparator text) : token ≠ [] := by
  rw [tokens_eq_parts, parts, mem_filter] at isToken
  simpa using isToken.2

theorem not_separator_of_mem_tokensWithin {rounds : ℕ}
    (isToken : token ∈ tokensWithin isSeparator rounds text) :
    ∀ char ∈ token, isSeparator char = false := by
  induction rounds generalizing text with
  | zero => cases isToken
  | succ _ ih =>
    rw [tokensWithin] at isToken
    split at isToken
    · exact ih isToken
    · rcases mem_cons.mp isToken with rfl | later
      · intro char isChar
        simpa using mem_takeWhile_imp isChar
      · exact ih later

theorem not_separator_of_mem_tokens (isToken : token ∈ tokens isSeparator text) :
    ∀ char ∈ token, isSeparator char = false :=
  not_separator_of_mem_tokensWithin isToken

theorem tokens_intercalate (separates : isSeparator separator) (texts : List (List α)) :
    tokens isSeparator ([separator].intercalate texts) = texts.flatMap (tokens isSeparator) := by
  induction texts with
  | nil => rfl
  | cons _ texts ih =>
    cases texts with
    | nil => simp
    | cons =>
      rw [intercalate_cons_cons, append_assoc, singleton_append, tokens_append separates, ih]
      rfl

variable {texts : List (List α)}

theorem tokens_intercalate_tokens (separates : isSeparator separator)
    (nonempty : ∀ text ∈ texts, text ≠ [])
    (free : ∀ text ∈ texts, ∀ char ∈ text, isSeparator char = false) :
    tokens isSeparator ([separator].intercalate texts) = texts := by
  rw [tokens_intercalate separates]
  induction texts with
  | nil => rfl
  | cons _ _ ih =>
    rw [forall_mem_cons] at nonempty free
    rw [flatMap_cons, tokens_of_forall nonempty.1 free.1, ih nonempty.2 free.2, singleton_append]

theorem intercalate_concat (separator : List α) (nonempty : texts ≠ []) (text : List α) :
    separator.intercalate (texts ++ [text]) = separator.intercalate texts ++ separator ++ text := by
  induction texts with
  | nil => exact absurd rfl nonempty
  | cons _ texts ih =>
    cases texts with
    | nil => simp
    | cons next texts =>
      have rest := ih (cons_ne_nil next texts)
      simp only [cons_append, intercalate_cons_cons] at rest ⊢
      simp only [rest, append_assoc]

theorem length_intercalate (separator : α) (nonempty : texts ≠ []) :
    ([separator].intercalate texts).length + 1 = texts.flatten.length + texts.length := by
  induction texts with
  | nil => exact absurd rfl nonempty
  | cons _ texts ih =>
    cases texts with
    | nil => simp
    | cons next texts =>
      have rest := ih (cons_ne_nil next texts)
      rw [intercalate_cons_cons, flatten_cons]
      simp only [length_append, length_cons, length_nil] at rest ⊢
      omega

end Peak.Tokens
