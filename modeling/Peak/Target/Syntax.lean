import Mathlib.Data.Nat.Notation

/-!
# The syntax of target selectors

A selector is the name of a function with an optional module, `module!symbol`. The name may be a C++
signature, in which `!` occurs as an operator or inside of a nested declarator. The lexer of
`src/utils/target_selector_syntax.c` finds the delimiters outside of these.

A text is the list of its characters. Behind the last one is the terminating zero, which the lexer
reads as well.
-/

namespace Peak.Target

abbrev Text := List Char

def charAt (text : Text) (index : ℕ) : Char :=
  text.getD index '\x00'

/-- `strncmp` with the length of the word. -/
def startsAt (text : Text) (index : ℕ) (word : Text) : Bool :=
  word.isPrefixOf (text.drop index)

def isSpace (char : Char) : Bool :=
  char ∈ [' ', '\t', '\n', '\x0b', '\x0c', '\r']

/-- `g_ascii_isspace`, without the vertical tab. -/
def asciiIsSpace (char : Char) : Bool :=
  char ∈ [' ', '\t', '\n', '\x0c', '\r']

def isAlpha (char : Char) : Bool :=
  'a' ≤ char ∧ char ≤ 'z' ∨ 'A' ≤ char ∧ char ≤ 'Z'

def isDigit (char : Char) : Bool :=
  '0' ≤ char ∧ char ≤ '9'

def isWordChar (char : Char) : Bool :=
  isAlpha char || isDigit char || char = '_'

def wordStartsAt (text : Text) (index : ℕ) : Bool :=
  index = 0 || !isWordChar (charAt text (index - 1))

def skipSpace (space : Char → Bool) (text : Text) (index : ℕ) : ℕ :=
  index + ((text.drop index).takeWhile space).length

def trimEnd (space : Char → Bool) (text : Text) : ℕ → ℕ
  | 0 => 0
  | index + 1 => if space (charAt text index) then trimEnd space text index else index + 1

def operatorWord : Text := "operator".toList

/-- The tokens which may follow the word `operator`. -/
def operatorTokens : List Text :=
  ["<=>", "->*", "<<=", ">>=", "<<", ">>", "<=", ">=", "==", "!=", "++", "--", "&&", "||", "+=",
    "-=", "*=", "/=", "%=", "^=", "&=", "|=", "->", "<", ">", "+", "-", "*", "/", "%", "^", "&",
    "|", "~", "!", "=", ","].map String.toList

/-- The character is part of the name of an operator. `peak_selector_operator_punctuation_at` and
`peak_target_operator_punctuation_at` differ in the spaces. -/
def operatorPunctuationAt (space : Char → Bool) (text : Text) (cursor : ℕ) : Bool :=
  (List.range cursor).any fun word =>
    startsAt text word operatorWord && wordStartsAt text word &&
      operatorTokens.any fun token =>
        let start := skipSpace space text (word + 8)
        startsAt text start token && start ≤ cursor && cursor < start + token.length

def selectorOperatorPunctuationAt : Text → ℕ → Bool :=
  operatorPunctuationAt isSpace

def operatorTokenEndsAt (text : Text) (cursor : ℕ) : Bool :=
  let trimmed := trimEnd isSpace text cursor
  8 ≤ trimmed && startsAt text (trimmed - 8) operatorWord && wordStartsAt text (trimmed - 8)

def precedingKeyword (text : Text) (cursor : ℕ) (keyword : Text) : Bool :=
  let trimmed := trimEnd isSpace text cursor
  keyword.length ≤ trimmed && startsAt text (trimmed - keyword.length) keyword &&
    wordStartsAt text (trimmed - keyword.length)

def parenthesisIsGrouping (text : Text) (cursor : ℕ) : Bool :=
  let trimmed := trimEnd isSpace text cursor
  trimmed = 0 ||
    (["decltype", "noexcept", "sizeof", "alignof", "typeid"].any fun keyword =>
      precedingKeyword text trimmed keyword.toList) ||
    charAt text (trimmed - 1) ∈ "<[\x7b,(+-*/%&|^~!=?>".toList

structure SelectorFrame where
  grouping : Bool
  closer : Char
  id : ℕ

def SelectorFrame.outermost : SelectorFrame where
  grouping := false
  closer := '\x00'
  id := 0

/-- The variables of `peak_target_selector_next_delimiter`. The outermost frame is not listed, and
an angle is known by its frame. The last ones come first. -/
structure SelectorLexer where
  frames : List SelectorFrame
  angles : List ℕ
  nextFrame : ℕ
  nested : Option ℕ

namespace SelectorLexer

def start : SelectorLexer where
  frames := []
  angles := []
  nextFrame := 1
  nested := none

variable (lexer : SelectorLexer)

def frame : SelectorFrame :=
  lexer.frames.head?.getD .outermost

def frameHasAngle (frame : ℕ) : Bool :=
  lexer.angles.head? = some frame

def atTopLevel : Bool :=
  lexer.frames.isEmpty && lexer.angles.isEmpty

inductive Outcome where
  | next (lexer : SelectorLexer)
  | found
  | invalid

def openFrame (text : Text) (cursor : ℕ) (opener : Char) : SelectorLexer :=
  { lexer with
    frames :=
      { grouping := if opener = '(' then parenthesisIsGrouping text cursor else true
        closer := if opener = '(' then ')' else if opener = '[' then ']' else '}'
        id := lexer.nextFrame } :: lexer.frames
    nextFrame := lexer.nextFrame + 1 }

def closeFrame (closer : Char) : Outcome :=
  match lexer.frames with
  | [] => .invalid
  | current :: frames =>
    if closer ≠ current.closer then
      .invalid
    else if lexer.frameHasAngle current.id && !current.grouping then
      .invalid
    else
      .next { lexer with
        frames := frames
        angles := lexer.angles.dropWhile (· = current.id) }

def closeAngle (text : Text) (cursor : ℕ) : Outcome :=
  if 0 < cursor ∧ charAt text (cursor - 1) = '=' then
    .invalid
  else if charAt text (cursor + 1) ≠ '=' ∧ lexer.frameHasAngle lexer.frame.id then
    .next { lexer with angles := lexer.angles.tail }
  else if charAt text (cursor + 1) ≠ '=' ∧ !lexer.frame.grouping then
    .invalid
  else
    .next lexer

def step (text : Text) (delimiter : Char) (cursor : ℕ) : Outcome :=
  let char := charAt text cursor
  if char ∈ ['(', '[', '{'] then
    .next (lexer.openFrame text cursor char)
  else if char ∈ [')', ']', '}'] then
    lexer.closeFrame char
  else if char = '<' ∧ !selectorOperatorPunctuationAt text cursor ∧
      charAt text (cursor + 1) ≠ '=' then
    .next { lexer with angles := lexer.frame.id :: lexer.angles }
  else if char = '>' ∧ !selectorOperatorPunctuationAt text cursor then
    lexer.closeAngle text cursor
  else if char = delimiter ∧ !selectorOperatorPunctuationAt text cursor ∧
      !(delimiter = ',' && operatorTokenEndsAt text cursor) then
    if lexer.atTopLevel then
      .found
    else
      .next { lexer with nested := lexer.nested <|> some cursor }
  else
    .next lexer

def run (text : Text) (delimiter : Char) (recoverNested : Bool) :
    ℕ → ℕ → SelectorLexer → Bool × Option ℕ
  | 0, _, lexer =>
    if lexer.atTopLevel then (true, none)
    else (recoverNested, if recoverNested then lexer.nested else none)
  | remaining + 1, cursor, lexer =>
    match lexer.step text delimiter cursor with
    | .found => (true, some cursor)
    | .invalid => (recoverNested, if recoverNested then lexer.nested else none)
    | .next lexer => run text delimiter recoverNested remaining (cursor + 1) lexer

end SelectorLexer

/-- `peak_target_selector_next_delimiter`: whether the text is valid up to there, and the index of
the delimiter. -/
def nextDelimiter (text : Text) (delimiter : Char) (recoverNested : Bool) : Bool × Option ℕ :=
  SelectorLexer.start.run text delimiter recoverNested text.length 0

/-- `peak_target_selector_has_top_level_offset`. Every round goes on after the `+` found. -/
def hasTopLevelOffsetFrom : ℕ → Text → Bool
  | 0, _ => false
  | rounds + 1, text =>
    match nextDelimiter text '+' false with
    | (true, some plus) =>
      if charAt text (plus + 1) = '0' ∧
          (charAt text (plus + 2) = 'x' ∨ charAt text (plus + 2) = 'X') then
        true
      else
        hasTopLevelOffsetFrom rounds (text.drop (plus + 1))
    | _ => false

def hasTopLevelOffset (text : Text) : Bool :=
  hasTopLevelOffsetFrom text.length text

structure Selector where
  moduleName : Option Text
  symbol : Text
deriving DecidableEq

/-- `peak_target_find_module_separator`: the index of the separator, unless the text is invalid. -/
def findModuleSeparator (text : Text) : Option (Option ℕ) :=
  match nextDelimiter text '!' false with
  | (false, _) => none
  | (true, none) => some none
  | (true, some separator) =>
    if nextDelimiter (text.drop (separator + 1)) '!' false = (true, none) then
      some (some separator)
    else
      none

def parseSelector (input : Text) : Option Selector :=
  if input = [] then
    none
  else
    match findModuleSeparator input with
    | none => none
    | some none =>
      if hasTopLevelOffset input then none else some ⟨none, input⟩
    | some (some bang) =>
      if bang = 0 ∨ input.length ≤ bang + 1 then
        none
      else
        let symbol := input.drop (bang + 1)
        if hasTopLevelOffset symbol then none else some ⟨some (input.take bang), symbol⟩

example : parseSelector "libm.so!A<(1>0)>::operator!(A)".toList =
    some ⟨some "libm.so".toList, "A<(1>0)>::operator!(A)".toList⟩ := by
  decide +kernel

example : parseSelector "operator+<int>(int)".toList =
    some ⟨none, "operator+<int>(int)".toList⟩ := by
  decide +kernel

end Peak.Target
