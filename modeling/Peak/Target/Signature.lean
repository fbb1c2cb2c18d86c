import Peak.Target.Syntax

/-!
# Signatures of functions

The comparison of a selector with the demangled name of a function symbol, which may begin with the
return type and have other declarators in it, so that the selector is looked for inside of the name.
The functions are those of `src/general_listener/target_resolver.c` and `src/utils/cxx_utils.cpp`.
-/

namespace Peak.Target

def withoutSpace (text : Text) : Text :=
  text.filter (!asciiIsSpace ·)

def equalNormalized (left right : Text) : Bool :=
  withoutSpace left = withoutSpace right

/-- `strrchr`. -/
def lastIndexOf (char : Char) (text : Text) : Option ℕ :=
  (List.range text.length).reverse.find? fun index => charAt text index = char

def afterLast (char : Char) (text : Text) : Text :=
  match lastIndexOf char text with
  | none => text
  | some index => text.drop (index + 1)

/-- `strstr`. -/
def firstOccurrence (word text : Text) : Option ℕ :=
  (List.range text.length).find? fun index => startsAt text index word

/-- `g_strrstr`. -/
def lastOccurrence (word text : Text) : Option ℕ :=
  (List.range text.length).reverse.find? fun index => startsAt text index word

def isArtificialPrefix (demangled : Text) : Bool :=
  (["non-virtual thunk to ", "virtual thunk to ", "covariant return thunk to ",
      "transaction clone for ", "non-transaction clone for "].any fun artificial =>
    startsAt demangled 0 artificial.toList) ||
    match lastOccurrence " [clone ".toList demangled with
    | none => false
    | some clone =>
      -- the first closing bracket after the name of the clone is the last character
      clone + 8 < demangled.length &&
        (demangled.drop (clone + 8)).findIdx? (· = ']') = some (demangled.length - 1 - (clone + 8))

/-- The opening bracket to the left of the index which closes the given number of brackets. -/
def matchingOpen (opener closer : Char) (text : Text) : ℕ → ℕ → Option ℕ
  | 0, _ => none
  | cursor + 1, depth =>
    if charAt text cursor = closer then
      matchingOpen opener closer text cursor (depth + 1)
    else if charAt text cursor = opener then
      if depth = 1 then some cursor else matchingOpen opener closer text cursor (depth - 1)
    else
      matchingOpen opener closer text cursor depth

def finalParameterOpen (text : Text) : Option ℕ :=
  match lastIndexOf ')' text with
  | none => none
  | some close => matchingOpen '(' ')' text close 1

def stripTemplateSuffix (text : Text) (stop : ℕ) : ℕ :=
  let trimmed := trimEnd asciiIsSpace text stop
  if trimmed = 0 ∨ charAt text (trimmed - 1) ≠ '>' then
    trimmed
  else
    match matchingOpen '<' '>' text (trimmed - 1) 1 with
    | some cursor => trimEnd asciiIsSpace text cursor
    | none => trimmed

def selectorHasFunctionId (text : Text) (stop : ℕ) : Bool :=
  let stripped := stripTemplateSuffix text stop
  (0 < stripped && isWordChar (charAt text (stripped - 1))) ||
    (List.range (stripped + 1 - 8)).any fun cursor =>
      startsAt text cursor operatorWord && wordStartsAt text cursor

/-- `peak_target_selector_is_complete_signature`. The parentheses of a call operator are not its
parameters. -/
def selectorIsCompleteSignature (selector : Text) : Bool :=
  if "operator()".toList.isSuffixOf selector then
    false
  else
    match finalParameterOpen selector with
    | none => false
    | some parameterOpen => selectorHasFunctionId selector parameterOpen

structure Depths where
  parentheses : ℕ
  brackets : ℕ
  braces : ℕ
  templates : ℕ
deriving DecidableEq

namespace Depths

def step (depths : Depths) (char : Char) : Depths :=
  match char with
  | '(' => { depths with parentheses := depths.parentheses + 1 }
  | ')' => { depths with parentheses := depths.parentheses - 1 }
  | '[' => { depths with brackets := depths.brackets + 1 }
  | ']' => { depths with brackets := depths.brackets - 1 }
  | '{' => { depths with braces := depths.braces + 1 }
  | '}' => { depths with braces := depths.braces - 1 }
  | '<' => { depths with templates := depths.templates + 1 }
  | '>' => { depths with templates := depths.templates - 1 }
  | _ => depths

def atTopLevel (depths : Depths) : Bool :=
  depths = ⟨0, 0, 0, 0⟩

end Depths

/-- The last index below the bound with the property which is outside of all brackets. -/
def lastTopLevel (test : ℕ → Bool) (text : Text) (bound : ℕ) : Option ℕ :=
  ((List.range bound).foldl (fun (depths, result) cursor =>
    let depths := depths.step (charAt text cursor)
    (depths, if depths.atTopLevel && test cursor then some cursor else result))
    ((⟨0, 0, 0, 0⟩ : Depths), (none : Option ℕ))).2

def lastTopLevelSpace (text : Text) (stop : ℕ) : Option ℕ :=
  lastTopLevel (fun cursor => asciiIsSpace (charAt text cursor)) text stop

def lastTopLevelOperator (text : Text) (stop : ℕ) : Option ℕ :=
  lastTopLevel (fun cursor =>
    startsAt text cursor operatorWord && wordStartsAt text cursor &&
      (cursor + 8 = stop || !isWordChar (charAt text (cursor + 8)))) text (stop + 1 - 8)

def demangledFunctionStart (text : Text) : ℕ :=
  match finalParameterOpen text with
  | none => 0
  | some parameterOpen =>
    match lastTopLevelSpace text ((lastTopLevelOperator text parameterOpen).getD parameterOpen)
      with
    | none => 0
    | some space => space + 1

def declaratorBoundary (text : Text) (cursor : ℕ) : Bool :=
  cursor = 0 || asciiIsSpace (charAt text (cursor - 1)) ||
    (charAt text (cursor - 1) = '*' &&
      (cursor = 1 || charAt text (cursor - 2) = '(' || charAt text (cursor - 2) = ':')) ||
    (charAt text (cursor - 1) = '&' && (cursor = 1 || charAt text (cursor - 2) = '('))

/-- `peak_target_normalized_prefix_end`: the index after the selector, which occurs at the index up
to spaces. -/
def normalizedPrefixEnd (text : Text) : Text → ℕ → Option ℕ
  | [], candidate => some candidate
  | char :: selector, candidate =>
    let next := skipSpace asciiIsSpace text candidate
    if charAt text next ≠ char then none else normalizedPrefixEnd text selector (next + 1)

def functionSignatureEndsAt (text : Text) (index : ℕ) : Bool :=
  let next := charAt text (skipSpace asciiIsSpace text index)
  next = '\x00' || next = ')'

def parenthesisIntroducesPointer (text : Text) (cursor : ℕ) : Bool :=
  let lookahead := skipSpace asciiIsSpace text (cursor + 1)
  charAt text lookahead = '*' || charAt text lookahead = '&' ||
    (List.range ((text.drop lookahead).takeWhile fun char => char ≠ '(' ∧ char ≠ ')').length).any
      fun offset => startsAt text (lookahead + offset) "::*".toList

structure DemangledFrame where
  closer : Char
  id : ℕ
  pointerDeclarator : Bool
  operatorContinuation : Bool

structure AngleDelimiter where
  frame : ℕ
  operatorContinuation : Bool

/-- The variables of `peak_target_demangled_contains_name_only_selector`. The last frame and angle
come first, the outermost frame is kept apart. -/
structure DemangledScan where
  outermost : DemangledFrame
  frames : List DemangledFrame
  angles : List AngleDelimiter
  nextFrame : ℕ

namespace DemangledScan

def start : DemangledScan where
  outermost :=
    { closer := '\x00', id := 0, pointerDeclarator := false, operatorContinuation := false }
  frames := []
  angles := []
  nextFrame := 1

variable (scan : DemangledScan)

def frame : DemangledFrame :=
  scan.frames.head?.getD scan.outermost

def angle : Option AngleDelimiter :=
  scan.angles.head?.filter (·.frame = scan.frame.id)

def operatorContinuationActive : Bool :=
  match scan.angle with
  | some angle => angle.operatorContinuation
  | none => scan.frame.operatorContinuation

def setOperatorContinuation : DemangledScan :=
  if scan.angle.isSome then
    { scan with angles := scan.angles.modifyHead ({ · with operatorContinuation := true }) }
  else if scan.frames.isEmpty then
    { scan with outermost := { scan.outermost with operatorContinuation := true } }
  else
    { scan with frames := scan.frames.modifyHead ({ · with operatorContinuation := true }) }

def functionDeclarator : Bool :=
  scan.angles.isEmpty && scan.frames.all (·.pointerDeclarator)

def openFrame (text : Text) (cursor : ℕ) (opener : Char) : DemangledScan :=
  { scan with
    frames :=
      { closer := if opener = '(' then ')' else if opener = '[' then ']' else '}'
        id := scan.nextFrame
        pointerDeclarator := opener = '(' && parenthesisIntroducesPointer text cursor
        operatorContinuation := false } :: scan.frames
    nextFrame := scan.nextFrame + 1 }

def closeFrame (closer : Char) : DemangledScan :=
  match scan.frames with
  | [] => scan
  | current :: frames =>
    if closer ≠ current.closer then
      scan
    else
      { scan with
        frames := frames
        angles := scan.angles.dropWhile (·.frame = current.id) }

def bracket (text : Text) (cursor : ℕ) : DemangledScan :=
  let char := charAt text cursor
  if char ∈ ['(', '[', '{'] then
    scan.openFrame text cursor char
  else if char ∈ [')', ']', '}'] then
    scan.closeFrame char
  else if char = '<' then
    if operatorPunctuationAt asciiIsSpace text cursor then scan
    else { scan with angles := ⟨scan.frame.id, false⟩ :: scan.angles }
  else if char = '>' ∧ !operatorPunctuationAt asciiIsSpace text cursor then
    if scan.angle.isSome then { scan with angles := scan.angles.tail } else scan
  else
    scan

def operatorWordAt (text : Text) (cursor : ℕ) : Bool :=
  startsAt text cursor operatorWord && wordStartsAt text cursor &&
    !isWordChar (charAt text (cursor + 8))

/-- The selector, without spaces, names the function of the declarator at the index. -/
def matchesAt (selector text : Text) (cursor : ℕ) : Bool :=
  scan.functionDeclarator && declaratorBoundary text cursor && !scan.operatorContinuationActive &&
    (normalizedPrefixEnd text selector cursor).any (functionSignatureEndsAt text)

def run (selector text : Text) : ℕ → ℕ → DemangledScan → Bool
  | 0, _, _ => false
  | remaining + 1, cursor, scan =>
    if scan.matchesAt selector text cursor then
      true
    else
      let scan := scan.bracket text cursor
      run selector text remaining (cursor + 1)
        (if operatorWordAt text cursor then scan.setOperatorContinuation else scan)

end DemangledScan

def demangledContainsNameOnlySelector (selector demangled : Text) : Bool :=
  DemangledScan.start.run (withoutSpace selector) demangled demangled.length 0

def fullSignatureMatches (selector demangled : Text) : Bool :=
  if equalNormalized selector demangled then
    true
  else if isArtificialPrefix demangled then
    false
  else if !selectorIsCompleteSignature selector then
    false
  else if demangledFunctionStart selector ≠ 0 then
    false
  else
    demangledContainsNameOnlySelector selector demangled

def withoutFinalParameters (demangled : Text) : Text :=
  match finalParameterOpen demangled with
  | none => demangled
  | some parameterOpen => demangled.take parameterOpen

/-- `removeParameterList`. Without a matching parenthesis nothing is left. -/
def removeParameterList (text : Text) : Text :=
  if lastIndexOf ')' text = none then text else text.take ((finalParameterOpen text).getD 0)

def removeTrailingTemplateArgs (text : Text) : Text :=
  if text = [] ∨ charAt text (text.length - 1) ≠ '>' then
    text
  else
    match matchingOpen '<' '>' text (text.length - 1) 1 with
    | none => text
    | some cursor => text.take cursor

def extractFunctionName (demangled : Text) : Text :=
  afterLast ':' (afterLast ' ' (removeTrailingTemplateArgs (removeParameterList demangled)))

/-- The identifiers of a signature that are followed by `<` or `(`, with the identifier that is
being read. -/
def identifierKeysFrom : Option Text → Text → List Text
  | _, [] => []
  | none, char :: rest =>
    identifierKeysFrom (if isAlpha char || char = '_' then some [char] else none) rest
  | some identifier, char :: rest =>
    if isWordChar char then
      identifierKeysFrom (some (identifier ++ [char])) rest
    else if char = '<' || char = '(' then
      identifier :: identifierKeysFrom none rest
    else
      identifierKeysFrom none rest

/-- The keys of `peak_target_batch_add_signature_keys`. -/
def identifierKeys (signature : Text) : List Text :=
  identifierKeysFrom none signature

/-- `peak_target_full_function_id`: from the first `operator` to a parenthesis, or the last
identifier before a bracket. -/
def fullFunctionId (signature : Text) : Text :=
  match firstOccurrence operatorWord signature with
  | some word => withoutSpace ((signature.drop word).takeWhile (· ≠ '('))
  | none => (identifierKeys signature).getLast?.getD (extractFunctionName signature)

example : fullSignatureMatches "f<int>(char)".toList "A* (*f<int>(char))()".toList = true := by
  decide +kernel

example : extractFunctionName "void a::f<b<int> >(int (*)(int)) const".toList = "f".toList := by
  decide +kernel

example : fullFunctionId "A a::operator << <int>(A)".toList = "operator<<<int>".toList := by
  decide +kernel

end Peak.Target
