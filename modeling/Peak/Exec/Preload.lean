import Peak.Common.Tokens
import Peak.Exec.Entry

/-!
# The value of `LD_PRELOAD`

The values of all entries for `LD_PRELOAD` are joined, and their tokens are written behind the path
of PEAK's own library, except for those that name the same file. The sizes of the buffers are
computed before.
-/

namespace Peak.Exec

open Fallible List Tokens Buffer

/-- The files to which paths lead, where `stat` gives the device and the inode. -/
structure FileSystem where
  realpath : Text → Option Text
  stat : Text → Option (ℕ × ℕ)

namespace FileSystem

variable (files : FileSystem)

def realpathOrDup (path : Text) : Text :=
  (files.realpath path).getD path

def tokenIsSameFile (libpeakPath token : Text) : Bool :=
  if token = [] then
    false
  else if token = libpeakPath then
    true
  else if files.realpathOrDup token = libpeakPath then
    true
  else
    match files.stat token, files.stat libpeakPath with
    | some tokenStat, some libStat => tokenStat = libStat
    | _, _ => false

end FileSystem

def tokensOf (value : Text) : List Text :=
  tokens isSeparator value

namespace FileSystem

variable (files : FileSystem)

def preloadContainsLibpeak (value : Option Text) (libpeakPath : Text) : Bool :=
  value.any fun value => (tokensOf value).any (files.tokenIsSameFile libpeakPath)

end FileSystem

/-- The first loop of `peak_exec_env_join_values`: the length and the number of the values. -/
def measureValues (env : List Text) (name : Text) : Except BuildError (ℕ × ℕ) :=
  env.foldlM (fun (total, count) entry =>
    if !entryMatches name entry || valueOf entry = [] then
      pure (total, count)
    else do
      let total ← sizeAdd total (valueOf entry).length
      if count = sizeMax then throw .tooBig else pure (total, count + 1)) (0, 0)

def writeColon (joined : Buffer Char) : Except BuildError (Buffer Char) :=
  if joined.items.length = 0 then
    pure joined
  else if joined.capacity ≤ joined.items.length + 1 then
    throw .noRoom
  else
    joined.write .outOfBounds [':']

/-- A round of the second loop of `peak_exec_env_join_values`. -/
def writeValue (name : Text) (joined : Buffer Char) (entry : Text) :
    Except BuildError (Buffer Char) :=
  if !entryMatches name entry || valueOf entry = [] then
    pure joined
  else do
    let joined ← writeColon joined
    if joined.capacity ≤ joined.items.length ∨
        joined.capacity - joined.items.length ≤ (valueOf entry).length then
      throw .noRoom
    else
      joined.write .outOfBounds (valueOf entry)

/-- `peak_exec_env_join_values`. Without an entry for the name there is no value. -/
def envJoinValues (env : List Text) (name : Text) : Except BuildError (Option Text) := do
  let (total, count) ← measureValues env name
  if envNameCount env name = 0 then
    pure none
  else do
    let allocationSize ← sizeAdd total (if 0 < count then count else 1)
    let joined ← env.foldlM (writeValue name) (allocate allocationSize)
    if joined.capacity ≤ joined.items.length then
      throw .noRoom
    else do
      let joined ← joined.terminate .outOfBounds
      pure (some joined.items)

def reserve (output : Buffer Char) (required tokenLen : ℕ) : Except BuildError (Buffer Char) :=
  if output.capacity < required then do
    let doubled ← sizeMul output.capacity 2
    let newCapacity ← sizeAdd doubled tokenLen
    let newCapacity ← sizeAdd newCapacity 2
    pure (output.resize (if newCapacity < required then required else newCapacity))
  else
    pure output

/-- A round of the loop of `peak_exec_build_ld_preload`. -/
def appendToken (isSameFile : Text → Bool) (output : Buffer Char) (token : Text) :
    Except BuildError (Buffer Char) :=
  if isSameFile token then
    pure output
  else do
    let required ← sizeAdd output.items.length token.length
    let required ← sizeAdd required 2
    let output ← reserve output required token.length
    let output ← output.write .outOfBounds [':']
    let output ← output.write .outOfBounds token
    output.terminate .outOfBounds

/-- `peak_exec_build_ld_preload`. The result is the new value, and whether it differs. -/
def FileSystem.buildLdPreload (files : FileSystem) (existing : Option Text) (libpeakPath : Text) :
    Except BuildError (Text × Bool) :=
  if libpeakPath = [] then
    throw .einval
  else do
    let capacity ← sizeAdd libpeakPath.length ((existing.map length).getD 0)
    let capacity ← sizeAdd capacity 2
    let output ← (allocate capacity).write .outOfBounds libpeakPath
    let output ← output.terminate .outOfBounds
    let output ← (tokensOf (existing.getD [])).foldlM
      (appendToken (files.tokenIsSameFile libpeakPath)) output
    pure (output.items, existing ≠ some output.items)

def nonemptyValues (name : Text) (env : List Text) : List Text :=
  ((env.filter (entryMatches name)).map valueOf).filter (· ≠ [])

def joinedValue (name : Text) (env : List Text) : Text :=
  [':'].intercalate (nonemptyValues name env)

section

variable {name entry : Text} {env processed later : List Text}

theorem nonemptyValues_append (left right : List Text) :
    nonemptyValues name (left ++ right) =
      nonemptyValues name left ++ nonemptyValues name right := by
  simp only [nonemptyValues, filter_append, map_append]

theorem nonemptyValues_singleton_of_skip
    (skipped : !entryMatches name entry || valueOf entry = []) :
    nonemptyValues name [entry] = [] := by
  simp only [Bool.or_eq_true, Bool.not_eq_true', decide_eq_true_eq] at skipped
  rcases skipped with other | empty
  · simp [nonemptyValues, other]
  · cases isMatch : entryMatches name entry <;> simp [nonemptyValues, empty]

theorem nonemptyValues_singleton (taken : ¬ (!entryMatches name entry || valueOf entry = [])) :
    nonemptyValues name [entry] = [valueOf entry] := by
  simp only [Bool.or_eq_true, Bool.not_eq_true', not_or] at taken
  simp [nonemptyValues, taken.1, taken.2]

variable (env : List Text)

theorem meets_measureValues (name : Text) :
    Meets Expected (measureValues env name)
      (· = ((nonemptyValues name env).flatten.length, (nonemptyValues name env).length)) := by
  apply meets_foldlM (fun processed sizes => sizes =
    ((nonemptyValues name processed).flatten.length, (nonemptyValues name processed).length)) env
  · rfl
  rintro processed entry later _ _ rfl
  apply meets_ite
  · intro skipped
    rw [nonemptyValues_append, nonemptyValues_singleton_of_skip skipped, append_nil]
    exact meets_pure rfl
  · intro taken
    rw [nonemptyValues_append, nonemptyValues_singleton taken]
    apply (meets_sizeAdd _ _).bind
    rintro _ rfl
    apply meets_ite
    · exact fun _ => meets_throw expected_tooBig
    · intro _
      apply meets_pure
      simp

theorem meets_writeColon {joined : Buffer Char} {values : List Text}
    (nonempty : ∀ value ∈ values, value ≠ []) (isJoined : joined.items = [':'].intercalate values)
    (room : joined.items.length + 1 < joined.capacity) :
    Meets Expected (writeColon joined) fun after =>
      after.capacity = joined.capacity ∧
        after.items.length = values.flatten.length + values.length ∧
        ∀ value, after.items ++ value = [':'].intercalate (values ++ [value]) := by
  rw [writeColon]
  cases values with
  | nil =>
    have empty : joined.items = [] := isJoined
    rw [if_pos (by rw [empty]; rfl)]
    refine meets_pure ⟨rfl, by rw [empty]; rfl, ?_⟩
    intro value
    simp [empty]
  | cons first values =>
    have length := length_intercalate ':' (cons_ne_nil first values)
    have positive : first.length ≠ 0 := by simpa using nonempty first (by simp)
    rw [← isJoined, flatten_cons, length_append, length_cons] at length
    rw [if_neg (by omega), if_neg (by omega)]
    apply (meets_write room.le).mono
    rintro after ⟨capacity, items⟩
    refine ⟨capacity, ?_, ?_⟩
    · rw [items, length_append, flatten_cons, length_append, length_cons]
      exact length
    · intro value
      rw [items, isJoined, intercalate_concat _ (cons_ne_nil first values)]

theorem meets_writeValue {joined : Buffer Char} {values rest : List Text}
    (nonempty : ∀ value ∈ values, value ≠ []) (isJoined : joined.items = [':'].intercalate values)
    (taken : ¬ (!entryMatches name entry || valueOf entry = []))
    (capacity : joined.capacity = (values ++ valueOf entry :: rest).flatten.length +
      (values ++ valueOf entry :: rest).length) :
    Meets Expected (writeValue name joined entry) fun after =>
      after.capacity = joined.capacity ∧
        after.items = [':'].intercalate (values ++ [valueOf entry]) := by
  have positive : (valueOf entry).length ≠ 0 := by
    simp only [Bool.or_eq_true, not_or] at taken
    simpa using taken.2
  simp only [flatten_append, flatten_cons, length_append, length_cons] at capacity
  have room : joined.items.length + 1 < joined.capacity := by
    cases values with
    | nil =>
      have empty : joined.items = [] := isJoined
      simp only [empty] at capacity ⊢
      omega
    | cons first values =>
      have length := length_intercalate ':' (cons_ne_nil first values)
      rw [← isJoined] at length
      omega
  rw [writeValue, if_neg taken]
  apply (meets_writeColon nonempty isJoined room).bind
  rintro colon ⟨sameCapacity, _, joins⟩
  rw [if_neg (by omega)]
  apply (meets_write (by omega)).mono
  rintro after ⟨afterCapacity, items⟩
  exact ⟨afterCapacity.trans sameCapacity, by rw [items, joins]⟩

theorem meets_writeValues {size : ℕ}
    (isSize : nonemptyValues name env ≠ [] → size =
      (nonemptyValues name env).flatten.length + (nonemptyValues name env).length) :
    Meets Expected (env.foldlM (writeValue name) (allocate size)) fun joined =>
      joined.capacity = size ∧ joined.items = joinedValue name env := by
  apply meets_foldlM (fun processed (joined : Buffer Char) =>
    joined.capacity = size ∧ joined.items = joinedValue name processed) env
  · exact ⟨rfl, rfl⟩
  rintro processed entry later joined rfl ⟨capacity, items⟩
  by_cases skipped : !entryMatches name entry || valueOf entry = []
  · rw [writeValue, if_pos skipped, joinedValue, nonemptyValues_append,
      nonemptyValues_singleton_of_skip skipped, append_nil]
    exact meets_pure ⟨capacity, items⟩
  · have split : nonemptyValues name (processed ++ entry :: later) =
        nonemptyValues name processed ++ valueOf entry :: nonemptyValues name later := by
      rw [append_cons, nonemptyValues_append, nonemptyValues_append,
        nonemptyValues_singleton skipped, append_assoc, singleton_append]
    rw [split] at isSize
    have written := meets_writeValue (fun _ isValue => by simpa using (mem_filter.mp isValue).2)
      items skipped (capacity.trans (isSize (by simp)))
    apply written.mono
    rintro after ⟨sameCapacity, joins⟩
    refine ⟨sameCapacity.trans capacity, ?_⟩
    rw [joins, joinedValue, nonemptyValues_append, nonemptyValues_singleton skipped]

theorem meets_envJoinValues (name : Text) :
    Meets Expected (envJoinValues env name)
      (· = if envNameCount env name = 0 then none else some (joinedValue name env)) := by
  apply (meets_measureValues env name).bind
  rintro _ rfl
  apply meets_ite
  · intro absent
    rw [if_pos absent]
    exact meets_pure rfl
  · intro present
    rw [if_neg present]
    apply (meets_sizeAdd _ _).bind
    rintro _ rfl
    apply (meets_writeValues env ?_).bind
    · rintro joined ⟨capacity, items⟩
      have room : joined.items.length < joined.capacity := by
        rw [capacity, items, joinedValue]
        by_cases empty : nonemptyValues name env = []
        · simp [empty]
        · have length := length_intercalate ':' empty
          rw [if_pos (length_pos_of_ne_nil empty)]
          omega
      rw [if_neg (Nat.not_le_of_lt room)]
      apply (meets_terminate room).bind
      rintro _ rfl
      exact meets_pure (congrArg some items)
    · intro nonempty
      rw [if_pos (length_pos_of_ne_nil nonempty)]

end

section

variable {isSameFile : Text → Bool} {output : Buffer Char} {token : Text}

theorem meets_reserve {required tokenLen : ℕ} (holds : output.items.length ≤ required) :
    Meets Expected (reserve output required tokenLen) fun after =>
      after.items = output.items ∧ required ≤ after.capacity := by
  apply meets_ite
  · intro _
    apply (meets_sizeMul _ _).bind
    rintro _ rfl
    apply (meets_sizeAdd _ _).bind
    rintro _ rfl
    apply (meets_sizeAdd _ _).bind
    rintro newCapacity _
    apply meets_pure
    have enough : required ≤ (if newCapacity < required then required else newCapacity) := by
      split <;> omega
    exact ⟨take_of_length_le (holds.trans enough), enough⟩
  · intro large
    exact meets_pure ⟨rfl, Nat.le_of_not_lt large⟩

theorem meets_appendToken :
    Meets Expected (appendToken isSameFile output token) fun after =>
      after.items = if isSameFile token then output.items else output.items ++ [':'] ++ token := by
  apply meets_ite
  · intro same
    rw [if_pos same]
    exact meets_pure rfl
  · intro other
    rw [if_neg other]
    apply (meets_sizeAdd _ _).bind
    rintro _ rfl
    apply (meets_sizeAdd _ _).bind
    rintro _ rfl
    apply (meets_reserve (by omega)).bind
    rintro larger ⟨items, room⟩
    rw [← items] at room
    apply (meets_write (by simp only [length_cons, length_nil]; omega)).bind
    rintro colon ⟨_, colonItems⟩
    have colonLength : colon.items.length = larger.items.length + 1 := by rw [colonItems]; simp
    apply (meets_write (by omega)).bind
    rintro written ⟨_, writtenItems⟩
    have writtenLength : written.items.length = colon.items.length + token.length := by
      rw [writtenItems, length_append]
    apply (meets_terminate (by omega)).mono
    rintro _ rfl
    rw [writtenItems, colonItems, items]

end

namespace FileSystem

variable (files : FileSystem) (libpeakPath : Text)

def otherTokens (value : Text) : List Text :=
  (tokensOf value).filter (!files.tokenIsSameFile libpeakPath ·)

def rebuiltValue (value : Text) : Text :=
  [':'].intercalate (libpeakPath :: files.otherTokens libpeakPath value)

variable {files libpeakPath}

theorem meets_appendTokens {start : Buffer Char} (items : start.items = libpeakPath)
    (value : Text) :
    Meets Expected ((tokensOf value).foldlM (appendToken (files.tokenIsSameFile libpeakPath)) start)
      fun output => output.items = files.rebuiltValue libpeakPath value := by
  apply meets_foldlM (fun processed (output : Buffer Char) => output.items =
    [':'].intercalate (libpeakPath ::
      processed.filter (!files.tokenIsSameFile libpeakPath ·))) (tokensOf value)
  · rw [items, filter_nil]
    simp
  intro processed token later output _ isJoined
  apply meets_appendToken.mono
  intro after isAfter
  rw [isAfter, filter_append]
  by_cases same : files.tokenIsSameFile libpeakPath token
  · rw [if_pos same, isJoined]
    simp [same]
  · rw [if_neg same, isJoined, filter_cons_of_pos (by simpa using same), filter_nil,
      ← cons_append, intercalate_concat _ (cons_ne_nil _ _)]

theorem meets_buildLdPreload {existing : Option Text} (isPath : libpeakPath ≠ []) :
    Meets Expected (files.buildLdPreload existing libpeakPath)
      (· = (files.rebuiltValue libpeakPath (existing.getD []),
        decide (existing ≠ some (files.rebuiltValue libpeakPath (existing.getD []))))) := by
  unfold buildLdPreload
  rw [if_neg isPath]
  apply (meets_sizeAdd _ _).bind
  rintro _ rfl
  apply (meets_sizeAdd _ _).bind
  rintro size isSize
  apply meets_fill (by omega)
  intro start isStart
  apply (meets_appendTokens isStart (existing.getD [])).bind
  intro output isOutput
  rw [isOutput]
  exact meets_pure rfl

theorem tokensOf_joinedValue (name : Text) (env : List Text) :
    tokensOf (joinedValue name env) =
      (env.filter (entryMatches name)).flatMap fun entry => tokensOf (valueOf entry) := by
  have skip : ∀ values : List Text,
      (values.filter (· ≠ [])).flatMap tokensOf = values.flatMap tokensOf := by
    intro values
    induction values with
    | nil => rfl
    | cons value _ ih =>
      by_cases empty : value = []
      · rw [filter_cons_of_neg (by simpa using empty), ih, empty]
        rfl
      · rw [filter_cons_of_pos (by simpa using empty), flatMap_cons, ih, flatMap_cons]
  rw [joinedValue, tokensOf, tokens_intercalate (by decide)]
  exact (skip _).trans (flatMap_map valueOf tokensOf _)

theorem tokensOf_rebuiltValue (isPath : libpeakPath ≠ [])
    (free : ∀ char ∈ libpeakPath, isSeparator char = false) (value : Text) :
    tokensOf (files.rebuiltValue libpeakPath value) =
      libpeakPath :: files.otherTokens libpeakPath value := by
  apply tokens_intercalate_tokens (by decide)
  · rw [forall_mem_cons]
    exact ⟨isPath, fun token isToken =>
      ne_nil_of_mem_tokens (mem_filter.mp isToken).1⟩
  · rw [forall_mem_cons]
    exact ⟨free, fun token isToken =>
      not_separator_of_mem_tokens (mem_filter.mp isToken).1⟩

end FileSystem

end Peak.Exec
