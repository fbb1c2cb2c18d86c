import Peak.Exec.Injection

/-!
# When the library is preloaded

The environment is the intended one if and only if two conditions hold. The path of the library
contains no separator, as the loader would take it apart. And if the joined value of `LD_PRELOAD` is
already the intended one, its tokens stand in the first entry for this name.
-/

namespace Peak.Exec

open Fallible List FileSystem

namespace Surroundings

variable {process : Surroundings} {env : List Text} {propagate : Bool} {preload : Preload}
  {libpeakPath : Text}

def existingValue (env : List Text) : Option Text :=
  if envNameCount env ldPreload = 0 then none else some (joinedValue ldPreload env)

structure Injectable (process : Surroundings) (libpeakPath : Text) (env : List Text) : Prop where
  whole : ∀ char ∈ libpeakPath, isSeparator char = false
  first : existingValue env =
      some (process.files.rebuiltValue libpeakPath (joinedValue ldPreload env)) →
    ∀ entry, env.find? isPreload = some entry → tokensOf (valueOf entry) = preloadTokens env

theorem envNameCount_ldPreload : envNameCount env ldPreload = 0 ↔ env.any isPreload = false := by
  rw [envNameCount_eq_zero, any_eq_false]
  rfl

theorem isPreload_writtenEntry (written : env.any isPreload = false → preload.changed) :
    isPreload (preload.writtenEntry env) := by
  unfold Preload.writtenEntry
  split
  · exact isPreload_append_cons _
  next unchanged =>
    cases isFirst : env.find? isPreload with
    | none =>
      rw [find?_eq_none] at isFirst
      exact absurd (written (any_eq_false.mpr isFirst)) unchanged
    | some => exact find?_some isFirst

variable {envCapacity ownedCapacity : ℕ} {built : ExecEnv}

theorem meets_addPreload (touches : preload.shouldTouch)
    (written : env.any isPreload = false → preload.changed)
    (room : env.length + (if env.any isPreload then 0 else 1) < envCapacity)
    (ownedRoom : preload.changed → 0 < ownedCapacity) (filled : Filled envCapacity ownedCapacity
      (if env.any isPreload then [preload.writtenEntry env] else []) (env.filter (!isPreload ·))
      (if preload.changed && env.any isPreload then 1 else 0) built) :
    Meets Expected (addPreload env preload built)
      (Filled envCapacity ownedCapacity [preload.writtenEntry env] (env.filter (!isPreload ·))
        (if preload.changed then 1 else 0)) := by
  unfold addPreload
  by_cases present : env.any isPreload
  · have notAdded : ¬ (preload.shouldTouch && decide (envNameCount env ldPreload = 0)) := by
      simp [envNameCount_ldPreload, present]
    rw [if_neg notAdded]
    apply meets_pure
    simpa [present] using filled
  · rw [Bool.not_eq_true] at present
    have isAdded : (preload.shouldTouch && decide (envNameCount env ldPreload = 0)) := by
      simp [touches, envNameCount_ldPreload, present]
    have changed := written present
    have lengths := length_ite_add_le (preload.writtenEntry env) env
    rw [if_pos isAdded]
    simp only [present, Bool.and_false, Bool.false_eq_true, if_false] at filled lengths room
    apply (meets_writePreload filled (by omega) (ownedRoom changed) _).mono
    intro after filled
    simpa [changed, Preload.writtenEntry] using filled

variable {libraryPath : Option Text}

theorem envHasName_of_head
    (isLibraryPath : ∀ entry ∈ libraryPath, ∃ value, entry = ldLibraryPath ++ '=' :: value)
    (written : env.any isPreload = false → preload.changed) :
    ∀ entry ∈ [preload.writtenEntry env] ++ (env.filter (!isPreload ·) ++ libraryPath.toList),
      ∀ name, definedName entry = some name → name.head? = some 'P' → envHasName env name := by
  intro entry isEntry name isName head
  rcases mem_append.mp isEntry with isWritten | isOther
  · rw [mem_singleton] at isWritten
    subst isWritten
    have isPreloadEntry := isPreload_writtenEntry written
    rw [isPreload_of_head isName head] at isPreloadEntry
    cases isPreloadEntry
  rcases mem_append.mp isOther with isKept | isAdded
  · exact envHasName_iff.mpr ⟨entry, (mem_filter.mp isKept).1, isName⟩
  · rcases isLibraryPath entry (by simpa using isAdded) with ⟨_, rfl⟩
    rw [definedName_append_cons (by decide) (by decide)] at isName
    cases isName
    exact absurd head (by decide)

theorem length_filter_lt (env : List Text) :
    1 + (env.filter (!isPreload ·)).length ≤ env.length + (if env.any isPreload then 0 else 1) := by
  have lengths := length_ite_add_le [] env
  by_cases present : env.any isPreload
  · simpa [present] using lengths
  · simp only [present, Bool.false_eq_true, if_false] at lengths ⊢
    omega

theorem meets_addLibraryPath {owned : ℕ} {preloads others : List Text}
    (isLibraryPath : ∀ entry ∈ libraryPath, ∃ value, entry = ldLibraryPath ++ '=' :: value)
    (filled : Filled envCapacity ownedCapacity preloads others owned built)
    (room : libraryPath.isSome → preloads.length + others.length + 1 < envCapacity) :
    Meets Expected (addLibraryPath libraryPath built)
      (Filled envCapacity ownedCapacity preloads (others ++ libraryPath.toList) owned) := by
  cases libraryPath with
  | none => exact meets_pure (by simpa using filled)
  | some entry =>
    rcases isLibraryPath entry rfl with ⟨value, rfl⟩
    apply (meets_copyEntry filled (room rfl) _).bind
    intro after filled
    apply meets_pure
    have other := isPreload_libraryPath value
    simpa [other] using filled.markChanged

theorem meets_addMissing {owned : ℕ} {preloads others : List Text}
    (filled : Filled envCapacity ownedCapacity preloads others owned built)
    (clear : ∀ entry ∈ preloads ++ others, ∀ name, definedName entry = some name →
      name.head? = some 'P' → envHasName env name) (room : preloads.length + others.length +
      (if propagate then process.environ.countP (isMissing env) else 0) < envCapacity)
    (ownedRoom : owned + (if propagate then process.environ.countP (isMissing env) else 0) ≤
      ownedCapacity) :
    Meets Expected (process.addMissing env propagate built)
      fun after => after.envp.items.length < after.envp.capacity ∧
        after.envp.items.filter isPreload = preloads ∧
        after.envp.items.filter (!isPreload ·) =
          others ++ (if propagate then missingEntries process.environ env else []) := by
  cases propagate with
  | false =>
    refine meets_pure ⟨?_, filled.preloads, by simpa using filled.others⟩
    rw [filled.length, filled.envCapacity]
    exact room
  | true =>
    simp only [if_true] at room ownedRoom ⊢
    apply (meets_appendMissingPeakEnv filled clear room ownedRoom).mono
    intro after filled
    refine ⟨?_, filled.preloads, filled.others⟩
    have few := length_missingEntries_le process.environ env
    rw [filled.length, filled.envCapacity, length_append]
    omega

theorem meets_fillEnv {missing : ℕ} (touches : preload.shouldTouch)
    (written : env.any isPreload = false → preload.changed)
    (isLibraryPath : ∀ entry ∈ libraryPath, ∃ value, entry = ldLibraryPath ++ '=' :: value)
    (isMissingCount : missing = if propagate then process.environ.countP (isMissing env) else 0) :
    Meets Expected (process.fillEnv env propagate preload libraryPath missing) fun built =>
      built.envp.items.filter isPreload = [preload.writtenEntry env] ∧
        built.envp.items.filter (!isPreload ·) = env.filter (!isPreload ·) ++ libraryPath.toList ++
          (if propagate then missingEntries process.environ env else []) := by
  have addsPreload : (if preload.shouldTouch && decide (envNameCount env ldPreload = 0) then 1
      else 0) = if env.any isPreload then 0 else 1 := by
    by_cases present : env.any isPreload <;> simp [touches, envNameCount_ldPreload, present]
  have lengths := length_filter_lt env
  apply (meets_sizeAdd _ _).bind
  intro extra isExtra
  apply (meets_sizeAdd _ _).bind
  rintro _ rfl
  apply (meets_sizeAdd _ _).bind
  intro envCapacity isCapacity
  apply (meets_sizeAdd _ _).bind
  intro ownedCapacity isOwned
  have ownedRoom : preload.changed → 0 < ownedCapacity := by
    intro changed
    simp only [touches, changed, Bool.and_self, if_true] at isOwned
    omega
  apply (meets_copyBaseEntries touches (by omega) ownedRoom).bind
  rintro ⟨_, _⟩ ⟨_, filled⟩
  apply (meets_addPreload touches written (by omega) ownedRoom filled).bind
  intro withPreload filled
  apply (meets_addLibraryPath isLibraryPath filled ?_).bind
  · intro withLibraryPath filled
    apply (meets_addMissing filled (envHasName_of_head isLibraryPath written) ?_ ?_).bind
    · rintro after ⟨room, preloads, others⟩
      rw [if_neg (Nat.not_le_of_lt room)]
      apply (Buffer.meets_terminate room).bind
      rintro _ rfl
      exact meets_pure ⟨preloads, others⟩
    · rw [← isMissingCount, length_singleton, length_append]
      have one : libraryPath.toList.length = if libraryPath.isSome then 1 else 0 := by
        cases libraryPath <;> rfl
      omega
    · simp only [touches, Bool.true_and] at isOwned
      omega
  · intro isSome
    rw [isSome, if_pos rfl] at isExtra
    rw [length_singleton]
    omega

def intendedValue (process : Surroundings) (libpeakPath : Text) (env : List Text) : Text :=
  process.files.rebuiltValue libpeakPath ((existingValue env).getD [])

def intendedPreload (process : Surroundings) (libpeakPath : Text) (env : List Text) : Preload where
  shouldTouch := true
  value := process.intendedValue libpeakPath env
  changed := existingValue env ≠ some (process.intendedValue libpeakPath env)
  alreadyPresent := process.files.preloadContainsLibpeak (existingValue env) libpeakPath

theorem meets_existingPreload (env : List Text) :
    Meets Expected (existingPreload env) fun existing =>
      existing = none ∨ existing = existingValue env := by
  unfold existingPreload
  have joined := meets_envJoinValues env ldPreload
  cases joins : envJoinValues env ldPreload with
  | error error =>
    have expected := joined.of_error joins
    cases error with
    | outOfBounds => exact absurd rfl expected.1
    | _ => exact meets_pure (.inl rfl)
  | ok => exact meets_pure (.inr (joined.of_ok joins))

theorem meets_preparePreload (isPath : process.libpeakPath = some libpeakPath)
    (insecure : process.secure = false) (wanted : process.shouldInjectLibpeak env) :
    Meets Expected (process.preparePreload env) (· = process.intendedPreload libpeakPath env) := by
  have nonempty : libpeakPath ≠ [] := by
    rintro rfl
    simp [shouldInjectLibpeak, isPath] at wanted
  unfold preparePreload
  rw [isPath]
  simp only [insecure, wanted]
  apply (meets_existingPreload env).bind
  intro existing isExisting
  apply meets_ite
  · exact fun _ => meets_throw ⟨by simp, by simp⟩
  intro joined
  obtain rfl : existing = existingValue env := by
    rcases isExisting with rfl | same
    · rw [existingValue, if_pos (by simpa using joined)]
    · exact same
  apply (process.files.meets_buildLdPreload nonempty).bind
  rintro _ rfl
  exact meets_pure rfl

def usedPreload (process : Surroundings) (libpeakPath : Text) (env : List Text) : Text :=
  if existingValue env = some (process.intendedValue libpeakPath env) then
    (env.find? isPreload).getD []
  else
    ldPreload ++ '=' :: process.intendedValue libpeakPath env

theorem writtenEntry_intendedPreload :
    (process.intendedPreload libpeakPath env).writtenEntry env =
      process.usedPreload libpeakPath env := by
  unfold Preload.writtenEntry usedPreload intendedPreload
  by_cases same : existingValue env = some (process.intendedValue libpeakPath env)
  · rw [if_pos same, if_neg (by simp [same])]
  · rw [if_neg same, if_pos (by simpa using same)]

def usedLibraryPath (process : Surroundings) (libpeakPath : Text) (env : List Text) : Option Text :=
  if existingValue env = some (process.intendedValue libpeakPath env) ∨
      process.files.preloadContainsLibpeak (existingValue env) libpeakPath ∨
      envHasName env ldLibraryPath then
    none
  else
    process.libraryPath.entry

theorem existingValue_eq_none : existingValue env = none ↔ env.any isPreload = false := by
  rw [← envNameCount_ldPreload, existingValue]
  split <;> simp_all

theorem existingValue_of_eq_some {value : Text} (isValue : existingValue env = some value) :
    existingValue env = some (joinedValue ldPreload env) := by
  rw [existingValue] at isValue ⊢
  split at isValue
  · cases isValue
  next present => rw [if_neg present]

theorem meets_addedLibraryPath :
    Meets Expected (process.addedLibraryPath (process.intendedPreload libpeakPath env) env)
      (· = process.usedLibraryPath libpeakPath env) := by
  unfold addedLibraryPath usedLibraryPath intendedPreload
  apply meets_ite
  · intro adds
    apply meets_ite
    · exact fun _ => meets_throw ⟨by simp, by simp⟩
    · exact fun _ => meets_pure (if_neg (by simpa [and_assoc] using adds)).symm
  · intro skips
    exact meets_pure (if_pos (by simpa [or_iff_not_imp_left] using skips)).symm

theorem isLibraryPath_usedLibraryPath : ∀ entry ∈ process.usedLibraryPath libpeakPath env,
    ∃ value, entry = ldLibraryPath ++ '=' :: value := by
  intro entry isEntry
  unfold usedLibraryPath at isEntry
  split at isEntry
  · cases isEntry
  · rcases Option.map_eq_some_iff.mp isEntry with ⟨value, _, rfl⟩
    exact ⟨value, rfl⟩

theorem filter_isPreload_of_count (single : envNameCount env ldPreload ≤ 1) {entry : Text}
    (first : env.find? isPreload = some entry) : env.filter isPreload = [entry] := by
  have head : (env.filter isPreload).head? = some entry := by rw [head?_filter, first]
  have length : (env.filter isPreload).length ≤ 1 := by
    rw [← countP_eq_length_filter]
    exact single
  cases kept : env.filter isPreload with
  | nil => simp [kept] at head
  | cons _ rest =>
    rw [kept] at head length
    cases head
    have empty : rest = [] := eq_nil_of_length_eq_zero (by simpa using length)
    rw [empty]

theorem used_of_unchanged (same : existingValue env = some (process.intendedValue libpeakPath env))
    (noLibraryPath : process.usedLibraryPath libpeakPath env = none)
    (noneMissing : (if propagate then process.environ.countP (isMissing env) else 0) = 0)
    (single : envNameCount env ldPreload ≤ 1) :
    env.filter isPreload = [process.usedPreload libpeakPath env] ∧
      env.filter (!isPreload ·) =
        env.filter (!isPreload ·) ++ (process.usedLibraryPath libpeakPath env).toList ++
          (if propagate then missingEntries process.environ env else []) := by
  have present : env.any isPreload := by
    by_contra absent
    rw [Bool.not_eq_true] at absent
    rw [existingValue_eq_none.mpr absent] at same
    cases same
  have nothingMissing : (if propagate then missingEntries process.environ env else []) = [] := by
    cases propagate with
    | false => rfl
    | true =>
      have few := length_missingEntries_le process.environ env
      rw [if_pos rfl] at noneMissing ⊢
      exact eq_nil_of_length_eq_zero (by omega)
  constructor
  · cases isFirst : env.find? isPreload with
    | none =>
      rw [any_eq_false.mpr (find?_eq_none.mp isFirst)] at present
      cases present
    | some =>
      rw [usedPreload, if_pos same, isFirst, Option.getD_some]
      exact filter_isPreload_of_count single isFirst
  · rw [noLibraryPath, nothingMissing, Option.toList_none, append_nil, append_nil]

theorem meets_buildEnv (isPath : process.libpeakPath = some libpeakPath)
    (insecure : process.secure = false) (wanted : process.shouldInjectLibpeak env) :
    Meets Expected (process.buildEnv env true propagate) fun built =>
      (envToUse built env).filter isPreload = [process.usedPreload libpeakPath env] ∧
        (envToUse built env).filter (!isPreload ·) =
          env.filter (!isPreload ·) ++ (process.usedLibraryPath libpeakPath env).toList ++
            (if propagate then missingEntries process.environ env else []) := by
  unfold buildEnv
  simp only [Bool.not_true, Bool.false_eq_true, if_false]
  apply meets_ite
  · exact fun _ => meets_throw expected_tooBig
  intro _
  apply (meets_preparePreload isPath insecure wanted).bind
  rintro _ rfl
  have counted : Meets Expected (process.missingCount env propagate)
      (· = if propagate then process.environ.countP (isMissing env) else 0) := by
    cases propagate with
    | false => exact meets_pure rfl
    | true => exact meets_countMissingPeakEnv process.environ env
  apply counted.bind
  rintro _ rfl
  apply meets_addedLibraryPath.bind
  rintro _ rfl
  apply meets_ite
  · intro nothing
    simp only [intendedPreload, Bool.and_eq_true, Bool.not_eq_true', decide_eq_false_iff_not,
      not_not, decide_eq_true_eq, Option.isNone_iff_eq_none] at nothing
    rcases nothing with ⟨⟨⟨same, noLibraryPath⟩, noneMissing⟩, single⟩
    exact meets_pure (used_of_unchanged same noLibraryPath noneMissing single)
  · intro _
    have written : env.any isPreload = false →
        (process.intendedPreload libpeakPath env).changed := by
      intro absent
      simp [intendedPreload, existingValue_eq_none.mpr absent]
    apply (meets_fillEnv rfl written isLibraryPath_usedLibraryPath rfl).bind
    rintro built ⟨preloads, others⟩
    rw [writtenEntry_intendedPreload] at preloads
    exact meets_pure ⟨preloads, others⟩

theorem tokensOf_existingValue (env : List Text) :
    tokensOf ((existingValue env).getD []) = preloadTokens env := by
  unfold existingValue
  split
  next absent =>
    rw [envNameCount_eq_zero] at absent
    have nothing : env.filter isPreload = [] := filter_eq_nil_iff.mpr absent
    rw [preloadTokens, nothing]
    rfl
  next => exact tokensOf_joinedValue ldPreload env

theorem preloadContainsLibpeak_existingValue :
    process.files.preloadContainsLibpeak (existingValue env) libpeakPath =
      (preloadTokens env).any (process.files.tokenIsSameFile libpeakPath) := by
  rw [← tokensOf_existingValue]
  cases existingValue env <;> rfl

section

variable (nonempty : libpeakPath ≠ [])

include nonempty

section

variable (whole : ∀ char ∈ libpeakPath, isSeparator char = false)

include whole

theorem tokensOf_intendedValue :
    tokensOf (process.intendedValue libpeakPath env) = libpeakPath ::
      (preloadTokens env).filter (!process.files.tokenIsSameFile libpeakPath ·) := by
  rw [intendedValue, tokensOf_rebuiltValue nonempty whole, otherTokens,
    tokensOf_existingValue]

theorem any_of_intendedValue
    (same : existingValue env = some (process.intendedValue libpeakPath env)) :
    (preloadTokens env).any (process.files.tokenIsSameFile libpeakPath) := by
  rw [← tokensOf_existingValue, same, Option.getD_some, tokensOf_intendedValue nonempty whole,
    any_cons, tokenIsSameFile, if_neg nonempty, if_pos rfl, Bool.true_or]

theorem usedLibraryPath_eq :
    (process.usedLibraryPath libpeakPath env).toList =
      if envHasName env ldLibraryPath ∨
          (preloadTokens env).any (process.files.tokenIsSameFile libpeakPath) then []
      else process.libraryPath.entry.toList := by
  have conditions : (existingValue env = some (process.intendedValue libpeakPath env) ∨
      process.files.preloadContainsLibpeak (existingValue env) libpeakPath ∨
      envHasName env ldLibraryPath) ↔
      (envHasName env ldLibraryPath ∨
        (preloadTokens env).any (process.files.tokenIsSameFile libpeakPath)) := by
    rw [preloadContainsLibpeak_existingValue]
    constructor
    · rintro (same | present | defined)
      · exact .inr (any_of_intendedValue nonempty whole same)
      · exact .inr present
      · exact .inl defined
    · rintro (defined | present)
      · exact .inr (.inr defined)
      · exact .inr (.inl present)
  unfold usedLibraryPath
  simp only [conditions]
  split <;> rfl

end

theorem tokensOf_usedPreload (injectable : process.Injectable libpeakPath env) :
    tokensOf (valueOf (process.usedPreload libpeakPath env)) = libpeakPath ::
      (preloadTokens env).filter (!process.files.tokenIsSameFile libpeakPath ·) := by
  unfold usedPreload
  split
  next same =>
    cases isFirst : env.find? isPreload with
    | none =>
      have absent : env.any isPreload = false :=
        any_eq_false.mpr (find?_eq_none.mp isFirst)
      rw [existingValue_eq_none.mpr absent] at same
      cases same
    | some entry =>
      have joined := existingValue_of_eq_some same
      have intended : process.intendedValue libpeakPath env =
          process.files.rebuiltValue libpeakPath (joinedValue ldPreload env) := by
        rw [intendedValue, joined, Option.getD_some]
      have all : preloadTokens env = tokensOf (process.intendedValue libpeakPath env) := by
        rw [← tokensOf_existingValue, same, Option.getD_some]
      rw [Option.getD_some, injectable.first (intended ▸ same) entry isFirst]
      exact all.trans (tokensOf_intendedValue nonempty injectable.whole)
  next => rw [valueOf_append_cons (by decide), tokensOf_intendedValue nonempty injectable.whole]

theorem Injectable.of_injected {used : List Text}
    (isUsed : used.filter isPreload = [process.usedPreload libpeakPath env])
    (injected : Injected process libpeakPath env propagate used) :
    process.Injectable libpeakPath env := by
  rcases injected.preload with ⟨_, isEntry, tokens⟩
  cases isUsed.symm.trans isEntry
  have whole : ∀ char ∈ libpeakPath, isSeparator char = false := by
    apply Tokens.not_separator_of_mem_tokens
    change libpeakPath ∈ tokensOf (valueOf (process.usedPreload libpeakPath env))
    rw [tokens]
    exact mem_cons_self
  refine ⟨whole, ?_⟩
  intro same first isFirst
  have joined := existingValue_of_eq_some same
  have intended : existingValue env = some (process.intendedValue libpeakPath env) := by
    rw [same, intendedValue, joined, Option.getD_some]
  rw [usedPreload, if_pos intended, isFirst, Option.getD_some] at tokens
  rw [tokens, ← tokensOf_intendedValue nonempty whole, ← tokensOf_existingValue, intended,
    Option.getD_some]

end

/-- All writes are within the computed sizes. A built environment is the intended one under exactly
the two conditions. -/
theorem buildEnv_injected_iff (process : Surroundings) (env : List Text) (propagate : Bool)
    {libpeakPath : Text} (isPath : process.libpeakPath = some libpeakPath)
    (insecure : process.secure = false) (wanted : process.shouldInjectLibpeak env) :
    (∀ error, process.buildEnv env true propagate = .error error →
      error ≠ .outOfBounds ∧ error ≠ .noRoom) ∧
    ∀ built, process.buildEnv env true propagate = .ok built →
      (Injected process libpeakPath env propagate (envToUse built env) ↔
        process.Injectable libpeakPath env) := by
  have meets : Meets Expected (process.buildEnv env true propagate) _ :=
    meets_buildEnv isPath insecure wanted
  have nonempty : libpeakPath ≠ [] := by
    rintro rfl
    simp [shouldInjectLibpeak, isPath] at wanted
  refine ⟨fun error failed => meets.of_error failed, ?_⟩
  intro built returned
  rcases meets.of_ok returned with ⟨preloads, others⟩
  constructor
  · exact Injectable.of_injected nonempty preloads
  · intro injectable
    rw [usedLibraryPath_eq nonempty injectable.whole] at others
    refine ⟨?_, ⟨_, preloads, tokensOf_usedPreload nonempty injectable⟩, others ▸ .rfl⟩
    have sublist : (env.filter (!isPreload ·)).Sublist
        ((envToUse built env).filter (!isPreload ·)) := by
      rw [others, append_assoc]
      exact sublist_append_left _ _
    exact sublist.trans filter_sublist

/-- A process with PEAK in its environment, where every path leads to a file of its own. -/
def examplePeakProcess : Surroundings where
  environ := ["PEAK_TARGET=main".toList, "PATH=/bin".toList]
  libpeakPath := some "/opt/libpeak.so".toList
  files := ⟨some, fun _ => none⟩
  runtimeIsActive := true
  requestsWork := false
  secure := false
  libraryPath := ⟨some "/opt".toList, true, false⟩

/-- Two entries are joined, and the variable of PEAK and the library path are added. -/
theorem buildEnv_injected_twoEntries :
    ∃ built, examplePeakProcess.buildEnv
        ["LD_PRELOAD=/a.so".toList, "HOME=/".toList, "LD_PRELOAD=/b.so".toList] true true =
          .ok built ∧
      envToUse built [] = ["LD_PRELOAD=/opt/libpeak.so:/a.so:/b.so".toList, "HOME=/".toList,
        "LD_LIBRARY_PATH=/opt".toList, "PEAK_TARGET=main".toList] ∧
      Injected examplePeakProcess "/opt/libpeak.so".toList
        ["LD_PRELOAD=/a.so".toList, "HOME=/".toList, "LD_PRELOAD=/b.so".toList] true
        (envToUse built
          ["LD_PRELOAD=/a.so".toList, "HOME=/".toList, "LD_PRELOAD=/b.so".toList]) := by
  have run : ((examplePeakProcess.buildEnv ["LD_PRELOAD=/a.so".toList, "HOME=/".toList,
      "LD_PRELOAD=/b.so".toList] true true).toOption.any fun built =>
        envToUse built [] = ["LD_PRELOAD=/opt/libpeak.so:/a.so:/b.so".toList, "HOME=/".toList,
          "LD_LIBRARY_PATH=/opt".toList, "PEAK_TARGET=main".toList]) = true := by decide +kernel
  cases returned : examplePeakProcess.buildEnv ["LD_PRELOAD=/a.so".toList, "HOME=/".toList,
      "LD_PRELOAD=/b.so".toList] true true with
  | error error =>
    rw [returned] at run
    cases run
  | ok built =>
    rw [returned] at run
    refine ⟨built, rfl, of_decide_eq_true run, ?_⟩
    refine ((buildEnv_injected_iff examplePeakProcess _ true rfl rfl
      (by decide +kernel)).2 built returned).mpr ⟨?_, ?_⟩
    · simp [isSeparator]
    · intro same
      exact absurd same (by decide +kernel)

/-- The first entry is kept because the joined value is as intended, and the second is lost. -/
theorem buildEnv_drops_token :
    (examplePeakProcess.buildEnv
      ["LD_PRELOAD=/opt/libpeak.so".toList, "LD_PRELOAD=/b.so".toList] true true).toOption.map
        (envToUse · []) =
      some ["LD_PRELOAD=/opt/libpeak.so".toList, "PEAK_TARGET=main".toList] ∧
    examplePeakProcess.shouldInjectLibpeak
      ["LD_PRELOAD=/opt/libpeak.so".toList, "LD_PRELOAD=/b.so".toList] ∧
    ¬ Injected examplePeakProcess "/opt/libpeak.so".toList
      ["LD_PRELOAD=/opt/libpeak.so".toList, "LD_PRELOAD=/b.so".toList] true
      ["LD_PRELOAD=/opt/libpeak.so".toList, "PEAK_TARGET=main".toList] := by
  refine ⟨by decide +kernel, by decide +kernel, ?_⟩
  intro injected
  rcases injected.preload with ⟨_, isEntry, tokens⟩
  cases isEntry
  revert tokens
  decide +kernel

/-- A process starts a program with the environment it has built. -/
structure Starts (process : Surroundings) (env : List Text) (child : Surroundings) : Prop where
  insecure : process.secure = false
  wanted : process.shouldInjectLibpeak env
  path : child.libpeakPath = process.libpeakPath
  files : child.files = process.files
  built : ∃ propagate built, process.buildEnv env true propagate = .ok built ∧
    child.environ = envToUse built env

theorem rebuiltValue_rebuiltValue {files : FileSystem} (nonempty : libpeakPath ≠ [])
    (whole : ∀ char ∈ libpeakPath, isSeparator char = false) (value : Text) :
    files.rebuiltValue libpeakPath (files.rebuiltValue libpeakPath value) =
      files.rebuiltValue libpeakPath value := by
  have isSame : files.tokenIsSameFile libpeakPath libpeakPath := by
    simp [tokenIsSameFile, nonempty]
  have tokens : tokensOf (files.rebuiltValue libpeakPath value) =
      libpeakPath :: files.otherTokens libpeakPath value :=
    tokensOf_rebuiltValue nonempty whole value
  simp only [rebuiltValue, otherTokens] at tokens ⊢
  simp [tokens, isSame]

theorem existingValue_of_filter {entry : Text} (isEntry : env.filter isPreload = [entry]) :
    existingValue env = some (valueOf entry) := by
  have isMatch : env.filter (entryMatches ldPreload) = [entry] := isEntry
  by_cases empty : valueOf entry = [] <;>
    simp [existingValue, envNameCount, countP_eq_length_filter, joinedValue, nonemptyValues,
      isMatch, empty]

theorem valueOf_usedPreload (single : envNameCount env ldPreload ≤ 1) :
    valueOf (process.usedPreload libpeakPath env) = process.intendedValue libpeakPath env := by
  unfold usedPreload
  split
  next kept =>
    cases isFirst : env.find? isPreload with
    | none =>
      rw [existingValue_eq_none.mpr (any_eq_false.mpr (find?_eq_none.mp isFirst))] at kept
      cases kept
    | some entry =>
      rw [existingValue_of_filter (filter_isPreload_of_count single isFirst)] at kept
      exact Option.some.inj kept
  · exact valueOf_append_cons (by decide)

theorem countP_isMissing_self (env : List Text) : env.countP (isMissing env) = 0 := by
  rw [countP_eq_zero]
  intro entry isEntry missing
  rcases (Option.any_eq_true _ _).mp missing with ⟨name, isName, absent⟩
  have isPresent : envHasName env name := by
    rw [envHasName_iff]
    exact ⟨entry, isEntry, (head_of_propagatedName isName).1⟩
  simp [isPresent] at absent

theorem meets_buildEnv_environ (isPath : process.libpeakPath = some libpeakPath)
    (insecure : process.secure = false) (wanted : process.shouldInjectLibpeak process.environ)
    (same : existingValue process.environ =
      some (process.intendedValue libpeakPath process.environ))
    (single : envNameCount process.environ ldPreload ≤ 1) :
    Meets Expected (process.buildEnv process.environ true propagate) (· = none) := by
  have counted : Meets Expected (process.missingCount process.environ propagate) (· = 0) := by
    cases propagate with
    | false => exact meets_pure rfl
    | true =>
      have missing := meets_countMissingPeakEnv process.environ process.environ
      rwa [countP_isMissing_self] at missing
  unfold buildEnv
  simp only [Bool.not_true, Bool.false_eq_true, if_false]
  apply meets_ite
  · exact fun _ => meets_throw expected_tooBig
  intro _
  apply (meets_preparePreload isPath insecure wanted).bind
  rintro _ rfl
  apply counted.bind
  rintro _ rfl
  apply meets_addedLibraryPath.bind
  rintro _ rfl
  rw [if_pos (by simp [intendedPreload, usedLibraryPath, same, single])]
  exact meets_pure rfl

theorem Starts.environ_eq {child : Surroundings} (starts : process.Starts process.environ child)
    (isPath : process.libpeakPath = some libpeakPath) {entry : Text}
    (isEntry : process.environ.filter isPreload = [entry])
    (rebuilt : process.files.rebuiltValue libpeakPath (valueOf entry) = valueOf entry) :
    child.environ = process.environ := by
  rcases starts.built with ⟨_, built, returned, environ⟩
  have same : existingValue process.environ =
      some (process.intendedValue libpeakPath process.environ) := by
    rw [intendedValue, existingValue_of_filter isEntry, Option.getD_some, rebuilt]
  have single : envNameCount process.environ ldPreload ≤ 1 := by
    rw [envNameCount, countP_eq_length_filter]
    exact (congrArg length isEntry).le
  have unchanged := (meets_buildEnv_environ isPath starts.insecure starts.wanted same
    single).of_ok returned
  rw [environ, unchanged]
  rfl

/-- The environment built for a program is passed on as it is by every program started from there
with its own environment. -/
theorem environ_stable {child last : Surroundings} (isPath : process.libpeakPath = some libpeakPath)
    (whole : ∀ char ∈ libpeakPath, isSeparator char = false)
    (single : envNameCount env ldPreload ≤ 1) (first : process.Starts env child)
    (later : Relation.ReflTransGen (fun parent => parent.Starts parent.environ) child last) :
    last.environ = child.environ := by
  have nonempty : libpeakPath ≠ [] := by
    rintro rfl
    simpa [shouldInjectLibpeak, isPath] using first.wanted
  rcases first.built with ⟨_, built, returned, environ⟩
  have isEntry := ((meets_buildEnv isPath first.insecure first.wanted).of_ok returned).1
  rw [← environ] at isEntry
  have kept : last.environ = child.environ ∧ last.files = process.files ∧
      last.libpeakPath = some libpeakPath := by
    induction later with
    | refl => exact ⟨rfl, first.files, first.path.trans isPath⟩
    | tail _ next ih =>
      rcases ih with ⟨environ, files, path⟩
      refine ⟨?_, next.files.trans files, next.path.trans path⟩
      rw [← environ] at isEntry ⊢
      apply next.environ_eq path isEntry
      rw [files, valueOf_usedPreload single, intendedValue,
        rebuiltValue_rebuiltValue nonempty whole]
  exact kept.1

/-- A program that is started with one more library starts a further one. -/
theorem environ_stable_again : ∃ child last : Surroundings,
    examplePeakProcess.Starts ["LD_PRELOAD=/a.so".toList] child ∧
      child.Starts child.environ last ∧ last.environ = child.environ := by
  let child : Surroundings := { examplePeakProcess with
    environ := ["LD_PRELOAD=/opt/libpeak.so:/a.so".toList, "LD_LIBRARY_PATH=/opt".toList,
      "PEAK_TARGET=main".toList] }
  have first : examplePeakProcess.Starts ["LD_PRELOAD=/a.so".toList] child :=
    ⟨rfl, by decide +kernel, rfl, rfl, true,
      (examplePeakProcess.buildEnv ["LD_PRELOAD=/a.so".toList] true true).toOption.getD none,
      by decide +kernel, by decide +kernel⟩
  have next : child.Starts child.environ child :=
    ⟨rfl, by decide +kernel, rfl, rfl, true, none, by decide +kernel, rfl⟩
  exact ⟨child, child, first, next, environ_stable rfl (by simp [isSeparator])
    (by decide +kernel) first (.single next)⟩

end Surroundings

end Peak.Exec
