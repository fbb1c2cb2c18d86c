import Peak.Common.FirstKept
import Peak.Exec.Build

/-!
# The environment that is built

The purpose of the wrapper is `Injected`: the given entries are kept, one entry for `LD_PRELOAD`
names PEAK's library first and then all other libraries that were to be preloaded, and only the
entries the library needs are added. All writes stay within the computed sizes.
-/

namespace Peak.Exec

open Fallible List

def isPreload (entry : Text) : Bool :=
  entryMatches ldPreload entry

/-- The names of PEAK which may be propagated are shorter than the array for them. -/
def propagatedName (entry : Text) : Option Text :=
  if isPeakEntry entry ∧ 0 < nameLen entry ∧ (nameLen entry).toNat < nameCapacity then
    definedName entry
  else
    none

def isMissing (env : List Text) (entry : Text) : Bool :=
  (propagatedName entry).any fun name => !envHasName env name

def missingEntries (environ env : List Text) : List Text :=
  (environ.filter (isMissing env)).foldl (FirstKept.insertNew definedName) []

def preloadTokens (env : List Text) : List Text :=
  (env.filter isPreload).flatMap fun entry => tokensOf (valueOf entry)

/-- The environment that is used preloads the library. -/
structure Injected (process : Surroundings) (libpeakPath : Text) (env : List Text)
    (propagate : Bool) (used : List Text) : Prop where
  kept : (env.filter (!isPreload ·)).Sublist used
  preload : ∃ entry, used.filter isPreload = [entry] ∧
    tokensOf (valueOf entry) = libpeakPath ::
      (preloadTokens env).filter (!process.files.tokenIsSameFile libpeakPath ·)
  others : (used.filter (!isPreload ·)).Perm (env.filter (!isPreload ·) ++
    (if envHasName env ldLibraryPath ∨
        (preloadTokens env).any (process.files.tokenIsSameFile libpeakPath) then []
      else process.libraryPath.entry.toList) ++
    (if propagate then missingEntries process.environ env else []))

section

variable {entry name value : Text} {env : List Text}

theorem isPreload_append_cons (value : Text) : isPreload (ldPreload ++ '=' :: value) := by
  rw [isPreload, entryMatches_iff]
  exact definedName_append_cons (by decide) (by decide)

theorem isPreload_libraryPath (value : Text) :
    isPreload (ldLibraryPath ++ '=' :: value) = false := by
  rw [Bool.eq_false_iff, ne_eq, isPreload, entryMatches_iff,
    definedName_append_cons (by decide) (by decide)]
  decide

theorem envNameCount_eq_zero :
    envNameCount env name = 0 ↔ ∀ entry ∈ env, ¬ entryMatches name entry := by
  rw [envNameCount, countP_eq_zero]

theorem head_of_propagatedName (isName : propagatedName entry = some name) :
    definedName entry = some name ∧ name.head? = some 'P' := by
  unfold propagatedName at isName
  split at isName
  next isPeak =>
    refine ⟨isName, ?_⟩
    rcases isPeak with ⟨isPeak, positive, _⟩
    rw [definedName, if_pos positive.le] at isName
    cases isName
    rw [isPeakEntry, isPrefixOf_iff_prefix] at isPeak
    rcases isPeak with ⟨rest, rfl⟩
    cases length : (nameLen ("PEAK_".toList ++ rest)).toNat with
    | zero => omega
    | succ => rfl
  next => cases isName

theorem meets_peakName (entry : Text) :
    Meets Expected (peakName entry) (· = propagatedName entry) := by
  apply meets_ite
  · intro other
    apply meets_pure
    rw [propagatedName, if_neg]
    rintro ⟨isPeak, _⟩
    simp [isPeak] at other
  intro isPeak
  apply meets_ite
  · intro outside
    apply meets_pure
    rw [propagatedName, if_neg]
    rintro ⟨_, _, _⟩
    omega
  intro inside
  rw [not_or, not_le, not_le] at inside
  have length : (entry.take (nameLen entry).toNat).length = (nameLen entry).toNat := by
    rw [length_take, Nat.min_eq_left (toNat_nameLen_le entry)]
  apply Buffer.meets_fill (length.trans_lt inside.2)
  intro filled isName
  apply meets_pure
  rw [propagatedName, if_pos ⟨by simpa using isPeak, inside⟩, definedName, if_pos inside.1.le,
    isName]

theorem meets_countMissingPeakEnv (environ env : List Text) :
    Meets Expected (countMissingPeakEnv environ env) (· = environ.countP (isMissing env)) := by
  apply meets_foldlM (fun processed count => count = processed.countP (isMissing env)) environ
  · rfl
  rintro processed entry later _ _ rfl
  apply (meets_peakName entry).bind
  rintro _ rfl
  rw [countP_append, countP_singleton, isMissing]
  cases propagatedName entry with
  | none => exact meets_pure rfl
  | some name =>
    apply meets_pure
    cases has : envHasName env name <;> simp [has]

end

/-- What the array holds, divided into the entries for `LD_PRELOAD` and the others, and the number
of allocations. -/
structure Filled (envCapacity ownedCapacity : ℕ) (preloads others : List Text) (owned : ℕ)
    (built : ExecEnv) : Prop where
  envCapacity : built.envp.capacity = envCapacity
  ownedCapacity : built.ownedStrings.capacity = ownedCapacity
  preloads : built.envp.items.filter isPreload = preloads
  others : built.envp.items.filter (!isPreload ·) = others
  owned : built.ownedStrings.items.length = owned

section

variable {envCapacity ownedCapacity owned : ℕ} {preloads others : List Text} {built : ExecEnv}
  {entry value : Text}

theorem length_filter_add (env : List Text) :
    env.length = (env.filter isPreload).length + (env.filter (!isPreload ·)).length := by
  simpa [countP_eq_length_filter] using length_eq_countP_add_countP isPreload (l := env)

section

variable (filled : Filled envCapacity ownedCapacity preloads others owned built)

include filled

theorem Filled.length : built.envp.items.length = preloads.length + others.length := by
  rw [← filled.preloads, ← filled.others]
  exact length_filter_add _

theorem Filled.markChanged :
    Filled envCapacity ownedCapacity preloads others owned built.markChanged :=
  { filled with }

section

variable (room : preloads.length + others.length + 1 < envCapacity)

include room

theorem meets_checkRoom : Meets Expected built.checkRoom fun _ => True := by
  rw [ExecEnv.checkRoom, filled.envCapacity, filled.length, if_neg (Nat.not_le_of_lt room)]
  exact meets_pure trivial

theorem meets_writeEntry (entry : Text) :
    Meets Expected (built.writeEntry entry)
      (Filled envCapacity ownedCapacity (preloads ++ [entry].filter isPreload)
        (others ++ [entry].filter (!isPreload ·)) owned) := by
  have length := filled.length
  have capacity := filled.envCapacity
  apply (Buffer.meets_write (by simp only [length_cons, length_nil]; omega)).bind
  rintro envp ⟨sameCapacity, items⟩
  refine meets_pure ⟨sameCapacity.trans capacity, filled.ownedCapacity, ?_, ?_, filled.owned⟩
  · rw [items, filter_append, filled.preloads]
  · rw [items, filter_append, filled.others]

theorem meets_copyEntry (entry : Text) :
    Meets Expected (built.copyEntry entry)
      (Filled envCapacity ownedCapacity (preloads ++ [entry].filter isPreload)
        (others ++ [entry].filter (!isPreload ·)) owned) := by
  apply (meets_checkRoom filled room).bind
  intro _ _
  exact meets_writeEntry filled room entry

end

theorem meets_addOwned (room : owned < ownedCapacity) (value : Text) :
    Meets Expected (built.addOwned value)
      (Filled envCapacity ownedCapacity preloads others (owned + 1)) := by
  have length := filled.owned
  have capacity := filled.ownedCapacity
  rw [ExecEnv.addOwned, if_neg (by omega)]
  apply (Buffer.meets_write (by simp only [length_cons, length_nil]; omega)).bind
  rintro ownedStrings ⟨sameCapacity, items⟩
  refine meets_pure ⟨filled.envCapacity, sameCapacity.trans capacity, filled.preloads,
    filled.others, ?_⟩
  rw [items, length_append, length]
  rfl

end

theorem meets_preloadEntry (value : Text) :
    Meets Expected (preloadEntry value) (· = ldPreload ++ '=' :: value) := by
  apply (meets_sizeAdd _ _).bind
  rintro _ rfl
  apply (meets_sizeAdd _ _).bind
  intro size isSize
  have length : (ldPreload ++ '=' :: value).length + 1 = size := by
    rw [isSize, length_append, length_append, length_cons, length_singleton]
    omega
  apply Buffer.meets_fill (by omega)
  exact fun filled isEntry => meets_pure isEntry

theorem meets_writePreload (filled : Filled envCapacity ownedCapacity preloads others owned built)
    (room : preloads.length + others.length + 1 < envCapacity) (ownedRoom : owned < ownedCapacity)
    (value : Text) :
    Meets Expected (writePreload value built)
      (Filled envCapacity ownedCapacity (preloads ++ [ldPreload ++ '=' :: value]) others
        (owned + 1)) := by
  apply (meets_preloadEntry value).bind
  rintro _ rfl
  apply (meets_checkRoom filled room).bind
  intro _ _
  apply (meets_addOwned filled ownedRoom _).bind
  intro allocated filled
  apply (meets_writeEntry filled room _).bind
  intro written filled
  apply meets_pure
  have isEntry := isPreload_append_cons value
  simpa [isEntry] using filled.markChanged

def Preload.writtenEntry (preload : Preload) (env : List Text) : Text :=
  if preload.changed then ldPreload ++ '=' :: preload.value
  else (env.find? isPreload).getD []

theorem length_ite_add_le (written : Text) (env : List Text) :
    (if env.any isPreload then [written] else []).length + (env.filter (!isPreload ·)).length ≤
      env.length := by
  have length := length_filter_add env
  by_cases present : env.any isPreload
  · rw [if_pos present, length_singleton]
    have positive : 0 < (env.filter isPreload).length := by
      rcases any_eq_true.mp present with ⟨_, isEntry, matches'⟩
      exact length_pos_of_mem (mem_filter.mpr ⟨isEntry, matches'⟩)
    omega
  · rw [if_neg present, length_nil]
    omega

theorem meets_copyBaseEntries {preload : Preload} (touches : preload.shouldTouch) {env : List Text}
    (room : env.length < envCapacity) (ownedRoom : preload.changed → 0 < ownedCapacity) :
    Meets Expected
      (env.foldlM (copyBaseEntry preload)
        (⟨Buffer.allocate envCapacity, Buffer.allocate ownedCapacity, false⟩, false))
      fun state => state.2 = env.any isPreload ∧ Filled envCapacity ownedCapacity
        (if env.any isPreload then [preload.writtenEntry env] else [])
        (env.filter (!isPreload ·))
        (if preload.changed && env.any isPreload then 1 else 0) state.1 := by
  apply meets_foldlM (fun processed (state : ExecEnv × Bool) =>
    state.2 = processed.any isPreload ∧ Filled envCapacity ownedCapacity
      (if processed.any isPreload then [preload.writtenEntry env] else [])
      (processed.filter (!isPreload ·))
      (if preload.changed && processed.any isPreload then 1 else 0) state.1) env
  · refine ⟨rfl, rfl, rfl, rfl, rfl, ?_⟩
    simp [Buffer.allocate]
  rintro processed entry later ⟨_, _⟩ split ⟨rfl, filled⟩
  have lengths := length_ite_add_le (preload.writtenEntry env) processed
  have free : (if processed.any isPreload then [preload.writtenEntry env] else []).length +
      (processed.filter (!isPreload ·)).length + 1 < envCapacity := by
    have total : env.length = processed.length + (later.length + 1) := by simp [split]
    omega
  rw [any_append, filter_append, copyBaseEntry, touches, Bool.true_and]
  by_cases isEntry : isPreload entry
  · have notOther : [entry].filter (!isPreload ·) = [] := by simp [isEntry]
    have any : [entry].any isPreload := by simp [isEntry]
    simp only [any, notOther, Bool.or_true, append_nil, Bool.and_true]
    rw [if_pos (show entryMatches ldPreload entry from isEntry)]
    by_cases written : processed.any isPreload
    · rw [if_pos written]
      simp only [written, Bool.and_true] at filled
      exact meets_pure ⟨rfl, filled.markChanged⟩
    · rw [if_neg written]
      simp only [written, Bool.and_false] at filled free
      by_cases changed : preload.changed
      · rw [if_pos changed]
        apply (meets_writePreload filled free (ownedRoom changed) _).bind
        intro after filled
        refine meets_pure ⟨rfl, ?_⟩
        simpa [changed, Preload.writtenEntry] using filled
      · rw [if_neg changed]
        apply (meets_copyEntry filled free entry).bind
        intro after filled
        refine meets_pure ⟨rfl, ?_⟩
        have first : env.find? isPreload = some entry := by
          have before : processed.find? isPreload = none := by simpa using written
          rw [split, find?_append, before, Option.none_or, find?_cons_of_pos isEntry]
        simpa [changed, Preload.writtenEntry, first, isEntry] using filled
  · have notAny : [entry].any isPreload = false := by simp [isEntry]
    simp only [notAny, Bool.or_false]
    rw [if_neg (show ¬ entryMatches ldPreload entry from isEntry)]
    apply (meets_copyEntry filled free entry).bind
    intro after filled
    refine meets_pure ⟨rfl, ?_⟩
    simpa [isEntry] using filled

theorem Filled.mem_items (filled : Filled envCapacity ownedCapacity preloads others owned built) :
    entry ∈ built.envp.items ↔ entry ∈ preloads ∨ entry ∈ others := by
  rw [← filled.preloads, ← filled.others, mem_filter, mem_filter]
  cases isPreload entry <;> simp

theorem missingEntries_concat (environ env : List Text) (entry : Text) :
    missingEntries (environ ++ [entry]) env =
      if isMissing env entry then
        FirstKept.insertNew definedName (missingEntries environ env) entry
      else
        missingEntries environ env := by
  rw [missingEntries, filter_append, foldl_append]
  by_cases missing : isMissing env entry
  · rw [filter_cons_of_pos missing, if_pos missing]
    rfl
  · rw [filter_cons_of_neg missing, if_neg missing]
    rfl

theorem length_missingEntries_le (environ env : List Text) :
    (missingEntries environ env).length ≤ environ.countP (isMissing env) := by
  rw [countP_eq_length_filter]
  exact (FirstKept.length_foldl_le [] _).trans (Nat.zero_add _).le

theorem isPreload_of_head {name : Text} (isName : definedName entry = some name)
    (head : name.head? = some 'P') : isPreload entry = false := by
  rw [Bool.eq_false_iff, ne_eq, isPreload, entryMatches_iff, isName, Option.some.injEq]
  rintro rfl
  revert head
  decide

theorem meets_appendMissingPeakEnv {environ env : List Text}
    (filled : Filled envCapacity ownedCapacity preloads others owned built)
    (clear : ∀ entry ∈ preloads ++ others, ∀ name, definedName entry = some name →
      name.head? = some 'P' → envHasName env name)
    (room : preloads.length + others.length + environ.countP (isMissing env) < envCapacity)
    (ownedRoom : owned + environ.countP (isMissing env) ≤ ownedCapacity) :
    Meets Expected (appendMissingPeakEnv environ env built)
      (Filled envCapacity ownedCapacity preloads (others ++ missingEntries environ env)
        (owned + (missingEntries environ env).length)) := by
  apply meets_foldlM (fun processed => Filled envCapacity ownedCapacity preloads
    (others ++ missingEntries processed env)
    (owned + (missingEntries processed env).length)) environ
  · simpa [missingEntries] using filled
  intro processed entry later state split filled
  rw [missingEntries_concat]
  apply (meets_peakName entry).bind
  rintro _ rfl
  cases isName : propagatedName entry with
  | none =>
    have present : isMissing env entry = false := by rw [isMissing, isName]; rfl
    rw [present]
    exact meets_pure filled
  | some name =>
    rcases head_of_propagatedName isName with ⟨isDefined, head⟩
    have missingIff : isMissing env entry = !envHasName env name := by
      rw [isMissing, isName]
      rfl
    by_cases present : envHasName env name
    · simp only [missingIff, present]
      exact meets_pure filled
    have missing : isMissing env entry := by simpa [missingIff] using present
    rw [if_pos missing]
    have stored : storageHasName state.envp.items name ↔
        definedName entry ∈ (missingEntries processed env).map definedName := by
      rw [storageHasName_iff, isDefined, mem_map]
      refine exists_congr fun other => and_congr_left fun sameName => ?_
      rw [filled.mem_items, mem_append, ← or_assoc, ← mem_append]
      refine ⟨fun isStored => isStored.resolve_left fun isOld => ?_, .inr⟩
      exact present (clear other isOld name sameName head)
    by_cases already : storageHasName state.envp.items name
    · rw [FirstKept.insertNew_of_mem (stored.mp already)]
      simp only [already, Bool.or_true]
      exact meets_pure filled
    · rw [FirstKept.insertNew_of_not_mem fun isKept => already (stored.mpr isKept)]
      simp only [present, already]
      have counted : (missingEntries processed env).length + 1 ≤
          environ.countP (isMissing env) := by
        have before := length_missingEntries_le processed env
        rw [split, countP_append, countP_cons, if_pos missing]
        omega
      have entryRoom : preloads.length + (others ++ missingEntries processed env).length + 1 <
          envCapacity := by
        rw [length_append]
        omega
      apply (meets_addOwned filled (by omega) entry).bind
      intro allocated filled
      apply (meets_checkRoom filled entryRoom).bind
      intro _ _
      apply (meets_writeEntry filled entryRoom entry).bind
      intro after filled
      apply meets_pure
      have other := isPreload_of_head isDefined head
      simpa [other, Nat.add_assoc] using filled.markChanged

end

end Peak.Exec
