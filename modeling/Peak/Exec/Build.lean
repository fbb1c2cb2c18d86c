import Peak.Exec.Preload

/-!
# Building the environment of a new program

A wrapper of an `exec` function gives the new program an environment in which PEAK's library is
preloaded. The given entries are copied, with those for `LD_PRELOAD` replaced by one, and further
entries are appended. If nothing has to be changed, the given environment is used. Allocations
succeed.
-/

namespace Peak.Exec

/-- `peak_exec_cached_ld_library_path`, the value being the one at the start of the process. -/
structure LibraryPathCache where
  value : Option Text
  ready : Bool
  failed : Bool

def LibraryPathCache.entry (cache : LibraryPathCache) : Option Text :=
  cache.value.map fun value => ldLibraryPath ++ '=' :: value

structure Surroundings where
  environ : List Text
  libpeakPath : Option Text
  files : FileSystem
  runtimeIsActive : Bool
  requestsWork : Bool
  secure : Bool
  libraryPath : LibraryPathCache

structure ExecEnv where
  envp : Buffer Text
  ownedStrings : Buffer Text
  changed : Bool
deriving DecidableEq

namespace ExecEnv

variable (built : ExecEnv)

def markChanged : ExecEnv := { built with changed := true }

def addOwned (value : Text) : Except BuildError ExecEnv :=
  if built.ownedStrings.capacity ≤ built.ownedStrings.items.length then
    throw .noRoom
  else do
    let ownedStrings ← built.ownedStrings.write .outOfBounds [value]
    pure { built with ownedStrings := ownedStrings }

def checkRoom : Except BuildError Unit :=
  if built.envp.capacity ≤ built.envp.items.length + 1 then throw .noRoom else pure ()

def writeEntry (entry : Text) : Except BuildError ExecEnv := do
  let envp ← built.envp.write .outOfBounds [entry]
  pure { built with envp := envp }

def copyEntry (entry : Text) : Except BuildError ExecEnv := do
  built.checkRoom
  built.writeEntry entry

end ExecEnv

def nameCapacity : ℕ := 256

/-- The name of an entry in `environ` which may be propagated. It is copied into an array. -/
def peakName (entry : Text) : Except BuildError (Option Text) :=
  if !isPeakEntry entry then
    pure none
  else if nameLen entry ≤ 0 ∨ nameCapacity ≤ (nameLen entry).toNat then
    pure none
  else do
    let name ← (Buffer.allocate nameCapacity).write .outOfBounds (entry.take (nameLen entry).toNat)
    let name ← name.terminate .outOfBounds
    pure (some name.items)

def countMissingPeakEnv (environ env : List Text) : Except BuildError ℕ :=
  environ.foldlM (fun count entry => do
    match ← peakName entry with
    | none => pure count
    | some name => pure (if envHasName env name then count else count + 1)) 0

/-- A round of the loop of `peak_exec_append_missing_peak_env`. -/
def appendIfMissing (env : List Text) (built : ExecEnv) (entry : Text) :
    Except BuildError ExecEnv := do
  match ← peakName entry with
  | none => pure built
  | some name =>
    if envHasName env name || storageHasName built.envp.items name then
      pure built
    else do
      let built ← built.addOwned entry
      built.checkRoom
      let built ← built.writeEntry entry
      pure built.markChanged

def appendMissingPeakEnv (environ env : List Text) (built : ExecEnv) : Except BuildError ExecEnv :=
  environ.foldlM (appendIfMissing env) built

/-- What is known about `LD_PRELOAD` before anything is allocated. -/
structure Preload where
  shouldTouch : Bool
  value : Text
  changed : Bool
  alreadyPresent : Bool

def preloadEntry (value : Text) : Except BuildError Text := do
  let entrySize ← sizeAdd (ldPreload ++ ['=']).length value.length
  let entrySize ← sizeAdd entrySize 1
  let entry ← (Buffer.allocate entrySize).write .outOfBounds (ldPreload ++ '=' :: value)
  let entry ← entry.terminate .outOfBounds
  pure entry.items

def writePreload (value : Text) (built : ExecEnv) : Except BuildError ExecEnv := do
  let entry ← preloadEntry value
  built.checkRoom
  let built ← built.addOwned entry
  let built ← built.writeEntry entry
  pure built.markChanged

/-- A round of the loop over the given environment. The flag is `ld_written`. -/
def copyBaseEntry (preload : Preload) : ExecEnv × Bool → Text → Except BuildError (ExecEnv × Bool)
  | (built, ldWritten), entry =>
    if preload.shouldTouch && entryMatches ldPreload entry then
      if ldWritten then
        pure (built.markChanged, true)
      else if preload.changed then do
        let built ← writePreload preload.value built
        pure (built, true)
      else do
        let built ← built.copyEntry entry
        pure (built, true)
    else do
      let built ← built.copyEntry entry
      pure (built, ldWritten)

/-- Without an entry to replace, the one for `LD_PRELOAD` is added. -/
def addPreload (env : List Text) (preload : Preload) (built : ExecEnv) :
    Except BuildError ExecEnv :=
  if preload.shouldTouch && envNameCount env ldPreload = 0 then writePreload preload.value built
  else pure built

def addLibraryPath (libraryPath : Option Text) (built : ExecEnv) : Except BuildError ExecEnv :=
  match libraryPath with
  | none => pure built
  | some entry => do
      let built ← built.copyEntry entry
      pure built.markChanged

/-- The values of all entries for `LD_PRELOAD`. Every failure to join them leaves no value. -/
def existingPreload (env : List Text) : Except BuildError (Option Text) :=
  match envJoinValues env ldPreload with
  | .error .outOfBounds => throw .outOfBounds
  | .error _ => pure none
  | .ok joined => pure joined

namespace Surroundings

variable (process : Surroundings)

def shouldInjectLibpeak (env : List Text) : Bool :=
  match process.libpeakPath with
  | none => false
  | some libpeakPath =>
    if libpeakPath = [] then
      false
    else
      process.runtimeIsActive || process.requestsWork || envHasPeakEntry process.environ ||
        envHasPeakEntry env ||
        process.files.preloadContainsLibpeak (getenv process.environ ldPreload) libpeakPath

/-- The part of `peak_exec_build_env` for `LD_PRELOAD`. -/
def preparePreload (env : List Text) : Except BuildError Preload :=
  match process.libpeakPath with
  | none => pure ⟨false, [], false, false⟩
  | some libpeakPath =>
    if process.secure || !process.shouldInjectLibpeak env then
      pure ⟨false, [], false, false⟩
    else do
      let existing ← existingPreload env
      if 0 < envNameCount env ldPreload ∧ existing = none then
        throw .enomem
      else do
        let (value, changed) ← process.files.buildLdPreload existing libpeakPath
        pure ⟨true, value, changed, process.files.preloadContainsLibpeak existing libpeakPath⟩

/-- The entry for `LD_LIBRARY_PATH`, if it is added. -/
def addedLibraryPath (preload : Preload) (env : List Text) : Except BuildError (Option Text) :=
  if preload.changed && !preload.alreadyPresent && !envHasName env ldLibraryPath then
    if !process.libraryPath.ready || process.libraryPath.failed then
      throw .enomem
    else
      pure process.libraryPath.entry
  else
    pure none

def missingCount (env : List Text) (propagate : Bool) : Except BuildError ℕ :=
  if propagate then countMissingPeakEnv process.environ env else pure 0

def addMissing (env : List Text) (propagate : Bool) (built : ExecEnv) :
    Except BuildError ExecEnv :=
  if propagate then appendMissingPeakEnv process.environ env built else pure built

/-- The part of `peak_exec_build_env` after the decision that something is built. -/
def fillEnv (env : List Text) (propagate : Bool) (preload : Preload) (libraryPath : Option Text)
    (missing : ℕ) : Except BuildError ExecEnv := do
  let addsPreload := preload.shouldTouch && envNameCount env ldPreload = 0
  let extra ← sizeAdd missing
    ((if addsPreload then 1 else 0) + (if libraryPath.isSome then 1 else 0))
  let envCapacity ← sizeAdd env.length extra
  let envCapacity ← sizeAdd envCapacity 1
  let ownedCapacity ← sizeAdd missing (if preload.shouldTouch && preload.changed then 1 else 0)
  let built : ExecEnv := ⟨Buffer.allocate envCapacity, Buffer.allocate ownedCapacity, false⟩
  let (built, _) ← env.foldlM (copyBaseEntry preload) (built, false)
  let built ← addPreload env preload built
  let built ← addLibraryPath libraryPath built
  let built ← process.addMissing env propagate built
  if built.envp.capacity ≤ built.envp.items.length then
    throw .noRoom
  else do
    let envp ← built.envp.terminate .outOfBounds
    pure { built with envp := envp }

def buildEnv (env : List Text) (chainEnabled propagate : Bool) :
    Except BuildError (Option ExecEnv) :=
  if !chainEnabled then
    pure none
  else if maxEnvEntries < env.length then
    throw .tooBig
  else do
    let preload ← process.preparePreload env
    let missing ← process.missingCount env propagate
    let libraryPath ← process.addedLibraryPath preload env
    if !preload.changed && libraryPath.isNone && missing = 0 && envNameCount env ldPreload ≤ 1 then
      pure none
    else do
      let built ← process.fillEnv env propagate preload libraryPath missing
      pure (some built)

end Surroundings

def envToUse (built : Option ExecEnv) (original : List Text) : List Text :=
  built.elim original (·.envp.items)

end Peak.Exec
