import Mathlib.Data.Nat.Notation

/-!
# Requests of the application for the reserved signal

One real-time signal is reserved for the signal backend. When the application asks for it the policy
migrates the reservation, unless migration is disabled for the time being. The refusals name the
branch of the source; the source answers `EINVAL` for each of them.
-/

namespace Peak

inductive SignalRefusal where
  | mutexUnavailable
  | notReserved
  | forcedByEnvironment
  | migrationDisabled
  | noCandidate
  | handlerNotInstalled
  | handlerNotRestored
deriving DecidableEq

/-- What the policy reads during one request. `readings` are those of the clock after each pause,
`none` if it fails. -/
structure SignalPolicy where
  enabledForProcess : Bool
  isInternal : Bool
  sigRtMin : ℕ
  sigRtMax : ℕ
  mutexAcquired : Bool
  reservedSignal : ℕ
  envForcesSignal : Bool
  clockStart : Option ℕ
  readings : List (Option ℕ)
  migrationCandidate : Option ℕ
  protectiveHandlerInstalled : Bool
  defaultHandlerRestored : Bool

namespace SignalPolicy

def timeoutNs : ℕ := 100000000

/-- The polling loop of `wait_until_migration_enabled`; `depthAt n` is the depth seen by
the load number `n`. -/
def pollMigrationEnabled (depthAt : ℕ → ℕ) (start : ℕ) : ℕ → List (Option ℕ) → Bool
  | load, [] => depthAt load == 0
  | load, reading :: readings =>
    if depthAt load = 0 then
      true
    else
      match reading with
      | none => false
      | some now =>
        if timeoutNs ≤ now - start then
          depthAt (load + 1) == 0
        else
          pollMigrationEnabled depthAt start (load + 1) readings

def waitUntilMigrationEnabled (policy : SignalPolicy) (depthAt : ℕ → ℕ) : Bool :=
  if depthAt 0 = 0 then
    true
  else
    match policy.clockStart with
    | none => false
    | some start => pollMigrationEnabled depthAt start 1 policy.readings

/-- `migrate_reserved_signal_locked`, answering the signal reserved afterwards. -/
def migrateReservedSignalLocked (policy : SignalPolicy) (depthAt : ℕ → ℕ) (oldSignum : ℕ) :
    Except SignalRefusal ℕ :=
  if oldSignum = 0 then
    .error .notReserved
  else if policy.envForcesSignal then
    .error .forcedByEnvironment
  else if !policy.waitUntilMigrationEnabled depthAt then
    .error .migrationDisabled
  else if policy.reservedSignal ≠ oldSignum then
    .ok policy.reservedSignal
  else if 0 < depthAt (policy.readings.length + 2) then
    .error .migrationDisabled
  else
    match policy.migrationCandidate with
    | none => .error .noCandidate
    | some replacement =>
      if !policy.protectiveHandlerInstalled then
        .error .handlerNotInstalled
      else if !policy.defaultHandlerRestored then
        .error .handlerNotRestored
      else
        .ok replacement

def prepareReservedSignalForUser (policy : SignalPolicy) (depthAt : ℕ → ℕ) (signum : ℕ) :
    Except SignalRefusal ℕ :=
  if !policy.enabledForProcess || policy.isInternal || signum < policy.sigRtMin ||
      policy.sigRtMax < signum then
    .ok policy.reservedSignal
  else if !policy.mutexAcquired then
    .error .mutexUnavailable
  else if signum ≠ policy.reservedSignal then
    .ok policy.reservedSignal
  else
    policy.migrateReservedSignalLocked depthAt signum

/-- `prepare_reserved_set_for_user`; the absent set is the null pointer. -/
def prepareReservedSetForUser (policy : SignalPolicy) (depthAt : ℕ → ℕ)
    (signals : Option (List ℕ)) : Except SignalRefusal ℕ :=
  match signals with
  | none => .ok policy.reservedSignal
  | some members =>
    if !policy.enabledForProcess || policy.isInternal then
      .ok policy.reservedSignal
    else if !policy.mutexAcquired then
      .error .mutexUnavailable
    else if policy.reservedSignal = 0 || !members.contains policy.reservedSignal then
      .ok policy.reservedSignal
    else
      policy.migrateReservedSignalLocked depthAt policy.reservedSignal

variable (policy : SignalPolicy)

theorem waitUntilMigrationEnabled_constant (depth : ℕ) :
    policy.waitUntilMigrationEnabled (fun _ => depth) = (depth == 0) := by
  have polling : ∀ start load readings, depth ≠ 0 →
      pollMigrationEnabled (fun _ => depth) start load readings = false := by
    intro start load readings disabled
    induction readings generalizing load with
    | nil => simp [pollMigrationEnabled, disabled]
    | cons reading _ ih =>
      cases reading with
      | none => simp [pollMigrationEnabled, disabled]
      | some => simp [pollMigrationEnabled, disabled, ih]
  by_cases enabled : depth = 0
  · simp [waitUntilMigrationEnabled, enabled]
  · rw [waitUntilMigrationEnabled, if_neg enabled]
    cases policy.clockStart with
    | none => simp [enabled]
    | some start => simp [enabled, polling start 1 policy.readings enabled]

theorem migrateReservedSignalLocked_enabled (oldSignum : ℕ) :
    policy.migrateReservedSignalLocked (fun _ => 0) oldSignum ≠ .error .migrationDisabled := by
  rw [migrateReservedSignalLocked, waitUntilMigrationEnabled_constant]
  cases policy.migrationCandidate <;> grind

theorem prepareReservedSignalForUser_enabled (signum : ℕ) :
    policy.prepareReservedSignalForUser (fun _ => 0) signum ≠ .error .migrationDisabled := by
  have migrated := policy.migrateReservedSignalLocked_enabled signum
  rw [prepareReservedSignalForUser]
  grind

theorem prepareReservedSetForUser_enabled (signals : Option (List ℕ)) :
    policy.prepareReservedSetForUser (fun _ => 0) signals ≠ .error .migrationDisabled := by
  have migrated := policy.migrateReservedSignalLocked_enabled policy.reservedSignal
  cases signals with
  | none => simp [prepareReservedSetForUser]
  | some =>
    rw [prepareReservedSetForUser]
    grind

end SignalPolicy

end Peak
