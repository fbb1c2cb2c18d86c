import Mathlib.Data.List.Count
import Peak.Common.Runs
import Peak.Detach.Basic
import Peak.Guard.SignalPolicy

/-!
# The mutation guard across forks

The mutation guard is a recursive mutex. Taking it disables the migration of the reserved signal,
counted for the process, and enters the controller scope of the filesystem-stat guard, counted for
the thread. The `atfork` handlers take it before a fork; the parent releases it, the child
initialises it again. A run follows one process, at a fork into the parent or into the child.
-/

namespace Peak

open Option Function

universe u

/-- The depth and the saturation flag in a thread's filesystem-stat control word. -/
structure StatControl where
  depth : ℕ
  saturated : Bool

namespace StatControl

def zero : StatControl := ⟨0, false⟩

/-- `CONTROL_DEPTH_MASK` has 25 bits. -/
def maxDepth : ℕ := 2 ^ 25 - 1

def enter (control : StatControl) : StatControl :=
  if control.depth = maxDepth then
    { control with saturated := true }
  else if !control.saturated then
    { control with depth := control.depth + 1 }
  else
    control

def leave (control : StatControl) : StatControl :=
  if control.depth ≠ 0 ∧ control.saturated = false then
    { control with depth := control.depth - 1 }
  else
    control

/-- `controller_after_fork_child` clears the depth and the flag. -/
def afterForkChild (control : StatControl) : StatControl :=
  { control with depth := 0, saturated := false }

@[simp]
theorem leave_saturated (control : StatControl) : control.leave.saturated = control.saturated := by
  simp only [leave]
  split <;> rfl

theorem enter_saturated_iff (control : StatControl) :
    control.enter.saturated = false ↔ control.saturated = false ∧ control.depth ≠ maxDepth := by
  simp only [enter]
  split
  · simp_all
  · split <;> simp_all

theorem leave_depth {control : StatControl} (counting : control.saturated = false) :
    control.leave.depth = control.depth - 1 := by
  by_cases zero : control.depth = 0
  · simp [leave, zero]
  · simp [leave, zero, counting]

end StatControl

structure RecursiveMutex (Tid : Type u) where
  owner : Option Tid
  count : ℕ

namespace RecursiveMutex

variable {Tid : Type u} [DecidableEq Tid]

def free : RecursiveMutex Tid := ⟨none, 0⟩

/-- `pthread_mutex_lock`, blocked while another thread owns the mutex. -/
def lock (mutex : RecursiveMutex Tid) (thread : Tid) : Option (RecursiveMutex Tid) :=
  if mutex.owner = none ∨ mutex.owner = some thread then
    some ⟨some thread, mutex.count + 1⟩
  else
    none

/-- `pthread_mutex_unlock`, which fails without effect unless the thread owns the mutex. -/
def unlock (mutex : RecursiveMutex Tid) (thread : Tid) : RecursiveMutex Tid :=
  if mutex.owner = some thread then
    if mutex.count ≤ 1 then free else ⟨some thread, mutex.count - 1⟩
  else
    mutex

end RecursiveMutex

/-- The state touched by the guard and the `atfork` handlers. `inProgress` lists the threads of
unreleased acquisitions. -/
structure GuardProcess (Tid : Type u) where
  mutex : RecursiveMutex Tid
  migrationDisabledDepth : ℕ
  control : Tid → StatControl
  heldMutation : HeldMutation
  helperConnected : Bool
  helperStateFatal : Bool
  signalForwardEffectStarted : Bool
  records : List PatchRecord
  inProgress : List Tid

inductive GuardEvent (Tid : Type u) where
  | acquire (thread : Tid)
  | release (thread : Tid)
  | forkParent (thread : Tid)
  | forkChild (thread : Tid)
deriving DecidableEq

namespace GuardProcess

variable {Tid : Type u} [DecidableEq Tid]

def lockMutationGuard (process : GuardProcess Tid) (thread : Tid) : Option (GuardProcess Tid) :=
  (process.mutex.lock thread).map fun mutex =>
    { process with
      mutex := mutex
      migrationDisabledDepth := process.migrationDisabledDepth + 1
      control := update process.control thread (process.control thread).enter
      inProgress := thread :: process.inProgress }

def unlockMutationGuard (process : GuardProcess Tid) (thread : Tid) : GuardProcess Tid :=
  { process with
    control := update process.control thread (process.control thread).leave
    migrationDisabledDepth := process.migrationDisabledDepth - 1
    mutex := process.mutex.unlock thread
    inProgress := process.inProgress.erase thread }

def atforkPrepare (process : GuardProcess Tid) (thread : Tid) : Option (GuardProcess Tid) :=
  process.lockMutationGuard thread

def atforkParent (process : GuardProcess Tid) (thread : Tid) : GuardProcess Tid :=
  process.unlockMutationGuard thread

/-- The acquisition of the prepare handler is over, and the child has no other threads. The
migration depth is inherited. -/
def atforkChild (process : GuardProcess Tid) (thread : Tid) : GuardProcess Tid :=
  { process with
    helperConnected := false
    helperStateFatal := false
    heldMutation := HeldMutation.zero
    signalForwardEffectStarted := false
    records := List.replicate process.records.length PatchRecord.zero
    mutex := RecursiveMutex.free
    control := update (fun _ => StatControl.zero) thread
      (process.control thread).afterForkChild
    inProgress := (process.inProgress.erase thread).filter (· = thread) }

/-- One event; `none` if it cannot take place. Forks are only taken while no mutation is
held. -/
def step (process : GuardProcess Tid) : GuardEvent Tid → Option (GuardProcess Tid)
  | .acquire thread => process.lockMutationGuard thread
  | .release thread =>
    if thread ∈ process.inProgress then some (process.unlockMutationGuard thread) else none
  | .forkParent thread =>
    if process.heldMutation.active then
      none
    else
      (process.atforkPrepare thread).map (·.atforkParent thread)
  | .forkChild thread =>
    if process.heldMutation.active then
      none
    else
      (process.atforkPrepare thread).map (·.atforkChild thread)

def initial (records : ℕ) : GuardProcess Tid where
  mutex := RecursiveMutex.free
  migrationDisabledDepth := 0
  control := fun _ => StatControl.zero
  heldMutation := HeldMutation.zero
  helperConnected := false
  helperStateFatal := false
  signalForwardEffectStarted := false
  records := List.replicate records PatchRecord.zero
  inProgress := []

def Reached (records : ℕ) : List (GuardEvent Tid) → GuardProcess Tid → Prop :=
  Runs (fun before event after => step before event = some after) (initial records)

inductive Effect (before after : GuardProcess Tid) : GuardEvent Tid → Prop
  | acquire {thread : Tid}
      (depth : after.migrationDisabledDepth = before.migrationDisabledDepth + 1)
      (control : after.control =
        update before.control thread (before.control thread).enter)
      (inProgress : after.inProgress = thread :: before.inProgress)
      (held : after.heldMutation = before.heldMutation) : Effect before after (.acquire thread)
  | release {thread : Tid} (threadMem : thread ∈ before.inProgress)
      (depth : after.migrationDisabledDepth = before.migrationDisabledDepth - 1)
      (control : after.control =
        update before.control thread (before.control thread).leave)
      (inProgress : after.inProgress = before.inProgress.erase thread)
      (held : after.heldMutation = before.heldMutation) : Effect before after (.release thread)
  | forkParent {thread : Tid}
      (depth : after.migrationDisabledDepth = before.migrationDisabledDepth)
      (control : after.control =
        update before.control thread (before.control thread).enter.leave)
      (inProgress : after.inProgress = before.inProgress)
      (held : after.heldMutation = before.heldMutation) : Effect before after (.forkParent thread)
  | forkChild {thread : Tid}
      (depth : after.migrationDisabledDepth = before.migrationDisabledDepth + 1)
      (control : ∀ thread, after.control thread = StatControl.zero)
      (inProgress : after.inProgress = before.inProgress.filter (· = thread))
      (held : after.heldMutation = HeldMutation.zero) : Effect before after (.forkChild thread)

theorem effect_step {before after : GuardProcess Tid} {event : GuardEvent Tid}
    (stepped : before.step event = some after) : Effect before after event := by
  cases event with
  | acquire =>
    rcases map_eq_some_iff.mp stepped with ⟨_, _, rfl⟩
    exact .acquire rfl rfl rfl rfl
  | release =>
    simp only [step, ite_none_right_eq_some, some.injEq] at stepped
    rcases stepped with ⟨threadMem, rfl⟩
    exact .release threadMem rfl rfl rfl rfl
  | forkParent =>
    simp only [step, ite_none_left_eq_some, atforkPrepare, lockMutationGuard,
      map_map, map_eq_some_iff] at stepped
    rcases stepped with ⟨_, _, _, rfl⟩
    refine .forkParent rfl ?_ ?_ rfl
    · simp [atforkParent, unlockMutationGuard]
    · simp [atforkParent, unlockMutationGuard]
  | forkChild thread =>
    simp only [step, ite_none_left_eq_some, atforkPrepare, lockMutationGuard,
      map_map, map_eq_some_iff] at stepped
    rcases stepped with ⟨_, _, _, rfl⟩
    refine .forkChild rfl ?_ ?_ rfl
    · intro other
      by_cases same : other = thread
      · simp [atforkChild, StatControl.afterForkChild, StatControl.zero]
      · simp [atforkChild, same]
    · simp [atforkChild]

end GuardProcess

end Peak
