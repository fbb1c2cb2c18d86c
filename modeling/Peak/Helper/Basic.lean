import Peak.Controller.Basic

/-!
# The detach helper and the kernel

The helper is a process of its own which stops the threads of the target with `ptrace` and patches
its code. A `Kernel` answers its system calls, by the number of calls made so far, with any success
or failure.

The state holds the globals of `src/detach_helper.c` and what the kernel has granted: the attached
threads, those of them which reported a stop since they last ran, and the log of the request in
progress. Loops whose end is up to the kernel have a bound on their rounds, beyond which the helper
is silent.
-/

namespace Peak

inductive Errno where
  | eperm
  | enoent
  | esrch
  | eintr
  | eio
  | e2big
  | eagain
  | eacces
  | einval
  | eproto
  | etimedout
  | other (code : ℕ)
deriving DecidableEq

/-- An entry of a task directory with the thread id in its name, or the end of the
directory. -/
inductive TaskEntry where
  | entry (tid : Option ℤ)
  | done (errno : Option Errno)

/-- What `waitpid` reports. `eventStop` marks a `PTRACE_EVENT_STOP`. -/
inductive WaitAnswer where
  | failed (errno : Errno)
  | nothing
  | stopped (signal : ℕ) (eventStop : Bool)
  | ended
  | other

/-- The answers of the kernel to the helper, by the number of calls before. `stack` are the bytes
that an array on the stack happens to hold. -/
structure Kernel where
  clock : ℕ → ℕ
  openTasks : ℕ → Option Errno
  readTasks : ℕ → TaskEntry
  openStatus : ℕ → Option Errno
  seize : ℕ → Option Errno
  interrupt : ℕ → Option Errno
  singleStep : ℕ → Option Errno
  detach : ℕ → Option Errno
  wait : ℕ → WaitAnswer
  sleep : ℕ → Option Errno
  getRegisters : ℕ → Except Errno ℕ
  setRegisters : ℕ → Option Errno
  writeProcMem : ℕ → Except Errno ℕ
  readProcMem : ℕ → Except Errno (List UInt8)
  peekText : ℕ → Except Errno (Vector UInt8 8)
  pokeText : ℕ → Option Errno
  stack : ℕ → Vector UInt8 32
  send : ℕ → Option Errno

structure HeldThread where
  tid : ℤ
  attached : Bool
  detachSignal : ℕ
deriving DecidableEq

inductive InstructionAction where
  | setPc
  | writeMemory
  | singleStepOutOfRange
  | other (code : ℕ)
deriving DecidableEq

/-- `PeakDetachHelperInstruction`, as it is read from the connection. -/
structure HelperInstruction where
  tid : ℤ
  action : InstructionAction
  pc : UInt64
  address : UInt64
  size : ℕ
  bytes : Vector UInt8 32
deriving DecidableEq

/-- The memory accesses for one write instruction, and whether one was left to `ptrace`. -/
structure MemoryRecord where
  instruction : HelperInstruction
  written : List (UInt8 × ℕ)
  readBack : List (UInt8 × ℕ)
  writeFellBack : Bool
  readFellBack : Bool
deriving DecidableEq

/-- What the log of a request records: with a program counter, whether its thread was stopped; with
a refused directory, the attached threads. -/
inductive HelperEvent where
  | registers (tid : ℤ) (pc : ℕ) (stopped : Bool)
  | listed (tids : List ℤ)
  | refused (attached : List ℤ)
  | setPc (tid : ℤ) (pc : ℕ)
  | wrote (record : MemoryRecord)
deriving DecidableEq

structure Helper where
  held : List HeldThread
  boundPid : ℤ
  exitCode : Option ℕ
  calls : ℕ
  attached : List ℤ
  stopped : List ℤ
  log : List HelperEvent
deriving DecidableEq

namespace Helper

def start : Helper where
  held := []
  boundPid := 0
  exitCode := none
  calls := 0
  attached := []
  stopped := []
  log := []

def isHeld (helper : Helper) (tid : ℤ) : Bool :=
  helper.held.any (·.tid == tid)

def hold (helper : Helper) (tid : ℤ) : Helper :=
  { helper with
    held := helper.held ++ [⟨tid, true, 0⟩]
    attached := helper.attached ++ [tid] }

def drop (helper : Helper) (tid : ℤ) : Helper :=
  { helper with
    attached := helper.attached.filter (· ≠ tid)
    stopped := helper.stopped.filter (· ≠ tid) }

def stop (helper : Helper) (tid : ℤ) : Helper :=
  { helper with stopped := tid :: helper.stopped }

def run (helper : Helper) (tid : ℤ) : Helper :=
  { helper with stopped := helper.stopped.filter (· ≠ tid) }

def setHeld (helper : Helper) (held : List HeldThread) : Helper :=
  { helper with held := held }

def setSignal (helper : Helper) (tid : ℤ) (signal : ℕ) : Helper :=
  helper.setHeld (helper.held.map fun thread =>
    if thread.tid = tid then { thread with detachSignal := signal } else thread)

def note (helper : Helper) (event : HelperEvent) : Helper :=
  { helper with log := helper.log ++ [event] }

/-- The process exits. The kernel then releases the threads that are still attached. -/
def exit (helper : Helper) (code : ℕ) : Helper :=
  { helper with exitCode := some code, attached := [], stopped := [] }

end Helper

inductive Silent where
  | outOfRounds
deriving DecidableEq

abbrev HelperM := Program Helper Silent

def ask {α : Type} (answer : ℕ → α) : HelperM α := fun helper =>
  .ok (answer helper.calls, { helper with calls := helper.calls + 1 })

namespace Kernel

variable (kernel : Kernel)

/-- A failed `PTRACE_DETACH` leaves the thread attached unless the task itself is gone. -/
def taskVanished (errno : Errno) : HelperM Bool :=
  if errno = .esrch then do
    let opened ← ask kernel.openStatus
    pure (opened = some .enoent)
  else
    pure false

/-- The loop of `detach_held_threads`: the threads which it could not release, and the first
error. -/
def detachEach : List HeldThread → HelperM (List HeldThread × Option Errno)
  | [] => pure ([], none)
  | thread :: threads =>
    if thread.attached then do
      match ← ask kernel.detach with
      | none => do
          modify (·.drop thread.tid)
          detachEach threads
      | some errno => do
          if ← kernel.taskVanished errno then do
            modify (·.drop thread.tid)
            detachEach threads
          else do
            let (retained, _) ← detachEach threads
            pure (thread :: retained, some errno)
    else
      detachEach threads

def detachHeldThreads : HelperM (HelperStatus × Option Errno) := do
  let helper ← get
  let (retained, errno) ← kernel.detachEach helper.held
  modify (·.setHeld retained)
  pure (if retained = [] then .ok else .ptraceError, errno)

def cleanupHeldThreadsOrReleaseFailed (intended : HelperStatus) (errno : Option Errno) :
    HelperM (HelperStatus × Option Errno) := do
  let helper ← get
  if helper.held = [] then
    pure (intended, errno)
  else do
    let (status, cleanupErrno) ← kernel.detachHeldThreads
    if status = .ok then
      pure (intended, errno)
    else
      pure (.releaseFailed, errno <|> cleanupErrno)

/-- The loop of `verify_no_unstopped_threads` over an open directory, with the thread ids listed so
far, up to its error. -/
def verifyEach (controllerTid : ℤ) : ℕ → List ℤ → HelperM (Option Errno)
  | 0, _ => throw .outOfRounds
  | rounds + 1, tids => do
      match ← ask kernel.readTasks with
      | .done none => do
          modify (·.note (.listed tids))
          pure none
      | .done (some errno) => pure (some errno)
      | .entry none => verifyEach controllerTid rounds tids
      | .entry (some tid) => do
          let helper ← get
          if tid ≠ controllerTid ∧ !helper.isHeld tid then
            pure (some .eagain)
          else
            verifyEach controllerTid rounds (tids ++ [tid])

/-- All errors have the status `PTRACE_ERROR`. -/
def verifyNoUnstoppedThreads (rounds : ℕ) (controllerTid : ℤ) : HelperM (Option Errno) := do
  match ← ask kernel.openTasks with
  | some errno => pure (some errno)
  | none => kernel.verifyEach controllerTid rounds []

/-- `peak_regs_get` followed by `peak_regs_pc`. -/
def readPc (tid : ℤ) : HelperM (Except Errno ℕ) := do
  match ← ask kernel.getRegisters with
  | .error errno => pure (.error errno)
  | .ok pc => do
      let helper ← get
      modify (·.note (.registers tid pc (helper.stopped.contains tid)))
      pure (.ok pc)

end Kernel

end Peak
