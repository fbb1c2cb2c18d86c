import Peak.Common.Program
import Peak.Detach.Batch

/-!
# State and environment of the detach controller

The globals of `src/detach_controller.c` which a mutation transaction reads or writes, with the two
counters it drives in `src/signal_policy.c` and `src/filesystem_stat_guard.c`. What the environment
decides during a call is a `CallEnvironment`.

The controller does not see which threads are stopped, nor the bytes of the code. These are in the
state as `heldBy` and `memory`: a backend that stops the threads holds them until it resumes them,
reports a failure or is closed, and it performs the planned writes iff it reports the evacuation as
successful. `windows` counts the stop windows without saturation.
-/

namespace Peak

inductive HelperStatus where
  | ok
  | protocolError
  | unsupported
  | permissionDenied
  | threadLimit
  | ptraceError
  | registerError
  | timeout
  | releaseFailed
deriving DecidableEq

def HelperStatus.code : HelperStatus → ℕ
  | ok => 0
  | protocolError => 1
  | unsupported => 2
  | permissionDenied => 3
  | threadLimit => 4
  | ptraceError => 5
  | registerError => 6
  | timeout => 7
  | releaseFailed => 8

def HelperStatus.toDetachStatus : HelperStatus → DetachStatus
  | ok => .safe
  | permissionDenied => .permissionDenied
  | unsupported | threadLimit => .unsupported
  | timeout => .timeout
  | releaseFailed | protocolError | ptraceError | registerError => .error

inductive RequestedBackend where
  | auto
  | helper
  | signal
deriving DecidableEq

def DetachStatus.allowsAutoSignalFallback (status : DetachStatus) : Bool :=
  status == .permissionDenied || status == .timeout || status == .unsupported

/-- An exchange with the helper: a protocol failure, or the status of its response. -/
inductive HelperReply where
  | ioFailure (status : DetachStatus)
  | answered (status : HelperStatus)

inductive HelperStopReply where
  | writeFailure (status : DetachStatus) (errno : ℕ)
  | responseFailure (status : DetachStatus)
  | refused (status : HelperStatus) (errno : ℕ)
  | snapshotFailure (status : DetachStatus)
  | stopped (threads : List ThreadSnapshot)

inductive SignalStopReply where
  | stopped (threads : List ThreadSnapshot)
  | failed (status : DetachStatus)
  | fatal (reason : String) (status : DetachStatus)

/-- The outcome of an evacuation by signals. -/
inductive SignalEvacuateReply where
  | done (stepped : Bool)
  | failed (status : DetachStatus) (forwardEffect : Bool)
  | fatal (reason : String) (status : DetachStatus)

def eagain : ℕ := 11

/-- The places where a call checks for unexpected deliveries of the reserved signal. -/
inductive SignalCheck where
  | beforePlan
  | afterEvacuate
  | beforeRelease
  | release
  | resume

/-- What the environment decides during one call. The failure details that the backends note for
their own failures are left out. -/
structure CallEnvironment where
  requestedBackend : RequestedBackend
  autoUsesSignal : Bool
  interceptors : ℕ → GumInterceptor
  breakpointCanEvac : Bool
  ensureSignal : Except DetachStatus Unit
  ensureHelper : Except DetachStatus Unit
  ensureSignalInstead : Except DetachStatus Unit
  ensureSignalAfterStop : Except DetachStatus Unit
  helperDrained : Bool
  helperStop : HelperStopReply
  signalDrained : Bool
  signalStop : SignalStopReply
  contaminated : SignalCheck → Bool
  helperEvacuate : HelperReply
  signalEvacuate : SignalEvacuateReply
  helperResume : HelperReply
  signalRelease : Except DetachStatus Unit
  helperShutdown : HelperReply
  candidatesAllocated : Bool
  snapshotAllocated : Bool
  startTime : ℕ
  startTime_pos : 0 < startTime
  endTime : ℕ

/-- The stop windows by their outcome. -/
structure StopWindows where
  started : ℕ
  completed : ℕ
  failed : ℕ

structure Controller where
  heldMutation : HeldMutation
  heldMutationStartedAt : ℕ
  helperStateFatal : Bool
  helperConnected : Bool
  records : List PatchRecord
  threadGateEpoch : ℕ
  threadGate : ℕ
  migrationDisabledDepth : ℕ
  statControllerDepth : ℕ
  statGateClosed : Bool
  signalHold : Bool
  signalForwardEffectStarted : Bool
  completedStopWindowCount : ℕ
  failedStopWindowCount : ℕ
  stopWindowWallNs : ℕ
  lastStopWindowNs : ℕ
  heldBy : HoldBackend
  memory : ℕ → UInt8
  windows : StopWindows

/-- The reason printed by `mark_helper_fatal`, which ends the process. -/
structure FatalExit where
  reason : String
  status : DetachStatus

/-- Code of the controller, which may end the process. -/
abbrev ControllerM := Program Controller FatalExit

def markHelperFatal {α : Type} (reason : String) (status : DetachStatus) : ControllerM α :=
  throw ⟨reason, status⟩

def lockMutationGuard : ControllerM Unit :=
  modify fun controller =>
    { controller with
      migrationDisabledDepth := controller.migrationDisabledDepth + 1
      statControllerDepth := controller.statControllerDepth + 1 }

def unlockMutationGuard : ControllerM Unit :=
  modify fun controller =>
    { controller with
      statControllerDepth := controller.statControllerDepth - 1
      migrationDisabledDepth := controller.migrationDisabledDepth - 1 }

def beginThreadCreationGate : ControllerM Unit :=
  modify fun controller =>
    let next := controller.threadGateEpoch + 1
    let epoch := if 2 ^ 31 ≤ next then 1 else next
    { controller with threadGateEpoch := epoch, threadGate := epoch }

def endThreadCreationGate : ControllerM Unit :=
  modify fun controller => { controller with threadGate := 0 }

/-- `peak_filesystem_stat_guard_try_stop`: the gate is closed if the readers drained in
time and nobody else closed it. -/
def filesystemStatTryStop (drained : Bool) : ControllerM Bool := do
  let controller ← get
  if drained && !controller.statGateClosed then
    modify fun controller => { controller with statGateClosed := true }
    return true
  else
    return false

def filesystemStatResume : ControllerM Unit :=
  modify fun controller => { controller with statGateClosed := false }

def addSaturated (counter delta : ℕ) : ℕ :=
  let maxPublished := 2 ^ 64 - 2
  if 0 < delta ∧ counter < maxPublished then
    if maxPublished - counter < delta then maxPublished else counter + delta
  else
    counter

def noteStopWindowStarted (environment : CallEnvironment) : ControllerM Unit :=
  modify fun controller =>
    { controller with
      heldMutationStartedAt := environment.startTime
      windows := { controller.windows with started := controller.windows.started + 1 } }

def noteStopWindowFinished (environment : CallEnvironment) : ControllerM Unit :=
  modify fun controller =>
    let elapsed := min (environment.endTime - controller.heldMutationStartedAt) (2 ^ 64 - 2)
    if controller.heldMutationStartedAt = 0 then
      controller
    else
      { controller with
        stopWindowWallNs := addSaturated controller.stopWindowWallNs elapsed
        completedStopWindowCount := addSaturated controller.completedStopWindowCount 1
        lastStopWindowNs := elapsed
        heldMutationStartedAt := 0
        windows := { controller.windows with completed := controller.windows.completed + 1 } }

def noteStopWindowFailed (environment : CallEnvironment) : ControllerM Unit :=
  modify fun controller =>
    let elapsed := min (environment.endTime - controller.heldMutationStartedAt) (2 ^ 64 - 2)
    if controller.heldMutationStartedAt = 0 then
      controller
    else
      { controller with
        stopWindowWallNs := addSaturated controller.stopWindowWallNs elapsed
        failedStopWindowCount := addSaturated controller.failedStopWindowCount 1
        heldMutationStartedAt := 0
        windows := { controller.windows with failed := controller.windows.failed + 1 } }

/-- `close_helper`: the helper is reaped, so that it holds no threads any more. -/
def closeHelper : ControllerM Unit :=
  modify fun controller =>
    { controller with
      helperConnected := false
      heldBy := if controller.heldBy = .helper then .none else controller.heldBy }

def ensureHelper (environment : CallEnvironment) : ControllerM (Except PlanFailure Unit) := do
  let controller ← get
  if controller.helperConnected then
    return .ok ()
  else
    match environment.ensureHelper with
    | .error status => return .error ⟨status, none⟩
    | .ok () =>
      modify fun controller => { controller with helperConnected := true }
      return .ok ()

/-- `stop_threads_impl`. A refusing helper has released the threads. -/
def stopThreadsImpl (environment : CallEnvironment) :
    ControllerM (Except PlanFailure (List ThreadSnapshot)) := do
  match environment.helperStop with
  | .writeFailure status errno =>
    closeHelper
    return .error ⟨status, some ⟨"helper-stop-write", 0, errno, 0⟩⟩
  | .responseFailure status => markHelperFatal "stop response failure" status
  | .refused status errno =>
    if status = .releaseFailed then
      markHelperFatal "stop cleanup failure" .error
    else
      let reported :=
        if status = .ptraceError ∧ errno = eagain then .timeout else status.toDetachStatus
      return .error ⟨reported, some ⟨"helper-stop-status", 0, errno, status.code⟩⟩
  | .snapshotFailure status => markHelperFatal "stop snapshot failure" status
  | .stopped threads =>
    modify fun controller => { controller with heldBy := .helper }
    return .ok threads

def stopThreads (environment : CallEnvironment) :
    ControllerM (Except PlanFailure (List ThreadSnapshot)) := do
  if ← filesystemStatTryStop environment.helperDrained then
    match ← stopThreadsImpl environment with
    | .error failure =>
      filesystemStatResume
      return .error failure
    | .ok threads => return .ok threads
  else
    return .error ⟨.filesystemStatBusy, none⟩

def applyWrites (memory : ℕ → UInt8) : List Instruction → ℕ → UInt8
  | [] => memory
  | .writeMemory address bytes :: instructions =>
    applyWrites
      (fun location => if address ≤ location ∧ location < address + bytes.length then
        bytes.getD (location - address) 0 else memory location)
      instructions
  | _ :: instructions => applyWrites memory instructions

/-- `send_evacuate`. The helper has released the threads before it reports one of the
accepted errors. -/
def sendEvacuate (environment : CallEnvironment) (instructions : List Instruction) :
    ControllerM (Except PlanFailure Unit) := do
  match environment.helperEvacuate with
  | .ioFailure status => markHelperFatal "held helper protocol failure" status
  | .answered .ok =>
    modify fun controller =>
      { controller with memory := applyWrites controller.memory instructions }
    return .ok ()
  | .answered .releaseFailed => markHelperFatal "stop cleanup failure" .error
  | .answered .protocolError => markHelperFatal "evacuate cleanup unproven" .error
  | .answered status =>
    modify fun controller => { controller with heldBy := .none }
    filesystemStatResume
    return .error ⟨status.toDetachStatus, none⟩

/-- `send_resume`. A failure is reported to callers that end the process. -/
def sendResume (environment : CallEnvironment) : ControllerM (Except PlanFailure Unit) := do
  match environment.helperResume with
  | .ioFailure status => markHelperFatal "held helper protocol failure" status
  | .answered .ok =>
    modify fun controller => { controller with heldBy := .none }
    return .ok ()
  | .answered .releaseFailed => markHelperFatal "stop cleanup failure" .error
  | .answered status => return .error ⟨status.toDetachStatus, none⟩

/-- `send_shutdown` with `close_on_io_failure`. -/
def sendShutdown (environment : CallEnvironment) : ControllerM (Except PlanFailure Unit) := do
  match environment.helperShutdown with
  | .ioFailure status =>
    closeHelper
    return .error ⟨status, none⟩
  | .answered .ok =>
    closeHelper
    return .ok ()
  | .answered .releaseFailed => markHelperFatal "stop cleanup failure" .error
  | .answered status =>
    closeHelper
    return .error ⟨status.toDetachStatus, none⟩

def signalCheckContamination (environment : CallEnvironment) (check : SignalCheck) :
    ControllerM Bool := do
  let controller ← get
  if !environment.contaminated check then
    return true
  else if controller.signalForwardEffectStarted then
    markHelperFatal "signal contamination after forward effect" .unsupported
  else
    return false

/-- `signal_stop_threads`, with the failures of `signal_stop_threads_impl` after it
released every stopped thread. -/
def signalStopThreads (environment : CallEnvironment) :
    ControllerM (Except PlanFailure (List ThreadSnapshot)) := do
  if ← filesystemStatTryStop environment.signalDrained then
    modify fun controller => { controller with signalForwardEffectStarted := false }
    match environment.signalStop with
    | .fatal reason status => markHelperFatal reason status
    | .failed status =>
      filesystemStatResume
      return .error ⟨status, none⟩
    | .stopped threads =>
      modify fun controller => { controller with signalHold := true, heldBy := .signal }
      return .ok threads
  else
    return .error ⟨.filesystemStatBusy, none⟩

/-- `signal_release`. A failed release is reported to callers that end the process. -/
def signalRelease (environment : CallEnvironment) : ControllerM (Except PlanFailure Unit) := do
  let _ ← signalCheckContamination environment .release
  let controller ← get
  if !controller.signalHold then
    return .ok ()
  else
    filesystemStatResume
    match environment.signalRelease with
    | .error status => return .error ⟨status, none⟩
    | .ok () =>
      modify fun controller => { controller with signalHold := false, heldBy := .none }
      return .ok ()

def signalReleaseOrFatal (environment : CallEnvironment) (reason : String) :
    ControllerM Unit := do
  let _ ← signalCheckContamination environment .beforeRelease
  match ← signalRelease environment with
  | .error failure => markHelperFatal reason failure.status
  | .ok () => return ()

/-- `signal_evacuate`: only a successful evacuation writes. Writes and rewritten program counters
start the forward effect. -/
def signalEvacuate (environment : CallEnvironment) (instructions : List Instruction) :
    ControllerM (Except PlanFailure Unit) := do
  match environment.signalEvacuate with
  | .fatal reason status => markHelperFatal reason status
  | .failed status forwardEffect =>
    modify fun controller => { controller with signalForwardEffectStarted := forwardEffect }
    return .error ⟨status, none⟩
  | .done stepped =>
    let effect := instructions.any fun
      | .setPc .. | .writeMemory .. => true
      | .singleStepOutOfRange .. => false
    modify fun controller =>
      { controller with
        signalForwardEffectStarted := stepped || effect
        memory := applyWrites controller.memory instructions }
    return .ok ()

/-- `signal_check_contamination`, if the threads are held by the signal backend. -/
def checkContamination (environment : CallEnvironment) (backend : HoldBackend)
    (check : SignalCheck) : ControllerM Bool := do
  if backend = .signal then
    signalCheckContamination environment check
  else
    return true

def releaseBackend (environment : CallEnvironment) (backend : HoldBackend) :
    ControllerM (Except PlanFailure Unit) :=
  if backend = .signal then signalRelease environment else sendResume environment

def resumeBackend (environment : CallEnvironment) (backend : HoldBackend) :
    ControllerM (Except PlanFailure Unit) := do
  let _ ← checkContamination environment backend .resume
  filesystemStatResume
  match ← releaseBackend environment backend with
  | .error failure => return .error failure
  | .ok () =>
    filesystemStatResume
    return .ok ()

def evacuateBackend (environment : CallEnvironment) (backend : HoldBackend)
    (instructions : List Instruction) : ControllerM (Except PlanFailure Unit) := do
  if backend = .signal then
    match ← signalEvacuate environment instructions with
    | .ok () => return .ok ()
    | .error failure =>
      let controller ← get
      if controller.signalForwardEffectStarted then
        markHelperFatal "signal evacuation incomplete after forward effect" failure.status
      else
        return .error failure
  else
    sendEvacuate environment instructions

end Peak
