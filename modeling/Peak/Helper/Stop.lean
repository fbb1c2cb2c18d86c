import Peak.Helper.Basic

/-!
# Stopping the threads of the target

The task directory is scanned until a verification finds no thread that is not held. A thread is
seized, interrupted and waited for, and its program counter is read. A failure releases all threads.
If a thread that just ended may be its cause, the whole snapshot starts again.
-/

namespace Peak

/-- How a part of `stop_target_threads` ends early. -/
inductive StopEnd where
  | answer (status : HelperStatus) (errno : Option Errno)
  | restart

structure HelperResponse where
  status : HelperStatus
  errno : Option Errno
  snapshots : List ThreadSnapshot
deriving DecidableEq

def stopTimeout : ℕ := 5000

def stopSnapshotErrorIsRetryable (status : HelperStatus) (errno : Errno) : Bool :=
  (status = .ptraceError || status = .registerError) &&
    (errno = .esrch || errno = .eagain || errno = .eintr || errno = .eio)

/-- The status for the errors of `opendir` and of the first two `ptrace` calls. -/
def deniedStatus (errno : Errno) : HelperStatus :=
  if errno = .eacces ∨ errno = .eperm then .permissionDenied else .ptraceError

namespace Kernel

variable (kernel : Kernel)

def cleanupOrRetryStopSnapshot (deadline : ℕ) (intended : HelperStatus) (errno : Errno) :
    HelperM StopEnd := do
  let (status, cleaned) ← kernel.cleanupHeldThreadsOrReleaseFailed intended (some errno)
  if status ≠ intended then
    pure (.answer status cleaned)
  else if !stopSnapshotErrorIsRetryable intended errno then
    pure (.answer status cleaned)
  else do
    let now ← ask kernel.clock
    if deadline ≤ now then
      pure (.answer .timeout (some .etimedout))
    else
      pure .restart

/-- The loop of `wait_for_ptrace_stop`: the signal to deliver when the thread is detached. -/
def waitForPtraceStop (tid : ℤ) (deadline : ℕ) : ℕ → HelperM (Except Errno ℕ)
  | 0 => throw .outOfRounds
  | rounds + 1 => do
      match ← ask kernel.wait with
      | .failed errno =>
        if errno = .eintr then waitForPtraceStop tid deadline rounds
        else pure (.error errno)
      | .nothing => do
          let now ← ask kernel.clock
          if deadline ≤ now then
            pure (.error .etimedout)
          else do
            match ← ask kernel.sleep with
            | none | some .eintr => waitForPtraceStop tid deadline rounds
            | some .eagain => pure (.error .etimedout)
            | some errno => pure (.error errno)
      | .stopped signal eventStop => do
          modify (·.stop tid)
          pure (.ok (if eventStop then 0 else signal))
      | .ended => pure (.error .esrch)
      | .other => waitForPtraceStop tid deadline rounds

def stopThread (rounds deadline : ℕ) (tid : ℤ) : HelperM (Except StopEnd ThreadSnapshot) := do
  match ← ask kernel.seize with
  | some errno =>
    .error <$> kernel.cleanupOrRetryStopSnapshot deadline (deniedStatus errno) errno
  | none => do
      modify (·.hold tid)
      match ← ask kernel.interrupt with
      | some errno =>
        .error <$> kernel.cleanupOrRetryStopSnapshot deadline (deniedStatus errno) errno
      | none => do
          let now ← ask kernel.clock
          match ← kernel.waitForPtraceStop tid (now + stopTimeout) rounds with
          | .error errno =>
            .error <$> kernel.cleanupOrRetryStopSnapshot deadline
              (if errno = .etimedout then .timeout else .ptraceError) errno
          | .ok signal => do
              modify (·.setSignal tid signal)
              match ← kernel.readPc tid with
              | .error errno =>
                .error <$> kernel.cleanupOrRetryStopSnapshot deadline .registerError errno
              | .ok pc => pure (.ok ⟨tid, .ok, pc⟩)

def releaseAndAnswer (intended : HelperStatus) (errno : Errno) : HelperM StopEnd := do
  let (status, cleaned) ← kernel.cleanupHeldThreadsOrReleaseFailed intended (some errno)
  pure (.answer status cleaned)

/-- The inner loop of `stop_target_threads` over an open directory. -/
def scanTasks (limit deadline : ℕ) (controllerTid : ℤ) :
    ℕ → List ThreadSnapshot → HelperM (Except StopEnd (List ThreadSnapshot))
  | 0, _ => throw .outOfRounds
  | rounds + 1, snapshots => do
      match ← ask kernel.readTasks with
      | .done none => pure (.ok snapshots)
      | .done (some errno) => .error <$> kernel.releaseAndAnswer .ptraceError errno
      | .entry none => scanTasks limit deadline controllerTid rounds snapshots
      | .entry (some tid) => do
          let helper ← get
          if tid = controllerTid ∨ helper.isHeld tid then
            scanTasks limit deadline controllerTid rounds snapshots
          else if maxThreads ≤ snapshots.length ∨ maxThreads ≤ helper.held.length then
            .error <$> kernel.releaseAndAnswer .threadLimit .e2big
          else do
            match ← kernel.stopThread limit deadline tid with
            | .error ended => pure (.error ended)
            | .ok snapshot =>
              scanTasks limit deadline controllerTid rounds (snapshots ++ [snapshot])

/-- The outer loop of `stop_target_threads`, with `*errno_out`. A directory that cannot be opened
ends it without a release. -/
def scanUntilStopped (limit deadline : ℕ) (controllerTid : ℤ) :
    ℕ → List ThreadSnapshot → Option Errno → HelperM (Except StopEnd HelperResponse)
  | 0, _, _ => throw .outOfRounds
  | rounds + 1, snapshots, errnoOut => do
      match ← ask kernel.openTasks with
      | some errno => do
          modify fun helper => helper.note (.refused helper.attached)
          pure (.error (.answer (deniedStatus errno) (some errno)))
      | none => do
          match ← kernel.scanTasks limit deadline controllerTid limit snapshots with
          | .error ended => pure (.error ended)
          | .ok snapshots => do
              match ← kernel.verifyNoUnstoppedThreads limit controllerTid with
              | none => pure (.ok ⟨.ok, errnoOut, snapshots⟩)
              | some errno =>
                if errno = .eagain then do
                  let now ← ask kernel.clock
                  if deadline ≤ now then
                    .error <$> kernel.releaseAndAnswer .timeout .etimedout
                  else
                    scanUntilStopped limit deadline controllerTid rounds snapshots (some errno)
                else
                  .error <$> kernel.releaseAndAnswer .ptraceError errno

/-- `stop_target_threads` from the label `restart_stop_snapshot` on, up to the response. -/
def stopSnapshot (limit deadline : ℕ) (controllerTid : ℤ) : ℕ → HelperM HelperResponse
  | 0 => throw .outOfRounds
  | rounds + 1 => do
      let (status, errno) ← kernel.cleanupHeldThreadsOrReleaseFailed .ok none
      if status ≠ .ok then
        pure ⟨.releaseFailed, errno, []⟩
      else do
        match ← kernel.scanUntilStopped limit deadline controllerTid limit [] none with
        | .ok response => pure response
        | .error (.answer status errno) => pure ⟨status, errno, []⟩
        | .error .restart => stopSnapshot limit deadline controllerTid rounds

def sendFailure (snapshots : List ThreadSnapshot) : HelperM (Option Errno) := do
  match ← ask kernel.send with
  | some errno => pure (some errno)
  | none => if snapshots = [] then pure none else ask kernel.send

/-- The response and the snapshots are sent, or all threads are released. -/
def sendSnapshots (response : HelperResponse) : HelperM HelperResponse := do
  match ← kernel.sendFailure response.snapshots with
  | none => pure response
  | some errno => do
      let (status, errno) ← kernel.cleanupHeldThreadsOrReleaseFailed .protocolError (some errno)
      pure ⟨status, errno, []⟩

def stopTargetThreads (limit : ℕ) (controllerTid : ℤ) : HelperM HelperResponse := do
  let now ← ask kernel.clock
  let response ← kernel.stopSnapshot limit (now + stopTimeout) controllerTid limit
  if response.status = .ok then kernel.sendSnapshots response else pure response

end Kernel

end Peak
