import Peak.Registry.Basic
import Peak.Common.Runs

/-!
# Threads and their slots

`src/pthread_listener.c` gives every new thread a slot of the registry. The creator reserves it when
`pthread_create` returns, and the child publishes it. A join, and a scan for detached threads that
have ended, give it back. Between any two calls of the registry other threads may take steps.

No number of a thread is used twice, unlike the handles (`pthread_t`) and the kernel thread
identifiers. The guards of the steps state what the system guarantees about these: a handle is
issued again only when its thread has ended and was joined or detached, a join returns only for a
thread that has ended, and an absent kernel thread identifier belongs to no live thread.
-/

namespace Peak.Pthread

inductive Status where
  | unborn
  | live
  | finished
deriving DecidableEq

/-- `PeakPthreadStartHandshakeState`. -/
inductive Handshake where
  | pending
  | ready
  | abandoned
deriving DecidableEq

/-- Where the creator of a thread is in `pthread_listener_on_leave`. -/
inductive LeaveStage where
  | entered
  | reserved
  | refused
  | settled
  | removing
  | done

/-- Where a thread is in `peak_pthread_start`, or in `pthread_listener_attach` for the thread
that attaches the listener. -/
inductive StartStage where
  | waiting
  | published
  | running
  | inserting
  | inserted

/-- A thread with its `PeakPthreadStartContext`. -/
structure Thread where
  status : Status
  handle : ℕ
  kernelTid : ℤ
  /-- The thread was joined or detached. -/
  released : Bool
  skipTracking : Bool
  detached : Bool
  tracked : Bool
  /-- `slot` and `generation` of the context. -/
  token : Option SlotToken
  handshake : Handshake
  leave : LeaveStage
  stage : StartStage
  /-- `pthread_slot_identity`, while it is valid. -/
  identity : Option SlotToken
  destructorPasses : ℕ

/-- Where a call of `peak_pthread_join`, of `peak_pthread_detach` or of
`pthread_listener_reclaim_detached_slots` is. -/
inductive Call where
  | idle
  | joining (handle : ℕ) (captured : Option SlotToken)
  | joined (token : SlotToken)
  | retiring (token : SlotToken)
  | retired (token : SlotToken) (reusable : Bool)
  | detaching (handle : ℕ) (captured : Option SlotToken)
  | marking (handle : ℕ) (token : SlotToken)
  | scanning (candidates : List DetachedCandidate)
  | absent (token : SlotToken) (candidates : List DetachedCandidate)
  | reclaiming (token : SlotToken) (candidates : List DetachedCandidate)
  | reclaimed (token : SlotToken) (candidates : List DetachedCandidate)
  | deferring (token : SlotToken) (candidates : List DetachedCandidate)

structure Process where
  registry : SlotRegistry ℕ
  threads : ℕ → Thread
  calls : ℕ → Call

inductive Event where
  | create (thread handle : ℕ) (kernelTid : ℤ) (skipTracking detached : Bool)
  | exit (thread : ℕ)
  | insertReserve (thread : ℕ)
  | insertPublish (thread : ℕ) (ok : Bool)
  | abandon (thread : ℕ)
  | startUntracked (thread : ℕ)
  | publish (thread : ℕ) (ok : Bool)
  | markTid (thread : ℕ)
  | destructor (thread : ℕ)
  | leaveReserve (thread : ℕ)
  | leaveMark (thread : ℕ)
  | leaveQuarantine (thread : ℕ)
  | leavePublish (thread : ℕ)
  | leaveRemove (thread : ℕ)
  | joinCapture (call handle : ℕ)
  | joinReturn (call thread : ℕ)
  | joinFail (call : ℕ)
  | retireBegin (call : ℕ)
  | retireMetrics (call : ℕ) (reusable : Bool)
  | retireComplete (call : ℕ)
  | detachCapture (call handle : ℕ)
  | detachReturn (call thread : ℕ)
  | detachFail (call : ℕ)
  | detachMark (call : ℕ)
  | scan (call budget : ℕ)
  | checkAbsent (call : ℕ)
  | checkSkip (call : ℕ)
  | scanEnd (call : ℕ)
  | reclaimBegin (call : ℕ)
  | reclaimComplete (call : ℕ)
  | reclaimDefer (call : ℕ)

def Event.reserves : Event → Bool
  | .insertReserve _ => true
  | .leaveReserve _ => true
  | _ => false

namespace Thread

def unborn : Thread where
  status := .unborn
  handle := 0
  kernelTid := 0
  released := false
  skipTracking := false
  detached := false
  tracked := false
  token := none
  handshake := .pending
  leave := .done
  stage := .running
  identity := none
  destructorPasses := 0

/-- The child of `pthread_create`, with the context made in `pthread_listener_on_enter`. -/
def created (handle : ℕ) (kernelTid : ℤ) (skipTracking detached : Bool) : Thread :=
  { unborn with
    status := .live, handle, kernelTid, released := detached, skipTracking, detached
    leave := .entered, stage := .waiting }

def attaching (handle : ℕ) (kernelTid : ℤ) : Thread :=
  { unborn with status := .live, handle, kernelTid, stage := .inserting }

end Thread

namespace Process

variable (process : Process)

def setThread (thread : ℕ) (state : Thread) : Process :=
  { process with threads := Function.update process.threads thread state }

def setCall (call : ℕ) (state : Call) : Process :=
  { process with calls := Function.update process.calls call state }

def withRegistry (registry : SlotRegistry ℕ) : Process :=
  { process with registry }

/-- `reserve_insert` for the handle of a thread, and what follows in the thread's record. -/
def reserve (thread : ℕ) (found : SlotToken → Thread) (refused : Thread) : Process :=
  match process.registry.reserveInsert (process.threads thread).handle with
  | (some token, registry) => (process.withRegistry registry).setThread thread (found token)
  | (none, registry) => (process.withRegistry registry).setThread thread refused

/-- The reservation in `pthread_listener_insert_thread_unlocked`. -/
def insertReserve (thread : ℕ) : Process :=
  let state := process.threads thread
  process.reserve thread
    (fun token => { state with token := some token, stage := .inserted })
    { state with stage := .running }

/-- The publication in `pthread_listener_insert_thread_unlocked`, undone when it fails. -/
def insertPublish (thread : ℕ) (token : SlotToken) (ok : Bool) : Process :=
  let state := process.threads thread
  if ok then
    process.setThread thread { state with stage := .running, identity := some token }
  else
    (process.withRegistry
      (process.registry.compareRemove state.handle token.generation true).2).setThread thread
      { state with stage := .running }

/-- `pthread_listener_publish_current_slot` in `peak_pthread_start`. -/
def publish (thread : ℕ) (token : SlotToken) (ok : Bool) : Process :=
  let state := process.threads thread
  process.setThread thread
    (if ok then { state with stage := .published, identity := some token }
      else { state with stage := .running })

/-- `mark_kernel_tid` in `peak_pthread_start`. -/
def markTid (thread : ℕ) (token : SlotToken) : Process :=
  let state := process.threads thread
  (process.withRegistry (process.registry.markKernelTid token state.kernelTid).2).setThread thread
    { state with stage := .running }

def destructorIterations : ℕ := 4

def destructor (thread : ℕ) (token : SlotToken) : Process :=
  let state := process.threads thread
  let passed := { state with destructorPasses := state.destructorPasses + 1 }
  if state.destructorPasses + 1 < destructorIterations then process.setThread thread passed
  else
    (process.withRegistry (process.registry.markFinalDestructor token).2.2).setThread thread passed

/-- `pthread_listener_on_leave`: the reservation. -/
def leaveReserve (thread : ℕ) : Process :=
  let state := process.threads thread
  if state.skipTracking then process.setThread thread { state with leave := .refused }
  else
    process.reserve thread
      (fun token => { state with token := some token, tracked := true, leave := .reserved })
      { state with leave := .refused }

/-- `pthread_listener_on_leave`: a child that was created detached is marked. -/
def leaveMark (thread : ℕ) (token : SlotToken) : Process :=
  let state := process.threads thread
  let settled := { state with leave := .settled }
  if state.detached then
    (process.withRegistry
      (process.registry.markDetached state.handle token.generation).2.2).setThread thread settled
  else process.setThread thread settled

/-- `pthread_listener_on_leave`: without a reservation, the handle is forgotten. -/
def leaveQuarantine (thread : ℕ) : Process :=
  let state := process.threads thread
  (process.withRegistry (process.registry.quarantine state.handle).2).setThread thread
    { state with leave := .settled }

/-- `pthread_listener_on_leave`: `publish_ready`. -/
def leavePublish (thread : ℕ) : Process :=
  let state := process.threads thread
  process.setThread thread
    (if state.handshake = .pending then { state with handshake := .ready, leave := .done }
      else { state with leave := if state.tracked then .removing else .done })

/-- `pthread_listener_on_leave`: the reservation of a child that went on without it is given
back. -/
def leaveRemove (thread : ℕ) (token : SlotToken) : Process :=
  let state := process.threads thread
  (process.withRegistry
    (process.registry.compareRemove state.handle token.generation true).2).setThread thread
    { state with tracked := false, leave := .done }

/-- A call goes on with the token it has captured, if any. -/
def release (call thread : ℕ) (captured : Option SlotToken) (next : SlotToken → Call) : Process :=
  (process.setThread thread { process.threads thread with released := true }).setCall call
    (match captured with
      | some token => next token
      | none => .idle)

def beginRetire (call : ℕ) (token : SlotToken) (begun refused : Call) : Process :=
  let (ok, registry) := process.registry.beginRetire token
  (process.withRegistry registry).setCall call (if ok then begun else refused)

def retiredSlot (call : ℕ) : Option ℕ :=
  match process.calls call with
  | .retiring token => some token.slot
  | .reclaiming token _ => some token.slot
  | _ => none

/-- `peak_general_listener_retire_current_thread_slot`, which may fail. -/
def retireMetrics (call : ℕ) (reusable : Bool) : Process :=
  process.setCall call
    (match process.calls call with
      | .retiring token => .retired token reusable
      | .reclaiming token candidates =>
        if reusable then .reclaimed token candidates else .deferring token candidates
      | other => other)

def Holds (thread handle : ℕ) : Prop :=
  (process.threads thread).status ≠ .unborn ∧ (process.threads thread).handle = handle

def Gone (thread : ℕ) : Prop :=
  (process.threads thread).status = .finished ∧ (process.threads thread).released

def TidAbsent (kernelTid : ℤ) : Prop :=
  ∀ thread, (process.threads thread).status = .live → (process.threads thread).kernelTid ≠ kernelTid

def initial (capacity handle : ℕ) (kernelTid : ℤ) : Process where
  registry := .empty capacity
  threads := Function.update (fun _ => .unborn) 0 (.attaching handle kernelTid)
  calls _ := .idle

inductive Step : Process → Event → Process → Prop
  | create {process : Process} {thread handle : ℕ} {kernelTid : ℤ} {skipTracking detached : Bool} :
      (process.threads thread).status = .unborn →
      (∀ other, process.Holds other handle → process.Gone other) →
      process.TidAbsent kernelTid →
      Step process (.create thread handle kernelTid skipTracking detached)
        (process.setThread thread (.created handle kernelTid skipTracking detached))
  | exit {process : Process} {thread : ℕ} :
      (process.threads thread).status = .live →
      Step process (.exit thread)
        (process.setThread thread { process.threads thread with status := .finished })
  | insertReserve {process : Process} {thread : ℕ} :
      (process.threads thread).status = .live → (process.threads thread).stage = .inserting →
      Step process (.insertReserve thread) (process.insertReserve thread)
  | insertPublish {process : Process} {thread : ℕ} {token : SlotToken} {ok : Bool} :
      (process.threads thread).status = .live → (process.threads thread).stage = .inserted →
      (process.threads thread).token = some token →
      Step process (.insertPublish thread ok) (process.insertPublish thread token ok)
  | abandon {process : Process} {thread : ℕ} :
      (process.threads thread).status = .live → (process.threads thread).stage = .waiting →
      (process.threads thread).handshake = .pending →
      Step process (.abandon thread)
        (process.setThread thread
          { process.threads thread with handshake := .abandoned, stage := .running })
  | startUntracked {process : Process} {thread : ℕ} :
      (process.threads thread).status = .live → (process.threads thread).stage = .waiting →
      (process.threads thread).handshake = .ready →
      ((process.threads thread).skipTracking = true ∨ (process.threads thread).tracked = false) →
      Step process (.startUntracked thread)
        (process.setThread thread { process.threads thread with stage := .running })
  | publish {process : Process} {thread : ℕ} {token : SlotToken} {ok : Bool} :
      (process.threads thread).status = .live → (process.threads thread).stage = .waiting →
      (process.threads thread).handshake = .ready →
      (process.threads thread).skipTracking = false → (process.threads thread).tracked →
      (process.threads thread).token = some token →
      Step process (.publish thread ok) (process.publish thread token ok)
  | markTid {process : Process} {thread : ℕ} {token : SlotToken} :
      (process.threads thread).status = .live → (process.threads thread).stage = .published →
      (process.threads thread).token = some token →
      Step process (.markTid thread) (process.markTid thread token)
  | destructor {process : Process} {thread : ℕ} {token : SlotToken} :
      (process.threads thread).status = .live →
      (process.threads thread).identity = some token →
      Step process (.destructor thread) (process.destructor thread token)
  | leaveReserve {process : Process} {thread : ℕ} :
      (process.threads thread).leave = .entered →
      Step process (.leaveReserve thread) (process.leaveReserve thread)
  | leaveMark {process : Process} {thread : ℕ} {token : SlotToken} :
      (process.threads thread).leave = .reserved → (process.threads thread).token = some token →
      Step process (.leaveMark thread) (process.leaveMark thread token)
  | leaveQuarantine {process : Process} {thread : ℕ} :
      (process.threads thread).leave = .refused →
      Step process (.leaveQuarantine thread) (process.leaveQuarantine thread)
  | leavePublish {process : Process} {thread : ℕ} :
      (process.threads thread).leave = .settled →
      Step process (.leavePublish thread) (process.leavePublish thread)
  | leaveRemove {process : Process} {thread : ℕ} {token : SlotToken} :
      (process.threads thread).leave = .removing → (process.threads thread).token = some token →
      Step process (.leaveRemove thread) (process.leaveRemove thread token)
  | joinCapture {process : Process} {call handle : ℕ} :
      process.calls call = .idle →
      Step process (.joinCapture call handle)
        (process.setCall call (.joining handle (process.registry.capture handle)))
  | joinReturn {process : Process} {call thread handle : ℕ} {captured : Option SlotToken} :
      process.calls call = .joining handle captured → process.Holds thread handle →
      (process.threads thread).status = .finished → (process.threads thread).released = false →
      Step process (.joinReturn call thread) (process.release call thread captured .joined)
  | joinFail {process : Process} {call handle : ℕ} {captured : Option SlotToken} :
      process.calls call = .joining handle captured →
      Step process (.joinFail call) (process.setCall call .idle)
  | retireBegin {process : Process} {call : ℕ} {token : SlotToken} :
      process.calls call = .joined token →
      Step process (.retireBegin call) (process.beginRetire call token (.retiring token) .idle)
  | retireMetrics {process : Process} {call : ℕ} {reusable : Bool} :
      (process.retiredSlot call).isSome →
      Step process (.retireMetrics call reusable) (process.retireMetrics call reusable)
  | retireComplete {process : Process} {call : ℕ} {token : SlotToken} {reusable : Bool} :
      process.calls call = .retired token reusable →
      Step process (.retireComplete call)
        ((process.withRegistry
          (process.registry.completeRetire token reusable).2).setCall call .idle)
  | detachCapture {process : Process} {call handle : ℕ} :
      process.calls call = .idle →
      Step process (.detachCapture call handle)
        (process.setCall call (.detaching handle (process.registry.capture handle)))
  | detachReturn {process : Process} {call thread handle : ℕ} {captured : Option SlotToken} :
      process.calls call = .detaching handle captured → process.Holds thread handle →
      (process.threads thread).released = false →
      Step process (.detachReturn call thread)
        (process.release call thread captured (.marking handle))
  | detachFail {process : Process} {call handle : ℕ} {captured : Option SlotToken} :
      process.calls call = .detaching handle captured →
      Step process (.detachFail call) (process.setCall call .idle)
  | detachMark {process : Process} {call handle : ℕ} {token : SlotToken} :
      process.calls call = .marking handle token →
      Step process (.detachMark call)
        ((process.withRegistry
          (process.registry.markDetached handle token.generation).2.2).setCall call .idle)
  | scan {process : Process} {call budget : ℕ} :
      process.calls call = .idle →
      Step process (.scan call budget)
        ((process.withRegistry (process.registry.snapshotExitPending budget).2).setCall call
          (.scanning (process.registry.snapshotExitPending budget).1.1))
  | checkAbsent {process : Process} {call : ℕ} {candidate : DetachedCandidate}
      {candidates : List DetachedCandidate} :
      process.calls call = .scanning (candidate :: candidates) →
      process.TidAbsent candidate.kernelTid →
      Step process (.checkAbsent call) (process.setCall call (.absent candidate.token candidates))
  | checkSkip {process : Process} {call : ℕ} {candidate : DetachedCandidate}
      {candidates : List DetachedCandidate} :
      process.calls call = .scanning (candidate :: candidates) →
      Step process (.checkSkip call) (process.setCall call (.scanning candidates))
  | scanEnd {process : Process} {call : ℕ} :
      process.calls call = .scanning [] →
      Step process (.scanEnd call) (process.setCall call .idle)
  | reclaimBegin {process : Process} {call : ℕ} {token : SlotToken}
      {candidates : List DetachedCandidate} :
      process.calls call = .absent token candidates →
      Step process (.reclaimBegin call)
        (process.beginRetire call token (.reclaiming token candidates) (.scanning candidates))
  | reclaimComplete {process : Process} {call : ℕ} {token : SlotToken}
      {candidates : List DetachedCandidate} :
      process.calls call = .reclaimed token candidates →
      Step process (.reclaimComplete call)
        ((process.withRegistry (process.registry.completeRetire token true).2).setCall call
          (.scanning candidates))
  | reclaimDefer {process : Process} {call : ℕ} {token : SlotToken}
      {candidates : List DetachedCandidate} :
      process.calls call = .deferring token candidates →
      Step process (.reclaimDefer call)
        ((process.withRegistry (process.registry.deferRetire token).2).setCall call
          (.scanning candidates))

abbrev History (capacity handle : ℕ) (kernelTid : ℤ) :=
  Runs Step (initial capacity handle kernelTid)

end Process

end Peak.Pthread
