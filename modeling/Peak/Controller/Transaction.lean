import Peak.Controller.Basic
import Peak.Common.Machine

/-!
# Mutation transactions of the detach controller

`prepare_hook_mutation`, `prepare_hook_mutation_batch`, `finish_hook_mutation` and
`shutdown_helper` in strict mode, with all their exits. A prepared mutation stays held, with the
threads stopped, until it is finished. What a failed classification leaves in `held_mutation` is
overwritten before it is read, and is not modelled.
-/

namespace Peak

def failLocked {α β : Type} (failure : β) : ControllerM (Except β α) := do
  unlockMutationGuard
  return .error failure

def failWindow {α β : Type} (environment : CallEnvironment) (failure : β) :
    ControllerM (Except β α) := do
  noteStopWindowFailed environment
  endThreadCreationGate
  failLocked failure

def failPlanned {α β : Type} (environment : CallEnvironment) (failure : β) :
    ControllerM (Except β α) := do
  noteStopWindowFailed environment
  endThreadCreationGate
  modify fun controller => { controller with heldMutation := HeldMutation.zero }
  failLocked failure

/-- The exit of a call whose signal backend received an unexpected signal. -/
def failContaminated {α β : Type} (environment : CallEnvironment) (reason : String) (failure : β) :
    ControllerM (Except β α) := do
  signalReleaseOrFatal environment reason
  failPlanned environment failure

def failClassified {α β : Type} (environment : CallEnvironment) (backend : HoldBackend)
    (reason : String) (failure : β) : ControllerM (Except β α) := do
  match ← resumeBackend environment backend with
  | .error failure => markHelperFatal reason failure.status
  | .ok () => failWindow environment failure

/-- The exit of a call whose evacuation failed. The helper has released the threads. -/
def failEvacuated {α β : Type} (environment : CallEnvironment) (backend : HoldBackend)
    (reason : String) (failure : β) : ControllerM (Except β α) := do
  if backend = .signal then
    signalReleaseOrFatal environment reason
  failPlanned environment failure

/-- The backend to stop the threads with; `none` stands for a connected helper. -/
def selectBackend (environment : CallEnvironment) :
    ControllerM (Except PlanFailure HoldBackend) := do
  if environment.requestedBackend = .signal ||
      (environment.requestedBackend = .auto && environment.autoUsesSignal) then
    match environment.ensureSignal with
    | .error status => return .error ⟨status, none⟩
    | .ok () => return .ok .signal
  else
    match ← ensureHelper environment with
    | .ok () => return .ok .none
    | .error failure =>
      if environment.requestedBackend = .auto && failure.status.allowsAutoSignalFallback then
        match environment.ensureSignalInstead with
        | .error status => return .error ⟨status, none⟩
        | .ok () => return .ok .signal
      else
        return .error failure

/-- Stop the threads. In automatic mode the signal backend replaces a helper that could not stop
them. -/
def stopApplication (environment : CallEnvironment) (backend : HoldBackend) :
    ControllerM (Except PlanFailure (HoldBackend × List ThreadSnapshot)) := do
  if backend = .signal then
    return (← signalStopThreads environment).map (HoldBackend.signal, ·)
  else
    match ← stopThreads environment with
    | .ok threads => return .ok (.helper, threads)
    | .error failure =>
      if environment.requestedBackend = .auto && failure.status.allowsAutoSignalFallback then
        closeHelper
        match environment.ensureSignalAfterStop with
        | .error status => return .error ⟨status, none⟩
        | .ok () => return (← signalStopThreads environment).map (HoldBackend.signal, ·)
      else
        return .error failure

def holdMutation (mutation : HeldMutation) (backend : HoldBackend) : ControllerM Unit := do
  if backend = .signal then
    modify fun controller => { controller with signalForwardEffectStarted := true }
  modify fun controller =>
    { controller with
      heldMutation :=
        { mutation with instructions := [], active := true, backend := backend } }
  modify fun controller =>
    { controller with migrationDisabledDepth := controller.migrationDisabledDepth + 1 }
  unlockMutationGuard

def setRecords (records : List PatchRecord) : ControllerM Unit :=
  modify fun controller => { controller with records := records }

def evacuatePlan (environment : CallEnvironment) (backend : HoldBackend)
    (instructions : List Instruction) : ControllerM (Except PlanFailure Unit) := do
  if instructions.isEmpty then
    return .ok ()
  else
    evacuateBackend environment backend instructions

/-- The part of both preparations that follows a successful classification. -/
def commitPlan {α β : Type} (environment : CallEnvironment) (backend : HoldBackend)
    (restore : ControllerM Unit) (evacuateAbort contamination : String) (mutation : HeldMutation)
    (evacuateFailed : PlanFailure → β) (contaminated : β) (prepared : α) :
    ControllerM (Except β α) := do
  match ← evacuatePlan environment backend mutation.instructions with
  | .error failure =>
    restore
    failEvacuated environment backend evacuateAbort (evacuateFailed failure)
  | .ok () =>
    if ← checkContamination environment backend .afterEvacuate then
      holdMutation mutation backend
      return .ok prepared
    else
      restore
      failContaminated environment contamination contaminated

/-- The record a classification of the hook may write, with its index (`scalar_record`). -/
def scalarRecord (records : List PatchRecord) (hookId : ℕ) : Option (ℕ × PatchRecord) :=
  ((PatchRecord.find records hookId).or (PatchRecord.findFree records)).bind fun index =>
    records[index]?.map (index, ·)

def restoreRecord (saved : Option (ℕ × PatchRecord)) (records : List PatchRecord) :
    List PatchRecord :=
  match saved with
  | none => records
  | some (index, record) => records.set index record

def restoreScalarRecord (saved : Option (ℕ × PatchRecord)) : ControllerM Unit :=
  modify fun controller => { controller with records := restoreRecord saved controller.records }

/-- The part of `prepare_hook_mutation` in which the threads are stopped. -/
def mutateStopped (environment : CallEnvironment) (request : DetachRequest)
    (snapshot : GumSnapshot) (backend : HoldBackend) (threads : List ThreadSnapshot) :
    ControllerM (Except PlanFailure Unit) := do
  if ← checkContamination environment backend .beforePlan then
    let controller ← get
    let saved := scalarRecord controller.records request.hookId
    let (classified, records) := classifyStoppedThreads request snapshot
      (backend.canSingleStep environment.breakpointCanEvac) threads controller.heldMutation
      controller.records
    setRecords records
    match classified with
    | .error failure =>
      restoreScalarRecord saved
      failClassified environment backend "classify abort" failure
    | .ok mutation =>
      commitPlan environment backend (restoreScalarRecord saved) "signal evacuate abort"
        "signal contamination before mutation" mutation id ⟨.unsupported, none⟩ ()
  else
    failContaminated environment "signal contamination before mutation" ⟨.unsupported, none⟩

/-- The part of `prepare_hook_mutation` in which the thread creation gate is closed. -/
def mutateGated (environment : CallEnvironment) (request : DetachRequest)
    (snapshot : GumSnapshot) (backend : HoldBackend) : ControllerM (Except PlanFailure Unit) := do
  beginThreadCreationGate
  noteStopWindowStarted environment
  match ← stopApplication environment backend with
  | .error failure => failWindow environment failure
  | .ok (backend, threads) => mutateStopped environment request snapshot backend threads

def prepareHookMutation (environment : CallEnvironment) (request : DetachRequest) :
    ControllerM (Except PlanFailure Unit) := do
  match validateRequest request with
  | .error failure => return .error failure
  | .ok () =>
    lockMutationGuard
    if (← get).heldMutation.active then
      failLocked ⟨.error, none⟩
    else
      modify fun controller => { controller with heldMutationStartedAt := 0 }
      if (← get).helperStateFatal then
        failLocked ⟨.error, none⟩
      else
        match ← selectBackend environment with
        | .error failure => failLocked failure
        | .ok backend =>
          let gum : GumState := ⟨environment.interceptors, (← get).memory⟩
          match captureGumSnapshot gum request with
          | .error failure => failLocked failure
          | .ok snapshot => mutateGated environment request snapshot backend

/-- The results of a batch. The requests beyond `maxBatchRequests` keep their initial result, which
is an error. -/
structure BatchResults where
  prepared : List AcceptedRequest
  failed : List (DetachRequest × PlanFailure)

structure BatchFailure where
  failure : PlanFailure
  failed : List (DetachRequest × PlanFailure)

namespace BatchCandidate

/-- The results of the candidates that were refused before the threads are stopped. -/
def failures (candidates : List BatchCandidate) : List (DetachRequest × PlanFailure) :=
  candidates.filterMap fun candidate => candidate.failure.map (candidate.request, ·)

def failValid (candidates : List BatchCandidate) (failure : PlanFailure) :
    List (DetachRequest × PlanFailure) :=
  failures (candidates.map fun candidate =>
    if candidate.valid then candidate.refuse failure else candidate)

def emptyBatchStatus (candidates : List BatchCandidate) : DetachStatus :=
  if candidates.all fun candidate => candidate.failure.any (·.status == .unsupported) then
    .unsupported
  else
    .classifyFailed

end BatchCandidate

def failAll (requests : List DetachRequest) (failure : PlanFailure) : BatchFailure :=
  ⟨failure, requests.map (·, failure)⟩

/-- One failure for the valid candidates (`fail_all_locked`). -/
def failCandidates (candidates : List BatchCandidate) (failure : PlanFailure) : BatchFailure :=
  ⟨failure, BatchCandidate.failValid candidates failure⟩

/-- The part of `prepare_hook_mutation_batch` that follows the classification loop. -/
def commitBatch (environment : CallEnvironment) (backend : HoldBackend)
    (saved : List PatchRecord) (candidates : List BatchCandidate) (plan : BatchPlan) :
    ControllerM (Except BatchFailure BatchResults) := do
  let refused := BatchCandidate.failures candidates ++ plan.refused
  if plan.accepted.isEmpty then
    setRecords saved
    failClassified environment backend "batch classify retry" ⟨⟨.classifyFailed, none⟩, refused⟩
  else
    commitPlan environment backend (setRecords saved) "signal batch evacuate abort"
      "signal batch contamination before mutation" { plan.aggregate with operation := .detach }
      (fun failure => ⟨failure, refused ++ plan.accepted.map (·.request, failure)⟩)
      (failAll (candidates.map (·.request)) ⟨.unsupported, none⟩) ⟨plan.accepted, refused⟩

/-- The part of `prepare_hook_mutation_batch` in which the threads are stopped. -/
def batchStopped (environment : CallEnvironment) (candidates : List BatchCandidate)
    (saved : List PatchRecord) (backend : HoldBackend) (threads : List ThreadSnapshot) :
    ControllerM (Except BatchFailure BatchResults) := do
  if ← checkContamination environment backend .beforePlan then
    let plan : BatchPlan := ⟨HeldMutation.zero, (← get).records, [], []⟩
    match classifyBatch (backend.canSingleStep environment.breakpointCanEvac) threads plan
        candidates with
    | .error failure =>
      setRecords saved
      failClassified environment backend "batch classify abort"
        (failCandidates candidates failure)
    | .ok plan =>
      setRecords plan.records
      commitBatch environment backend saved candidates plan
  else
    setRecords saved
    failContaminated environment "signal batch contamination before mutation"
      (failAll (candidates.map (·.request)) ⟨.unsupported, none⟩)

/-- The part of `prepare_hook_mutation_batch` in which the thread creation gate is closed. -/
def batchGated (environment : CallEnvironment) (candidates : List BatchCandidate)
    (saved : List PatchRecord) (backend : HoldBackend) :
    ControllerM (Except BatchFailure BatchResults) := do
  beginThreadCreationGate
  noteStopWindowStarted environment
  match ← stopApplication environment backend with
  | .error failure => failWindow environment (failCandidates candidates failure)
  | .ok (backend, threads) => batchStopped environment candidates saved backend threads

def prepareHookMutationBatch (environment : CallEnvironment) (requests : List DetachRequest) :
    ControllerM (Except BatchFailure BatchResults) := do
  if requests.isEmpty || !environment.candidatesAllocated then
    return .error (failAll requests ⟨.error, none⟩)
  else
    lockMutationGuard
    if (← get).heldMutation.active then
      failLocked (failAll requests ⟨.error, none⟩)
    else
      modify fun controller => { controller with heldMutationStartedAt := 0 }
      if (← get).helperStateFatal then
        failLocked (failAll requests ⟨.error, none⟩)
      else
        let controller ← get
        let gum : GumState := ⟨environment.interceptors, controller.memory⟩
        let candidates := BatchCandidate.ofRequests gum controller.records requests
        if BatchCandidate.validCount candidates = 0 then
          failLocked ⟨⟨BatchCandidate.emptyBatchStatus candidates, none⟩,
            BatchCandidate.failures candidates⟩
        else
          match ← selectBackend environment with
          | .error failure => failLocked (failCandidates candidates failure)
          | .ok backend =>
            if !environment.snapshotAllocated then
              failLocked (failCandidates candidates ⟨.error, none⟩)
            else
              batchGated environment candidates (← get).records backend

/-- `finish_hook_mutation`, for a request whose operation may be invalid. -/
def finishHookMutation (environment : CallEnvironment) (operationValid : Bool) :
    ControllerM (Except PlanFailure Unit) := do
  if !operationValid then
    return .error ⟨.error, none⟩
  else
    lockMutationGuard
    let controller ← get
    if controller.heldMutation.active then
      match ← resumeBackend environment controller.heldMutation.backend with
      | .error failure =>
        noteStopWindowFailed environment
        markHelperFatal "finish" failure.status
      | .ok () =>
        noteStopWindowFinished environment
        endThreadCreationGate
        modify fun controller =>
          { controller with
            heldMutation := HeldMutation.zero
            migrationDisabledDepth := controller.migrationDisabledDepth - 1 }
    unlockMutationGuard
    return .ok ()

def finishHookMutationBatch (environment : CallEnvironment) :
    ControllerM (Except PlanFailure Unit) :=
  finishHookMutation environment true

def shutdownHelper (environment : CallEnvironment) : ControllerM (Except PlanFailure Unit) := do
  lockMutationGuard
  let controller ← get
  if controller.heldMutation.active then
    failLocked ⟨.error, none⟩
  else if controller.helperConnected then
    match ← sendShutdown environment with
    | .error failure => failLocked failure
    | .ok () =>
      unlockMutationGuard
      return .ok ()
  else
    unlockMutationGuard
    return .ok ()

/-- The entry points of the controller. -/
inductive ControllerCall where
  | prepare (request : DetachRequest)
  | prepareBatch (requests : List DetachRequest)
  | finish (operationValid : Bool)
  | finishBatch
  | shutdownHelper
  -- between the calls, others may change the code
  | rewriteCode (memory : ℕ → UInt8)

inductive ControllerReply where
  | single (result : Except PlanFailure Unit)
  | batch (result : Except BatchFailure BatchResults)

def ControllerReply.isTrue : ControllerReply → Bool
  | single result => result.isOk
  | batch result => result.isOk

def ControllerCall.perform (environment : CallEnvironment) :
    ControllerCall → ControllerM ControllerReply
  | prepare request => return .single (← prepareHookMutation environment request)
  | prepareBatch requests => return .batch (← prepareHookMutationBatch environment requests)
  | finish operationValid => return .single (← finishHookMutation environment operationValid)
  | finishBatch => return .single (← finishHookMutationBatch environment)
  | shutdownHelper => return .single (← Peak.shutdownHelper environment)
  | rewriteCode memory => do
      modify fun controller => { controller with memory := memory }
      return .single (.ok ())

/-- The controller of one process. A fatal exit ends the process, which then stays in
this state. -/
def detachController : Machine (Except FatalExit Controller)
    (CallEnvironment × ControllerCall) (Except FatalExit ControllerReply) where
  call state event :=
    match state.bind (event.2.perform event.1) with
    | .error exit => (.error exit, .error exit)
    | .ok (reply, controller) => (.ok reply, .ok controller)

/-- The controller of a new process. The code and the migration depth contributed by
others are arbitrary. -/
def Controller.initial (migrationDisabledDepth : ℕ) (memory : ℕ → UInt8) : Controller where
  heldMutation := HeldMutation.zero
  heldMutationStartedAt := 0
  helperStateFatal := false
  helperConnected := false
  records := List.replicate maxPatchRecords PatchRecord.zero
  threadGateEpoch := 0
  threadGate := 0
  migrationDisabledDepth := migrationDisabledDepth
  statControllerDepth := 0
  statGateClosed := false
  signalHold := false
  signalForwardEffectStarted := false
  completedStopWindowCount := 0
  failedStopWindowCount := 0
  stopWindowWallNs := 0
  lastStopWindowNs := 0
  heldBy := .none
  memory := memory
  windows := ⟨0, 0, 0⟩

end Peak
