import Peak.Controller.Transaction

/-!
# Phases of a transaction

The abstract view of the controller: which of its gates are closed, which backend holds the threads,
how often it disabled signal migration, and which stop windows it has counted. Each function of a
transaction is specified by the phases between which it leads.
-/

namespace Peak

open Program

variable {update : Controller → Controller}

structure Phase where
  active : Bool
  backend : HoldBackend
  gated : Bool
  statClosed : Bool
  heldBy : HoldBackend
  signalHold : Bool
  windowOpen : Bool
  migrationDisabled : ℕ
  statDepth : ℕ
  records : List PatchRecord
  memory : ℕ → UInt8
  windows : StopWindows
  completedCount : ℕ
  failedCount : ℕ

def Controller.phase (controller : Controller) : Phase where
  active := controller.heldMutation.active
  backend := controller.heldMutation.backend
  gated := controller.threadGate != 0
  statClosed := controller.statGateClosed
  heldBy := controller.heldBy
  signalHold := controller.signalHold
  windowOpen := controller.heldMutationStartedAt != 0
  migrationDisabled := controller.migrationDisabledDepth
  statDepth := controller.statControllerDepth
  records := controller.records
  memory := controller.memory
  windows := controller.windows
  completedCount := controller.completedStopWindowCount
  failedCount := controller.failedStopWindowCount

namespace Phase

/-- No mutation is in progress. -/
structure Idle (phase : Phase) : Prop where
  active : phase.active = false
  backend : phase.backend = .none
  gated : phase.gated = false
  statClosed : phase.statClosed = false
  heldBy : phase.heldBy = .none
  signalHold : phase.signalHold = false
  windowOpen : phase.windowOpen = false

/-- No thread is stopped. -/
structure Free (phase : Phase) : Prop where
  statClosed : phase.statClosed = false
  heldBy : phase.heldBy = .none
  signalHold : phase.signalHold = false

/-- The backend has stopped the threads. -/
structure HeldWith (phase : Phase) (backend : HoldBackend) : Prop where
  stopped : backend ≠ .none
  heldBy : phase.heldBy = backend
  signalHold : phase.signalHold = decide (backend = .signal)

def lock (phase : Phase) : Phase :=
  { phase with
    migrationDisabled := phase.migrationDisabled + 1
    statDepth := phase.statDepth + 1 }

def unlock (phase : Phase) : Phase :=
  { phase with
    migrationDisabled := phase.migrationDisabled - 1
    statDepth := phase.statDepth - 1 }

def noteStarted (phase : Phase) : Phase :=
  { phase with
    windowOpen := true
    windows := { phase.windows with started := phase.windows.started + 1 } }

def gate (phase : Phase) : Phase :=
  { phase with gated := true }.noteStarted

def stop (phase : Phase) (backend : HoldBackend) : Phase :=
  { phase with statClosed := true, heldBy := backend, signalHold := backend = .signal }

def release (phase : Phase) : Phase :=
  { phase with statClosed := false, heldBy := .none, signalHold := false }

def noteFailed (phase : Phase) : Phase :=
  { phase with
    windowOpen := false
    windows := { phase.windows with failed := phase.windows.failed + 1 }
    failedCount := addSaturated phase.failedCount 1 }

def noteFinished (phase : Phase) : Phase :=
  { phase with
    windowOpen := false
    windows := { phase.windows with completed := phase.windows.completed + 1 }
    completedCount := addSaturated phase.completedCount 1 }

def fail (phase : Phase) : Phase :=
  { phase with
    windows :=
      { phase.windows with
        started := phase.windows.started + 1
        failed := phase.windows.failed + 1 }
    failedCount := addSaturated phase.failedCount 1 }

def hold (phase : Phase) (backend : HoldBackend) (records : List PatchRecord)
    (memory : ℕ → UInt8) : Phase :=
  { phase.gate.stop backend with
    active := true
    backend := backend
    migrationDisabled := phase.migrationDisabled + 1
    records := records
    memory := memory }

theorem Free.eq_release {phase : Phase} (free : phase.Free) : phase.release = phase := by
  cases phase
  cases free
  simp_all [release]

theorem Free.reopen {phase : Phase} (free : phase.Free) :
    { phase with statClosed := false } = phase := by
  cases phase
  cases free
  simp_all

theorem Free.stop_helper {phase : Phase} (free : phase.Free) :
    { phase with statClosed := true, heldBy := .helper } = phase.stop .helper := by
  cases phase
  cases free
  simp_all [stop]

@[simp]
theorem release_stop (phase : Phase) (backend : HoldBackend) :
    (phase.stop backend).release = phase.release := rfl

end Phase

def At (phase : Phase) (controller : Controller) : Prop :=
  controller.phase = phase

/-- The failures of a reattachment without a recorded patch. -/
def PlanFailure.missingPatchRecord (failure : PlanFailure) : Bool :=
  failure.detail.any fun detail =>
    detail.reason == "reattach-patch-record-missing" ||
      detail.reason == "batch-reattach-patch-record-missing"

def Ends {α : Type} (failed : Phase) (done : α → Phase) (result : Except PlanFailure α)
    (controller : Controller) : Prop :=
  match result with
  | .error failure => failure.missingPatchRecord = false ∧ At failed controller
  | .ok value => At (done value) controller

section Primitives

variable {phase : Phase} {environment : CallEnvironment}

theorem triple_update (move : Phase → Phase)
    (commutes : ∀ controller, (update controller).phase = move controller.phase) :
    Triple (At phase) (modify update : ControllerM Unit) (fun _ => At (move phase)) := by
  apply triple_modify
  rintro controller rfl
  exact commutes controller

theorem triple_unobserved (same : ∀ controller, (update controller).phase = controller.phase) :
    Triple (At phase) (modify update : ControllerM Unit) (fun _ => At phase) :=
  triple_update (fun phase => phase) same

theorem triple_read {α : Type} {next : Controller → ControllerM α} {post : α → Controller → Prop}
    (continues : ∀ controller, controller.phase = phase →
      Triple (At phase) (next controller) post) :
    Triple (At phase) (get >>= next) post :=
  triple_bind (fun read controller => read.phase = phase ∧ At phase controller)
    (triple_get fun _ here => ⟨here, here⟩) fun read => triple_of_fact (continues read)

theorem lockMutationGuard_triple : Triple (At phase) lockMutationGuard (fun _ => At phase.lock) :=
  triple_update Phase.lock fun _ => rfl

theorem unlockMutationGuard_triple :
    Triple (At phase) unlockMutationGuard (fun _ => At phase.unlock) :=
  triple_update Phase.unlock fun _ => rfl

theorem beginThreadCreationGate_triple :
    Triple (At phase) beginThreadCreationGate (fun _ => At { phase with gated := true }) := by
  apply triple_update fun phase => { phase with gated := true }
  intro controller
  simp only [Controller.phase, Phase.mk.injEq, true_and, and_true, bne_iff_ne]
  split <;> omega

theorem endThreadCreationGate_triple :
    Triple (At phase) endThreadCreationGate (fun _ => At { phase with gated := false }) :=
  triple_update (fun phase => { phase with gated := false }) fun _ => rfl

theorem noteStopWindowStarted_triple :
    Triple (At phase) (noteStopWindowStarted environment) (fun _ => At phase.noteStarted) := by
  apply triple_update Phase.noteStarted
  intro controller
  have positive : environment.startTime ≠ 0 := Nat.ne_of_gt environment.startTime_pos
  simp [Controller.phase, Phase.noteStarted, positive]

theorem noteStopWindowFailed_triple (opened : phase.windowOpen) :
    Triple (At phase) (noteStopWindowFailed environment) (fun _ => At phase.noteFailed) := by
  apply triple_modify
  rintro controller rfl
  have started : controller.heldMutationStartedAt ≠ 0 := by
    simpa [Controller.phase] using opened
  simp [At, Controller.phase, Phase.noteFailed, started]

theorem noteStopWindowFinished_triple (opened : phase.windowOpen) :
    Triple (At phase) (noteStopWindowFinished environment) (fun _ => At phase.noteFinished) := by
  apply triple_modify
  rintro controller rfl
  have started : controller.heldMutationStartedAt ≠ 0 := by
    simpa [Controller.phase] using opened
  simp [At, Controller.phase, Phase.noteFinished, started]

theorem filesystemStatTryStop_triple (free : phase.Free) (drained : Bool) :
    Triple (At phase) (filesystemStatTryStop drained)
      (fun stopped => At { phase with statClosed := stopped }) := by
  refine triple_read fun _ _ => ?_
  split
  · refine triple_bind _ (triple_update (fun phase => { phase with statClosed := true })
      fun _ => rfl) fun _ => ?_
    exact triple_pure fun _ here => here
  · exact triple_pure fun _ here => free.reopen ▸ here

theorem filesystemStatResume_triple :
    Triple (At phase) filesystemStatResume (fun _ => At { phase with statClosed := false }) :=
  triple_update (fun phase => { phase with statClosed := false }) fun _ => rfl

theorem closeHelper_triple (released : phase.heldBy = .none) :
    Triple (At phase) closeHelper (fun _ => At phase) := by
  apply triple_modify
  rintro controller rfl
  have notHelper : controller.heldBy = .none := released
  simp [At, Controller.phase, notHelper]

theorem ensureHelper_triple :
    Triple (At phase) (ensureHelper environment) (Ends phase fun _ => phase) := by
  refine triple_read fun _ _ => ?_
  split
  · exact triple_pure fun _ here => here
  · split
    · exact triple_pure fun _ here => ⟨rfl, here⟩
    · refine triple_bind _ (triple_unobserved fun _ => rfl) fun _ => ?_
      exact triple_pure fun _ here => here

end Primitives

section Backends

variable {phase : Phase} {environment : CallEnvironment}

theorem stopThreadsImpl_triple (released : phase.heldBy = .none) :
    Triple (At phase) (stopThreadsImpl environment)
      (Ends phase fun _ => { phase with heldBy := .helper }) := by
  unfold stopThreadsImpl
  split
  · refine triple_bind _ (closeHelper_triple released) fun _ => ?_
    exact triple_pure fun _ here => ⟨rfl, here⟩
  · exact triple_throw
  · split
    · exact triple_throw
    · exact triple_pure fun _ here => ⟨rfl, here⟩
  · exact triple_throw
  · refine triple_bind _ (triple_update (fun phase => { phase with heldBy := .helper })
      fun _ => rfl) fun _ => ?_
    exact triple_pure fun _ here => here

theorem stopThreads_triple (free : phase.Free) :
    Triple (At phase) (stopThreads environment) (Ends phase fun _ => phase.stop .helper) := by
  refine triple_bind _ (filesystemStatTryStop_triple free _) fun stopped => ?_
  cases stopped with
  | false => exact triple_pure fun _ here => ⟨rfl, free.reopen ▸ here⟩
  | true =>
    refine triple_bind _ (stopThreadsImpl_triple free.heldBy) fun result => ?_
    cases result with
    | error =>
      refine triple_of_fact fun notMissing => ?_
      refine triple_bind _ filesystemStatResume_triple fun _ => ?_
      exact triple_pure fun _ here => ⟨notMissing, free.reopen ▸ here⟩
    | ok => exact triple_pure fun _ here => free.stop_helper ▸ here

theorem signalStopThreads_triple (free : phase.Free) :
    Triple (At phase) (signalStopThreads environment) (Ends phase fun _ => phase.stop .signal) := by
  refine triple_bind _ (filesystemStatTryStop_triple free _) fun stopped => ?_
  cases stopped with
  | false => exact triple_pure fun _ here => ⟨rfl, free.reopen ▸ here⟩
  | true =>
    refine triple_bind _ (triple_unobserved fun _ => rfl) fun _ => ?_
    split
    · exact triple_throw
    · refine triple_bind _ filesystemStatResume_triple fun _ => ?_
      exact triple_pure fun _ here => ⟨rfl, free.reopen ▸ here⟩
    · refine triple_bind _ (triple_update (fun phase =>
        { phase with signalHold := true, heldBy := .signal }) fun _ => rfl) fun _ => ?_
      exact triple_pure fun _ here => here

theorem selectBackend_triple :
    Triple (At phase) (selectBackend environment) (Ends phase fun _ => phase) := by
  unfold selectBackend
  split
  · split
    · exact triple_pure fun _ here => ⟨rfl, here⟩
    · exact triple_pure fun _ here => here
  · refine triple_bind _ ensureHelper_triple fun result => ?_
    cases result with
    | ok => exact triple_pure fun _ here => here
    | error =>
      refine triple_of_fact fun notMissing => ?_
      dsimp only
      split
      · split
        · exact triple_pure fun _ here => ⟨rfl, here⟩
        · exact triple_pure fun _ here => here
      · exact triple_pure fun _ here => ⟨notMissing, here⟩

theorem stopApplication_triple (free : phase.Free) (backend : HoldBackend) :
    Triple (At phase) (stopApplication environment backend) (fun result controller =>
      Ends phase (fun stopped => phase.stop stopped.1) result controller ∧
        ∀ stopped, result = .ok stopped → stopped.1 ≠ .none) := by
  have signalled : ∀ (result : Except PlanFailure (List ThreadSnapshot)) controller,
      Ends phase (fun _ => phase.stop .signal) result controller →
        Ends phase (fun stopped => phase.stop stopped.1)
            (result.map (HoldBackend.signal, ·)) controller ∧
          ∀ stopped, result.map (HoldBackend.signal, ·) = .ok stopped → stopped.1 ≠ .none := by
    intro result controller ended
    cases result with
    | error => exact ⟨ended, by rintro stopped ⟨⟩⟩
    | ok => exact ⟨ended, by rintro stopped ⟨⟩; simp⟩
  unfold stopApplication
  split
  · refine triple_bind _ (signalStopThreads_triple free) fun result => ?_
    exact triple_pure fun controller ended => signalled result controller ended
  · refine triple_bind _ (stopThreads_triple free) fun result => ?_
    cases result with
    | ok => exact triple_pure fun _ here => ⟨here, by rintro stopped ⟨⟩; simp⟩
    | error =>
      refine triple_of_fact fun notMissing => ?_
      dsimp only
      split
      · refine triple_bind _ (closeHelper_triple free.heldBy) fun _ => ?_
        split
        · exact triple_pure fun _ here => ⟨⟨rfl, here⟩, by rintro stopped ⟨⟩⟩
        · refine triple_bind _ (signalStopThreads_triple free) fun result => ?_
          exact triple_pure fun controller ended => signalled result controller ended
      · exact triple_pure fun _ here => ⟨⟨notMissing, here⟩, by rintro stopped ⟨⟩⟩

theorem signalCheckContamination_triple {pre : Controller → Prop} (check : SignalCheck) :
    Triple pre (signalCheckContamination environment check) (fun clean controller =>
      pre controller ∧ (clean = false → controller.signalForwardEffectStarted = false)) := by
  refine triple_bind (fun read controller => read = controller ∧ pre controller)
    (triple_get fun _ here => ⟨rfl, here⟩) fun read => ?_
  split
  · exact triple_pure fun _ here => ⟨here.2, by simp⟩
  · split
    · exact triple_throw
    next unstarted =>
      refine triple_pure fun controller here => ⟨here.2, fun _ => ?_⟩
      rw [← here.1]
      simpa using unstarted

theorem checkContamination_triple {pre : Controller → Prop} (backend : HoldBackend)
    (check : SignalCheck) :
    Triple pre (checkContamination environment backend check) (fun clean controller =>
      pre controller ∧ (clean = false →
        backend = .signal ∧ controller.signalForwardEffectStarted = false)) := by
  unfold checkContamination
  split
  next signal =>
    exact triple_post (signalCheckContamination_triple check) fun clean controller checked =>
      ⟨checked.1, fun contaminated => ⟨signal, checked.2 contaminated⟩⟩
  · exact triple_pure fun _ here => ⟨here, by simp⟩

/-- A backend function that may fail, and releases the threads otherwise. -/
def Releases (phase : Phase) (result : Except PlanFailure Unit) (controller : Controller) : Prop :=
  result = .ok () → At phase.release controller

theorem signalRelease_triple (held : phase.signalHold) :
    Triple (At phase) (signalRelease environment) (Releases phase) := by
  refine triple_bind _ (signalCheckContamination_triple .release) fun _ => ?_
  refine triple_bind (fun read controller => read.signalHold = true ∧ At phase controller)
    (triple_get fun controller here => ⟨?_, here.1⟩) fun read => ?_
  · rw [← held, ← here.1]
    rfl
  · refine triple_of_fact fun readHeld => ?_
    simp only [readHeld]
    refine triple_bind _ filesystemStatResume_triple fun _ => ?_
    split
    · exact triple_pure fun _ _ ok => by cases ok
    · refine triple_bind _ (triple_update (fun phase =>
        { phase with signalHold := false, heldBy := .none }) fun _ => rfl) fun _ => ?_
      exact triple_pure fun _ here _ => here

theorem signalReleaseOrFatal_triple (held : phase.signalHold) (reason : String) :
    Triple (At phase) (signalReleaseOrFatal environment reason) (fun _ => At phase.release) := by
  refine triple_bind _ (signalCheckContamination_triple .beforeRelease) fun _ => ?_
  refine triple_bind_except (triple_consequence (signalRelease_triple held) (fun _ here => here.1)
    fun _ _ released => released) (fun _ => triple_throw) fun _ => ?_
  exact triple_pure fun _ released => released rfl

theorem sendResume_triple (notSignal : phase.signalHold = false)
    (opened : phase.statClosed = false) :
    Triple (At phase) (sendResume environment) (Releases phase) := by
  have released : { phase with heldBy := .none } = phase.release := by
    simp [Phase.release, notSignal, opened]
  unfold sendResume
  split
  · exact triple_throw
  · refine triple_bind _ (triple_update (fun phase => { phase with heldBy := .none })
      fun _ => rfl) fun _ => ?_
    exact triple_pure fun _ here _ => released ▸ here
  · exact triple_throw
  · exact triple_pure fun _ _ ok => by cases ok

variable {backend : HoldBackend}

theorem resumeBackend_triple (held : phase.HeldWith backend) :
    Triple (At phase) (resumeBackend environment backend) (Releases phase) := by
  refine triple_bind _ (checkContamination_triple backend .resume) fun _ => ?_
  refine triple_bind _ (triple_consequence filesystemStatResume_triple (fun _ here => here.1)
    fun _ _ here => here) fun _ => ?_
  refine triple_bind (Releases phase) ?_ fun result => ?_
  · unfold releaseBackend
    split
    next signal =>
      exact signalRelease_triple (by simp [held.signalHold, signal])
    next notSignal =>
      exact sendResume_triple (by simp [held.signalHold, notSignal]) rfl
  · cases result with
    | error => exact triple_pure fun _ _ ok => by cases ok
    | ok =>
      refine triple_bind _ (triple_consequence filesystemStatResume_triple
        (fun _ released => released rfl) fun _ _ here => here) fun _ => ?_
      exact triple_pure fun _ here _ => here

theorem applyWrites_outside {instructions : List Instruction} {location : ℕ} (memory : ℕ → UInt8)
    (outside : ∀ address bytes, .writeMemory address bytes ∈ instructions →
      location < address ∨ address + bytes.length ≤ location) :
    applyWrites memory instructions location = memory location := by
  induction instructions generalizing memory with
  | nil => rfl
  | cons instruction _ ih =>
    have rest := fun address bytes present =>
      outside address bytes (List.mem_cons_of_mem _ present)
    cases instruction with
    | setPc => exact ih memory rest
    | singleStepOutOfRange => exact ih memory rest
    | writeMemory address bytes =>
      have away := outside address bytes List.mem_cons_self
      rw [applyWrites, ih _ rest, if_neg (by omega)]

theorem applyWrites_of_no_write {instructions : List Instruction} (memory : ℕ → UInt8)
    (noWrite : ∀ address bytes, .writeMemory address bytes ∉ instructions) :
    applyWrites memory instructions = memory := by
  funext location
  exact applyWrites_outside memory fun address bytes present =>
    absurd present (noWrite address bytes)

/-- An evacuation performs the planned writes, or none. Before the forward effect nothing was
written. -/
def Evacuates (phase : Phase) (backend : HoldBackend) (instructions : List Instruction)
    (result : Except PlanFailure Unit) (controller : Controller) : Prop :=
  match result with
  | .error failure => failure.missingPatchRecord = false ∧
      At (if backend = .signal then phase else phase.release) controller
  | .ok () => At { phase with memory := applyWrites phase.memory instructions } controller ∧
      (backend = .signal → controller.signalForwardEffectStarted = false →
        applyWrites phase.memory instructions = phase.memory)

theorem signalEvacuate_triple (instructions : List Instruction) :
    Triple (At phase) (signalEvacuate environment instructions)
      (Evacuates phase .signal instructions) := by
  unfold signalEvacuate
  split
  · exact triple_throw
  · refine triple_bind _ (triple_unobserved fun _ => rfl) fun _ => ?_
    exact triple_pure fun _ here => ⟨rfl, here⟩
  next stepped _ =>
    refine triple_bind (fun _ => Evacuates phase .signal instructions (.ok ())) ?_ fun _ => ?_
    · apply triple_modify
      rintro controller rfl
      refine ⟨rfl, fun _ unstarted => applyWrites_of_no_write _ ?_⟩
      intro address bytes present
      rw [Bool.or_eq_false_iff, List.any_eq_false] at unstarted
      exact unstarted.2 _ present rfl
    · exact triple_pure fun _ here => here

theorem sendEvacuate_triple (notSignal : phase.signalHold = false) (instructions : List Instruction)
    (other : backend ≠ .signal) :
    Triple (At phase) (sendEvacuate environment instructions)
      (Evacuates phase backend instructions) := by
  have refused : ∀ status : HelperStatus, Triple (At phase)
      (do modify fun controller => { controller with heldBy := .none }
          filesystemStatResume
          return .error ⟨status.toDetachStatus, none⟩ : ControllerM (Except PlanFailure Unit))
      (Evacuates phase backend instructions) := by
    intro status
    refine triple_bind _ (triple_update (fun phase => { phase with heldBy := .none })
      fun _ => rfl) fun _ => ?_
    refine triple_bind _ filesystemStatResume_triple fun _ => ?_
    refine triple_pure fun _ here => ⟨rfl, ?_⟩
    simpa [other, Phase.release, notSignal] using here
  unfold sendEvacuate
  split
  · exact triple_throw
  · refine triple_bind _ (triple_update (fun phase =>
      { phase with memory := applyWrites phase.memory instructions }) fun _ => rfl) fun _ => ?_
    exact triple_pure fun _ here => ⟨here, fun signal => absurd signal other⟩
  · exact triple_throw
  · exact triple_throw
  · exact refused _

theorem evacuatePlan_triple (held : phase.HeldWith backend) (instructions : List Instruction) :
    Triple (At phase) (evacuatePlan environment backend instructions)
      (Evacuates phase backend instructions) := by
  unfold evacuatePlan
  split
  next empty =>
    have none : instructions = [] := List.isEmpty_iff.mp empty
    subst none
    exact triple_pure fun _ here => ⟨here, fun _ _ => rfl⟩
  · unfold evacuateBackend
    split
    next signal =>
      subst signal
      refine triple_bind _ (signalEvacuate_triple instructions) fun result => ?_
      cases result with
      | ok => exact triple_pure fun _ evacuated => evacuated
      | error failure =>
        refine triple_bind (fun _ => Evacuates phase .signal instructions (.error failure))
          (triple_get fun _ here => here) fun read => ?_
        split
        · exact triple_throw
        · exact triple_pure fun _ evacuated => evacuated
    next other =>
      exact sendEvacuate_triple (by simp [held.signalHold, other]) instructions other

end Backends

end Peak
