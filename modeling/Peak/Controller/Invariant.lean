import Peak.Controller.Prepare

/-!
# Invariant of the controller between its calls

Each call leads from an idle phase to an idle or a held phase, and from a held phase back
to an idle one or nowhere else.
-/

namespace Peak

open Program

namespace Phase

variable {reply : ControllerReply}

/-- A mutation is held. -/
structure Held (phase : Phase) : Prop where
  active : phase.active
  gated : phase.gated
  statClosed : phase.statClosed
  heldWith : phase.HeldWith phase.backend
  windowOpen : phase.windowOpen

def finish (phase : Phase) : Phase :=
  { phase.release.noteFinished with
    gated := false
    active := false
    backend := .none
    migrationDisabled := phase.migrationDisabled - 1 }

theorem Idle.fail {phase : Phase} (idle : phase.Idle) : phase.fail.Idle :=
  { idle with }

end Phase

section Calls

variable {phase : Phase} {environment : CallEnvironment} {controller : Controller}

theorem active_of_phase {active : Bool} (here : controller.phase = phase)
    (activeEq : phase.active = active) : controller.heldMutation.active = active := by
  rw [← activeEq, ← here]
  rfl

def RefusedAt {α β : Type} (phase : Phase) (refused : β → Prop) (result : Except β α)
    (controller : Controller) : Prop :=
  (∃ failure, result = .error failure ∧ refused failure) ∧ At phase controller

theorem RefusedAt.isOk {α β : Type} {refused : β → Prop} {result : Except β α}
    (refusal : RefusedAt phase refused result controller) :
    result.isOk = false := by
  rcases refusal.1 with ⟨_, rfl, _⟩
  rfl

theorem failLocked_refused {α β : Type} {refused : β → Prop} {failure : β}
    (refusal : refused failure) :
    Triple (At phase.lock) (failLocked failure : ControllerM (Except β α))
      (RefusedAt phase refused) := by
  refine triple_bind _ unlockMutationGuard_triple fun _ => ?_
  exact triple_pure fun _ here => ⟨⟨failure, rfl, refusal⟩, here⟩

theorem prepareHookMutation_refused (active : phase.active) (request : DetachRequest) :
    Triple (At phase) (prepareHookMutation environment request)
      (RefusedAt phase fun failure => failure.missingPatchRecord = false) := by
  unfold prepareHookMutation
  split
  next failure invalid =>
    exact triple_pure fun _ here =>
      ⟨⟨failure, rfl, validateRequest_not_missing invalid⟩, here⟩
  · refine triple_bind _ lockMutationGuard_triple fun _ => ?_
    refine triple_read fun read readPhase => ?_
    rw [if_pos (active_of_phase readPhase active)]
    exact failLocked_refused rfl

theorem failAll_not_missing (requests : List DetachRequest) {failure : PlanFailure}
    (notMissing : failure.missingPatchRecord = false) :
    ∀ entry ∈ (failAll requests failure).failed, entry.2.missingPatchRecord = false := by
  intro entry entryMem
  rcases List.mem_map.mp entryMem with ⟨_, _, rfl⟩
  exact notMissing

theorem prepareHookMutationBatch_refused (active : phase.active)
    (requests : List DetachRequest) :
    Triple (At phase) (prepareHookMutationBatch environment requests)
      (RefusedAt phase fun failure =>
        ∀ entry ∈ failure.failed, entry.2.missingPatchRecord = false) := by
  unfold prepareHookMutationBatch
  split
  · exact triple_pure fun _ here => ⟨⟨_, rfl, failAll_not_missing requests rfl⟩, here⟩
  · refine triple_bind _ lockMutationGuard_triple fun _ => ?_
    refine triple_read fun read readPhase => ?_
    rw [if_pos (active_of_phase readPhase active)]
    exact failLocked_refused (failAll_not_missing requests rfl)

theorem shutdownHelper_refused (active : phase.active) :
    Triple (At phase) (shutdownHelper environment) (RefusedAt phase fun _ => True) := by
  refine triple_bind _ lockMutationGuard_triple fun _ => ?_
  refine triple_read fun read readPhase => ?_
  rw [if_pos (active_of_phase readPhase active)]
  exact failLocked_refused trivial

theorem shutdownHelper_triple (idle : phase.Idle) :
    Triple (At phase) (shutdownHelper environment) (fun _ => At phase) := by
  refine triple_bind _ lockMutationGuard_triple fun _ => ?_
  refine triple_read fun read readPhase => ?_
  have inactive := active_of_phase readPhase idle.active
  have closed : Triple (At phase.lock) closeHelper (fun _ => At phase.lock) :=
    closeHelper_triple idle.heldBy
  rw [if_neg (by simp [inactive])]
  split
  · refine triple_bind (fun _ => At phase.lock) ?_ fun result => ?_
    · unfold sendShutdown
      split
      · exact triple_bind _ closed fun _ => triple_pure fun _ here => here
      · exact triple_bind _ closed fun _ => triple_pure fun _ here => here
      · exact triple_throw
      · exact triple_bind _ closed fun _ => triple_pure fun _ here => here
    · cases result with
      | error =>
        refine triple_bind _ unlockMutationGuard_triple fun _ => ?_
        exact triple_pure fun _ here => here
      | ok =>
        refine triple_bind _ unlockMutationGuard_triple fun _ => ?_
        exact triple_pure fun _ here => here
  · refine triple_bind _ unlockMutationGuard_triple fun _ => ?_
    exact triple_pure fun _ here => here

theorem finishHookMutation_idle (idle : phase.Idle) (operationValid : Bool) :
    Triple (At phase) (finishHookMutation environment operationValid) (fun _ => At phase) := by
  unfold finishHookMutation
  split
  · exact triple_pure fun _ here => here
  · refine triple_bind _ lockMutationGuard_triple fun _ => ?_
    refine triple_read fun read readPhase => ?_
    have inactive := active_of_phase readPhase idle.active
    rw [if_neg (by simp [inactive])]
    refine triple_bind _ unlockMutationGuard_triple fun _ => ?_
    exact triple_pure fun _ here => here

theorem finishHookMutation_held (held : phase.Held) (operationValid : Bool) :
    Triple (At phase) (finishHookMutation environment operationValid) (fun result =>
      At (if result.isOk then phase.finish else phase)) := by
  unfold finishHookMutation
  split
  · exact triple_pure fun _ here => here
  · refine triple_bind _ lockMutationGuard_triple fun _ => ?_
    refine triple_read fun read readPhase => ?_
    have backendEq : read.heldMutation.backend = phase.backend :=
      congrArg Phase.backend readPhase
    have lockedHeld : phase.lock.HeldWith read.heldMutation.backend := by
      rw [backendEq]
      exact ⟨held.heldWith.stopped, held.heldWith.heldBy, held.heldWith.signalHold⟩
    rw [if_pos (active_of_phase readPhase held.active)]
    refine triple_bind _ (resumeBackend_triple lockedHeld) fun result => ?_
    cases result with
    | error =>
      refine triple_bind (fun _ _ => True) (fun _ _ _ _ _ => trivial) fun _ => triple_throw
    | ok =>
      refine triple_pre (fun _ released => released rfl) ?_
      refine triple_bind _ (noteStopWindowFinished_triple held.windowOpen) fun _ => ?_
      refine triple_bind _ endThreadCreationGate_triple fun _ => ?_
      refine triple_bind _ (triple_update (fun phase =>
        { phase with
          active := false
          backend := .none
          migrationDisabled := phase.migrationDisabled - 1 }) fun _ => rfl) fun _ => ?_
      refine triple_bind _ unlockMutationGuard_triple fun _ => ?_
      exact triple_pure fun _ here => here

end Calls

/-- What the replies of a run tell about its mutations. -/
structure Ledger where
  held : Bool
  finished : ℕ

namespace Ledger

def note (ledger : Ledger) (call : ControllerCall) (returned : Bool) : Ledger :=
  if returned then
    match call with
    | .prepare _ | .prepareBatch _ => { ledger with held := true }
    | .finish _ | .finishBatch =>
      ⟨false, if ledger.held then ledger.finished + 1 else ledger.finished⟩
    | .shutdownHelper | .rewriteCode _ => ledger
  else
    ledger

def ofHistory (history : List (ControllerCall × Except FatalExit ControllerReply)) : Ledger :=
  history.foldl
    (fun ledger entry =>
      match entry.2 with
      | .ok reply => ledger.note entry.1 reply.isTrue
      | .error _ => ledger)
    ⟨false, 0⟩

end Ledger

def published (events : ℕ) : ℕ :=
  min events (2 ^ 64 - 2)

theorem addSaturated_published (events : ℕ) :
    addSaturated (published events) 1 = published (events + 1) := by
  rcases Nat.lt_or_ge events (2 ^ 64 - 2) with below | above
  · have room : ¬2 ^ 64 - 2 - events < 1 := by omega
    rw [published, published, Nat.min_eq_left (Nat.le_of_lt below), Nat.min_eq_left below,
      addSaturated]
    rw [if_pos ⟨Nat.one_pos, below⟩, if_neg room]
  · rw [published, published, Nat.min_eq_right above, Nat.min_eq_right (by omega), addSaturated]
    rw [if_neg (by omega)]

/-- The phases between the calls, for a migration depth contributed by others. -/
structure Phase.Settled (depth : ℕ) (ledger : Ledger) (phase : Phase) : Prop where
  state : (phase.Idle ∧ ledger.held = false) ∨ (phase.Held ∧ ledger.held)
  migration : phase.migrationDisabled = depth + ledger.held.toNat
  statDepth : phase.statDepth = 0
  started : phase.windows.started =
    phase.windows.completed + phase.windows.failed + ledger.held.toNat
  completed : phase.windows.completed = ledger.finished
  completedCount : phase.completedCount = published phase.windows.completed
  failedCount : phase.failedCount = published phase.windows.failed

namespace Phase.Settled

variable {depth : ℕ} {ledger : Ledger} {phase : Phase}

section

variable (settled : phase.Settled depth ledger)

include settled

theorem idle (free : ledger.held = false) : phase.Idle := by
  rcases settled.state with ⟨idle, _⟩ | ⟨_, held⟩
  · exact idle
  · rw [free] at held
    cases held

theorem held (taken : ledger.held) : phase.Held := by
  rcases settled.state with ⟨_, free⟩ | ⟨held, _⟩
  · rw [taken] at free
    cases free
  · exact held

theorem fail (free : ledger.held = false) :
    phase.fail.Settled depth ledger := by
  refine { settled with
    state := .inl ⟨(settled.idle free).fail, free⟩, started := ?_, failedCount := ?_ }
  · have started := settled.started
    simp only [Phase.fail]
    omega
  · rw [Phase.fail, settled.failedCount]
    exact addSaturated_published _

theorem hold (free : ledger.held = false)
    {backend : HoldBackend} (stopped : backend ≠ .none) (records : List PatchRecord)
    (memory : ℕ → UInt8) :
    (phase.hold backend records memory).Settled depth { ledger with held := true } := by
  refine { settled with
    state := .inr ⟨⟨rfl, rfl, rfl, ⟨stopped, rfl, rfl⟩, rfl⟩, rfl⟩, migration := ?_, started := ?_ }
  · have migration := settled.migration
    simp_all [Phase.hold]
  · have started := settled.started
    simp_all [Phase.hold, Phase.stop, Phase.gate, Phase.noteStarted]

theorem finish (taken : ledger.held) :
    phase.finish.Settled depth ⟨false, ledger.finished + 1⟩ := by
  refine { settled with
    state := .inl ⟨⟨rfl, rfl, rfl, rfl, rfl, rfl, rfl⟩, rfl⟩, migration := ?_, started := ?_
    completed := congrArg (· + 1) settled.completed, completedCount := ?_ }
  · have migration := settled.migration
    simp_all [Phase.finish]
  · have started := settled.started
    simp_all [Phase.finish, Phase.noteFinished, Phase.release]
    omega
  · have counted := addSaturated_published phase.windows.completed
    rw [← settled.completedCount] at counted
    exact counted

theorem rewrite (memory : ℕ → UInt8) : { phase with memory := memory }.Settled depth ledger := by
  refine { settled with state := ?_ }
  rcases settled.state with ⟨idle, free⟩ | ⟨held, taken⟩
  · exact .inl ⟨{ idle with }, free⟩
  · exact .inr ⟨{ held with heldWith := { held.heldWith with } }, taken⟩

end

end Phase.Settled

def Steps (depth : ℕ) (ledger : Ledger) (phase : Phase) (call : ControllerCall)
    (reply : ControllerReply) (controller : Controller) : Prop :=
  controller.phase.Settled depth (ledger.note call reply.isTrue) ∧
    (reply.isTrue = false → controller.records = phase.records)

section Perform

variable {depth : ℕ} {ledger : Ledger} {phase : Phase} {call : ControllerCall}
  {reply : ControllerReply} {controller : Controller}

variable (settled : phase.Settled depth ledger)

include settled

theorem steps_unchanged (noteEq : ledger.note call reply.isTrue = ledger)
    (here : At phase controller) : Steps depth ledger phase call reply controller := by
  refine ⟨?_, fun _ => congrArg Phase.records here⟩
  rw [here, noteEq]
  exact settled

omit settled in
theorem note_refused {returned : Bool} (refused : returned = false) :
    ledger.note call returned = ledger := by
  rw [refused]
  rfl

theorem steps_concluded {α β : Type} {refused : β → Prop} {prepared : α → Phase → Prop}
    {result : Except β α}
    (free : ledger.held = false)
    (replyEq : reply.isTrue = result.isOk)
    (noteEq : ledger.note call true = { ledger with held := true })
    (success : ∀ value after, prepared value after → ∃ backend records memory,
      backend ≠ .none ∧ after = phase.hold backend records memory)
    (concluded : Concludes phase refused prepared result controller) :
    Steps depth ledger phase call reply controller := by
  cases result with
  | error =>
    rcases concluded.2 with here | here
    · exact steps_unchanged settled (note_refused replyEq) here
    · refine ⟨?_, fun _ => congrArg Phase.records here⟩
      rw [here, replyEq]
      exact settled.fail free
  | ok value =>
    rcases success value _ concluded with ⟨_, records, memory, stopped, after⟩
    refine ⟨?_, fun refused => ?_⟩
    · rw [after, replyEq]
      exact noteEq ▸ settled.hold free stopped records memory
    · rw [replyEq] at refused
      cases refused

theorem finish_steps (environment : CallEnvironment)
    (operationValid : Bool) (noteEq : ledger.note call true =
      ⟨false, if ledger.held then ledger.finished + 1 else ledger.finished⟩) :
    Triple (At phase)
      (do return .single (← finishHookMutation environment operationValid) :
        ControllerM ControllerReply)
      (Steps depth ledger phase call) := by
  cases held : ledger.held with
  | false =>
    refine triple_bind _ (finishHookMutation_idle (settled.idle held) _) fun result => ?_
    refine triple_pure fun controller here => steps_unchanged settled ?_ here
    cases result with
    | error => rfl
    | ok =>
      refine noteEq.trans ?_
      cases ledger
      simp_all
  | true =>
    refine triple_bind _ (finishHookMutation_held (settled.held held) _) fun result => ?_
    refine triple_pure fun controller here => ?_
    cases result with
    | error => exact steps_unchanged settled rfl here
    | ok =>
      rw [held, if_pos rfl] at noteEq
      refine ⟨?_, fun refused => by cases refused⟩
      rw [show controller.phase = phase.finish from here]
      exact noteEq ▸ settled.finish held

theorem perform_triple (environment : CallEnvironment)
    (call : ControllerCall) :
    Triple (At phase) (call.perform environment) (Steps depth ledger phase call) := by
  cases call with
  | prepare request =>
    cases free : ledger.held with
    | true =>
      refine triple_bind _ (prepareHookMutation_refused (settled.held free).active request)
        fun result => ?_
      exact triple_pure fun _ refused =>
        steps_unchanged settled (note_refused refused.isOk) refused.2
    | false =>
      refine triple_bind _ (prepareHookMutation_triple (settled.idle free)) fun result => ?_
      refine triple_pure fun _ concluded => steps_concluded settled free rfl rfl ?_ concluded
      rintro value after ⟨backend, _, records, stopped, _, afterEq⟩
      exact ⟨backend, records, _, stopped, afterEq⟩
  | prepareBatch requests =>
    cases free : ledger.held with
    | true =>
      refine triple_bind _
        (prepareHookMutationBatch_refused (settled.held free).active requests) fun result => ?_
      exact triple_pure fun _ refused =>
        steps_unchanged settled (note_refused refused.isOk) refused.2
    | false =>
      refine triple_bind _ (prepareHookMutationBatch_triple (settled.idle free)) fun result => ?_
      refine triple_pure fun _ concluded => steps_concluded settled free rfl rfl ?_ concluded
      rintro value after ⟨_, backend, plan, stopped, _, _, afterEq⟩
      exact ⟨backend, plan.records, _, stopped, afterEq⟩
  | finish operationValid => exact finish_steps settled environment operationValid rfl
  | finishBatch => exact finish_steps settled environment true rfl
  | shutdownHelper =>
    have noteEq : ∀ returned, ledger.note .shutdownHelper returned = ledger := by
      intro returned
      cases returned <;> rfl
    cases held : ledger.held with
    | true =>
      refine triple_bind _ (shutdownHelper_refused (settled.held held).active) fun result => ?_
      exact triple_pure fun _ refused => steps_unchanged settled (noteEq _) refused.2
    | false =>
      refine triple_bind _ (shutdownHelper_triple (settled.idle held)) fun result => ?_
      exact triple_pure fun _ here => steps_unchanged settled (noteEq _) here
  | rewriteCode memory =>
    refine triple_bind _ (triple_update (fun phase => { phase with memory := memory })
      fun _ => rfl) fun _ => ?_
    refine triple_pure fun controller here => ⟨?_, fun refused => by cases refused⟩
    rw [show controller.phase = { phase with memory := memory } from here]
    exact settled.rewrite memory

end Perform

/-- The calls of a run with their replies. -/
def history (initial : Controller) (events : List (CallEnvironment × ControllerCall)) :
    List (ControllerCall × Except FatalExit ControllerReply) :=
  (events.map Prod.snd).zip (detachController.replies (.ok initial) events)

theorem history_append (initial : Controller)
    (events : List (CallEnvironment × ControllerCall)) (event : CallEnvironment × ControllerCall) :
    history initial (events ++ [event]) = history initial events ++
      [(event.2, detachController.reply (detachController.run (.ok initial) events) event)] := by
  rw [history, history, List.map_append, Machine.replies_append]
  apply List.zip_append
  simp

variable {controller : Controller}

theorem call_alive {state : Except FatalExit Controller} {event : CallEnvironment × ControllerCall}
    (alive : detachController.next state event = .ok controller) :
    ∃ before reply, state = .ok before ∧
      event.2.perform event.1 before = .ok (reply, controller) ∧
      detachController.reply state event = .ok reply := by
  cases state with
  | error => cases alive
  | ok before =>
    simp only [Machine.next, Machine.reply, detachController, Except.bind] at alive ⊢
    cases performed : event.2.perform event.1 before with
    | error =>
      rw [performed] at alive
      cases alive
    | ok pair =>
      rw [performed] at alive
      cases alive
      exact ⟨before, pair.1, rfl, performed, rfl⟩

/-- The state is the one which the ledger describes. -/
structure TransactionInvariant (depth : ℕ) (ledger : Ledger) (controller : Controller) : Prop where
  active : controller.heldMutation.active = ledger.held
  gate : controller.threadGate ≠ 0 ↔ controller.heldMutation.active
  threads : controller.heldBy ≠ .none ↔ controller.heldMutation.active
  statGate : controller.statGateClosed = controller.heldMutation.active
  migration : controller.migrationDisabledDepth =
    depth + if controller.heldMutation.active then 1 else 0
  started : controller.windows.started = controller.windows.completed +
    controller.windows.failed + if controller.heldMutation.active then 1 else 0
  completed : controller.windows.completed = ledger.finished
  completedCount : controller.completedStopWindowCount = published controller.windows.completed
  failedCount : controller.failedStopWindowCount = published controller.windows.failed

theorem Phase.Settled.invariant {depth : ℕ} {ledger : Ledger}
    (settled : controller.phase.Settled depth ledger) :
    TransactionInvariant depth ledger controller := by
  have active : controller.heldMutation.active = ledger.held := by
    rcases settled.state with ⟨idle, free⟩ | ⟨held, taken⟩
    · exact idle.active.trans free.symm
    · exact held.active.trans taken.symm
  have migration : controller.migrationDisabledDepth = depth + ledger.held.toNat :=
    settled.migration
  have started : controller.windows.started =
      controller.windows.completed + controller.windows.failed + ledger.held.toNat :=
    settled.started
  refine ⟨active, ?_, ?_, ?_, ?_, ?_, settled.completed, settled.completedCount,
    settled.failedCount⟩
  · rw [active, ← bne_iff_ne]
    rcases settled.state with ⟨idle, free⟩ | ⟨held, taken⟩
    · rw [free, show (controller.threadGate != 0) = false from idle.gated]
    · rw [taken, show (controller.threadGate != 0) = true from held.gated]
  · rw [active]
    rcases settled.state with ⟨idle, free⟩ | ⟨held, taken⟩
    · rw [free, show controller.heldBy = .none from idle.heldBy]
      simp
    · have holder : controller.heldBy = controller.heldMutation.backend := held.heldWith.heldBy
      rw [taken, holder]
      exact ⟨fun _ => rfl, fun _ => held.heldWith.stopped⟩
  · rw [active]
    rcases settled.state with ⟨idle, free⟩ | ⟨held, taken⟩
    · exact idle.statClosed.trans free.symm
    · exact held.statClosed.trans taken.symm
  · rw [active, migration]
    cases ledger.held <;> rfl
  · rw [active, started]
    cases ledger.held <;> rfl

theorem settled_run (depth : ℕ) (memory : ℕ → UInt8)
    (events : List (CallEnvironment × ControllerCall)) (controller : Controller)
    (alive : detachController.run (.ok (Controller.initial depth memory)) events = .ok controller) :
    controller.phase.Settled depth
      (Ledger.ofHistory (history (Controller.initial depth memory) events)) := by
  induction events using List.reverseRecOn generalizing controller with
  | nil =>
    cases alive
    exact ⟨.inl ⟨⟨rfl, rfl, rfl, rfl, rfl, rfl, rfl⟩, rfl⟩, rfl, rfl, rfl, rfl, rfl, rfl⟩
  | append_singleton events event ih =>
    rw [Machine.run_append] at alive
    rcases call_alive alive with ⟨before, reply, beforeEq, performed, replyEq⟩
    have stepped := perform_triple (ih before beforeEq) event.1 event.2 before reply controller
      rfl performed
    rw [history_append, replyEq, Ledger.ofHistory, List.foldl_append]
    exact stepped.1

theorem performed_of_call {controller after : Controller} {environment : CallEnvironment}
    {call : ControllerCall} {reply : ControllerReply}
    (called : detachController.call (.ok controller) (environment, call) =
      (.ok reply, .ok after)) : call.perform environment controller = .ok (reply, after) := by
  have next : detachController.next (.ok controller) (environment, call) = .ok after :=
    congrArg Prod.snd called
  rcases call_alive next with ⟨before, answer, beforeEq, performed, answered⟩
  have sameReply : answer = reply := by
    have replied : detachController.reply (.ok controller) (environment, call) = .ok reply :=
      congrArg Prod.fst called
    rw [answered] at replied
    exact Except.ok.inj replied
  cases beforeEq
  subst sameReply
  exact performed

theorem transactions_balanced (depth : ℕ) (memory : ℕ → UInt8)
    (events : List (CallEnvironment × ControllerCall)) (controller : Controller)
    (alive : detachController.run (.ok (Controller.initial depth memory)) events = .ok controller) :
    TransactionInvariant depth
        (Ledger.ofHistory (history (Controller.initial depth memory) events)) controller ∧
      ∀ environment call reply after,
        detachController.call (.ok controller) (environment, call) = (.ok reply, .ok after) →
          reply.isTrue = false → after.records = controller.records := by
  have settled := settled_run depth memory events controller alive
  refine ⟨settled.invariant, ?_⟩
  intro environment call reply after called refused
  have stepped := perform_triple settled environment call controller reply after rfl
    (performed_of_call called)
  exact stepped.2 refused

def signalEnvironment : CallEnvironment where
  requestedBackend := .signal
  autoUsesSignal := false
  interceptors := fun _ => []
  breakpointCanEvac := false
  ensureSignal := .ok ()
  ensureHelper := .error .unsupported
  ensureSignalInstead := .ok ()
  ensureSignalAfterStop := .ok ()
  helperDrained := true
  helperStop := .stopped []
  signalDrained := true
  signalStop := .stopped [⟨7, .ok, 0x5000⟩]
  contaminated := fun _ => false
  helperEvacuate := .answered .ok
  signalEvacuate := .done false
  helperResume := .answered .ok
  signalRelease := .ok ()
  helperShutdown := .answered .ok
  candidatesAllocated := true
  snapshotAllocated := true
  startTime := 5
  startTime_pos := by decide
  endTime := 9

theorem transactions_balanced_attach : ∃ controller,
    detachController.run (.ok (Controller.initial 0 fun _ => 0))
        [(signalEnvironment, .prepare ⟨1, 0x1000, 1, 1, .attach, 0, 0⟩),
          (signalEnvironment, .finish true)] = .ok controller ∧
      controller.windows = ⟨1, 1, 0⟩ ∧ controller.migrationDisabledDepth = 0 :=
  ⟨_, rfl, rfl, (transactions_balanced 0 (fun _ => 0)
    [(signalEnvironment, .prepare ⟨1, 0x1000, 1, 1, .attach, 0, 0⟩),
      (signalEnvironment, .finish true)] _ rfl).1.migration⟩

end Peak
