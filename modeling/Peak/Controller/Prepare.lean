import Peak.Controller.Phase

/-!
# Specification of preparations

A preparation that starts in an idle phase ends in the same phase, possibly with one
failed stop window more, or in a phase in which its mutation is held.
-/

namespace Peak

open Program List Phase Option

variable {backend : HoldBackend} (request : DetachRequest) (snapshot : GumSnapshot)

/-- The tables agree outside the record that is saved before a classification. -/
def AgreeOutside (saved : Option (ℕ × PatchRecord)) (before after : List PatchRecord) : Prop :=
  ∀ other, (∀ index record, saved = some (index, record) → other ≠ index) →
    after[other]? = before[other]?

variable {records : List PatchRecord} {hookId index : ℕ}

theorem scalarRecord_some {record : PatchRecord}
    (saved : scalarRecord records hookId = some (index, record)) :
    records[index]? = some record := by
  simp only [scalarRecord, bind_eq_some_iff, map_eq_some_iff] at saved
  rcases saved with ⟨_, _, entry, entryAt, pairEq⟩
  cases pairEq
  exact entryAt

theorem restoreRecord_eq {before after : List PatchRecord}
    (sameLength : after.length = before.length)
    (agree : AgreeOutside (scalarRecord before hookId) before after) :
    restoreRecord (scalarRecord before hookId) after = before := by
  apply ext_getElem?
  intro other
  cases saved : scalarRecord before hookId with
  | none => exact agree other (by simp [saved])
  | some pair =>
    rcases pair with ⟨index, _⟩
    have present := scalarRecord_some saved
    simp only [restoreRecord, getElem?_set]
    split
    next same =>
      have bound : index < before.length := (List.getElem?_eq_some_iff.mp present).1
      subst same
      rw [if_pos (sameLength ▸ bound), present]
    next different =>
      apply agree other
      intro found entry savedEq sameIndex
      rw [saved] at savedEq
      cases savedEq
      exact different sameIndex.symm

theorem findIdx?_getElem? {test : PatchRecord → Bool} (found : records.findIdx? test = some index) :
    ∃ record, records[index]? = some record ∧ test record := by
  rw [findIdx?_eq_some_iff_getElem] at found
  rcases found with ⟨bound, holds, _⟩
  exact ⟨records[index], getElem?_eq_getElem bound, holds⟩

theorem openDetachRecord_index {opened : List PatchRecord} {created : Bool}
    (opens : openDetachRecord records hookId = some (index, created, opened)) :
    (∃ record, scalarRecord records hookId = some (index, record)) ∧
      opened.length = records.length ∧
      ∀ other, other ≠ index → opened[other]? = records[other]? := by
  unfold openDetachRecord at opens
  split at opens
  next found findEq =>
    cases opens
    rcases findIdx?_getElem? findEq with ⟨record, present, _⟩
    exact ⟨⟨record, by simp [scalarRecord, findEq, present]⟩, rfl, fun _ _ => rfl⟩
  next findEq =>
    simp only [PatchRecord.create, Option.map_map, map_eq_some_iff] at opens
    rcases opens with ⟨free, freeEq, openedEq⟩
    cases openedEq
    rcases findIdx?_getElem? freeEq with ⟨record, present, _⟩
    refine ⟨⟨record, by simp [scalarRecord, findEq, freeEq, present]⟩, by simp, ?_⟩
    intro other different
    exact getElem?_set_ne (Ne.symm different)

theorem appendDetachPatch_agree (patchAddress : ℕ) (patch : GumPatch)
    (mutation : HeldMutation) (records : List PatchRecord) :
    (appendDetachPatch request patchAddress patch mutation records).2.length = records.length ∧
      AgreeOutside (scalarRecord records request.hookId) records
        (appendDetachPatch request patchAddress patch mutation records).2 := by
  unfold appendDetachPatch
  split
  · exact ⟨rfl, fun _ _ => rfl⟩
  next index created opened opens =>
    rcases openDetachRecord_index opens with ⟨⟨record, saved⟩, sameLength, agree⟩
    have outside : ∀ other, (∀ index record,
        scalarRecord records request.hookId = some (index, record) → other ≠ index) →
          other ≠ index := fun other away => away index record saved
    split
    · split
      · refine ⟨by simpa using sameLength, fun other away => ?_⟩
        rw [getElem?_set_ne (outside other away).symm]
        exact agree other (outside other away)
      · exact ⟨sameLength, fun other away => agree other (outside other away)⟩
    · refine ⟨by simpa using sameLength, fun other away => ?_⟩
      rw [← agree other (outside other away)]
      exact getElem?_modify_ne _ _ (outside other away).symm

theorem appendPhysicalPatch_records (mutation : HeldMutation) (records : List PatchRecord) :
    (appendPhysicalPatch request snapshot mutation records).2 = records ∨
      ∃ patch, request.operation = .detach ∧ snapshot.patch = some patch ∧
        appendPhysicalPatch request snapshot mutation records =
          appendDetachPatch request (canonicalFunctionAddress request snapshot) patch mutation
            records := by
  by_cases detach : request.operation = .detach
  · simp only [appendPhysicalPatch, detach]
    split
    · exact .inl rfl
    next patch present =>
      split
      · exact .inl rfl
      · exact .inr ⟨patch, trivial, present, rfl⟩
  · left
    simp only [appendPhysicalPatch, detach]
    split
    · rfl
    · rfl
    · rfl
    all_goals
      split
      · rfl
      · split <;> rfl

theorem classifyStoppedThreads_agree
    (canSingleStep : Bool) (threads : List ThreadSnapshot) (mutation : HeldMutation)
    (records : List PatchRecord) :
    let after := (classifyStoppedThreads request snapshot canSingleStep threads mutation records).2
    after.length = records.length ∧
      AgreeOutside (scalarRecord records request.hookId) records after := by
  simp only [classifyStoppedThreads]
  split
  · exact ⟨rfl, fun _ _ => rfl⟩
  next classified _ =>
    rcases appendPhysicalPatch_records request snapshot classified records with
      same | ⟨_, _, _, detached⟩
    · rw [same]
      exact ⟨rfl, fun _ _ => rfl⟩
    · rw [detached]
      exact appendDetachPatch_agree ..

theorem restoreRecord_classify
    (canSingleStep : Bool) (threads : List ThreadSnapshot) (mutation : HeldMutation)
    (records : List PatchRecord) :
    restoreRecord (scalarRecord records request.hookId)
      (classifyStoppedThreads request snapshot canSingleStep threads mutation records).2 =
      records := by
  rcases classifyStoppedThreads_agree request snapshot canSingleStep threads mutation records
    with ⟨sameLength, agree⟩
  exact restoreRecord_eq sameLength agree

/-- A preparation leaves the phase as it is, counts a failed window, or is successful. -/
def Concludes {α β : Type} (phase : Phase) (refused : β → Prop) (prepared : α → Phase → Prop)
    (result : Except β α) (controller : Controller) : Prop :=
  match result with
  | .error failure => refused failure ∧ (At phase controller ∨ At phase.fail controller)
  | .ok value => prepared value controller.phase

section Exits

variable {α β : Type} {phase : Phase} {environment : CallEnvironment} {refused : β → Prop}
  {prepared : α → Phase → Prop} {failure : β}

theorem failLocked_triple (refusal : refused failure) :
    Triple (At phase.lock) (failLocked failure) (Concludes phase refused prepared) := by
  refine triple_bind _ unlockMutationGuard_triple fun _ => ?_
  exact triple_pure fun _ here => ⟨refusal, .inl here⟩

theorem Phase.Idle.fail_eq (idle : phase.Idle) :
    { phase.lock.gate.noteFailed with gated := false }.unlock = phase.fail := by
  have opened := idle.gated
  have closed := idle.windowOpen
  simp [lock, gate, noteStarted, noteFailed, unlock, fail,
    opened, closed]

theorem failWindow_triple (idle : phase.Idle) (refusal : refused failure) :
    Triple (At phase.lock.gate) (failWindow environment failure)
      (Concludes phase refused prepared) := by
  refine triple_bind _ (noteStopWindowFailed_triple rfl) fun _ => ?_
  refine triple_bind _ endThreadCreationGate_triple fun _ => ?_
  refine triple_bind _ unlockMutationGuard_triple fun _ => ?_
  exact triple_pure fun _ here => ⟨refusal, .inr (idle.fail_eq ▸ here)⟩

theorem failPlanned_triple (idle : phase.Idle) (refusal : refused failure) :
    Triple (At phase.lock.gate) (failPlanned environment failure)
      (Concludes phase refused prepared) := by
  refine triple_bind _ (noteStopWindowFailed_triple rfl) fun _ => ?_
  refine triple_bind _ endThreadCreationGate_triple fun _ => ?_
  refine triple_bind _ (triple_update
    (fun phase => { phase with active := false, backend := .none }) fun _ => rfl) fun _ => ?_
  refine triple_bind _ unlockMutationGuard_triple fun _ => ?_
  refine triple_pure fun _ here => ⟨refusal, .inr ?_⟩
  have unplanned : { phase.lock.gate.noteFailed with
      gated := false, active := false, backend := .none }.unlock = phase.fail := by
    rw [← idle.fail_eq]
    simp [lock, gate, noteStarted, noteFailed, idle.active, idle.backend]
  exact unplanned ▸ here

theorem gated_free (idle : phase.Idle) : phase.lock.gate.Free :=
  ⟨idle.statClosed, idle.heldBy, idle.signalHold⟩

variable {backend : HoldBackend}

theorem release_eq_gated (idle : phase.Idle) {stopped : Phase}
    (stoppedEq : stopped = phase.lock.gate.stop backend) : stopped.release = phase.lock.gate := by
  rw [stoppedEq, release_stop, (gated_free idle).eq_release]

theorem failContaminated_triple (idle : phase.Idle) (refusal : refused failure)
    (reason : String) :
    Triple (At (phase.lock.gate.stop .signal)) (failContaminated environment reason failure)
      (Concludes phase refused prepared) := by
  refine triple_bind _ (signalReleaseOrFatal_triple rfl reason) fun _ => ?_
  rw [release_eq_gated idle rfl]
  exact failPlanned_triple idle refusal

theorem failClassified_triple (idle : phase.Idle) (refusal : refused failure)
    (stopped : backend ≠ .none) (reason : String) :
    Triple (At (phase.lock.gate.stop backend))
      (failClassified environment backend reason failure)
      (Concludes phase refused prepared) := by
  refine triple_bind_except (resumeBackend_triple ⟨stopped, rfl, rfl⟩)
    (fun _ => triple_throw) fun _ => ?_
  refine triple_consequence (failWindow_triple idle refusal) (fun _ released => ?_)
    fun _ _ concluded => concluded
  rw [← release_eq_gated idle rfl]
  exact released rfl

theorem failEvacuated_triple (idle : phase.Idle) (refusal : refused failure) (reason : String) :
    Triple (At (if backend = .signal then phase.lock.gate.stop backend else phase.lock.gate))
      (failEvacuated environment backend reason failure)
      (Concludes phase refused prepared) := by
  unfold failEvacuated
  split
  next signal =>
    subst signal
    exact failContaminated_triple idle refusal reason
  · exact failPlanned_triple idle refusal

theorem holdMutation_triple {stopped : Phase} (mutation : HeldMutation) (backend : HoldBackend) :
    Triple (At stopped) (holdMutation mutation backend) (fun _ => At
      { stopped with
        active := true
        backend := backend
        migrationDisabled := stopped.migrationDisabled + 1 }.unlock) := by
  unfold holdMutation
  split
  on_goal 1 => refine triple_bind _ (triple_unobserved fun _ => rfl) fun _ => ?_
  all_goals
    refine triple_bind _ (triple_update (fun phase =>
      { phase with active := true, backend := backend }) fun _ => rfl) fun _ => ?_
    refine triple_bind _ (triple_update (fun phase =>
      { phase with migrationDisabled := phase.migrationDisabled + 1 }) fun _ => rfl) fun _ => ?_
    exact unlockMutationGuard_triple

theorem setRecords_triple (records : List PatchRecord) :
    Triple (At phase) (setRecords records) (fun _ => At { phase with records := records }) :=
  triple_update (fun phase => { phase with records := records }) fun _ => rfl

theorem resetStart_triple (idle : phase.Idle) :
    Triple (At phase.lock)
      (modify fun controller => { controller with heldMutationStartedAt := 0 } : ControllerM Unit)
      (fun _ => At phase.lock) := by
  have closed : { phase.lock with windowOpen := false } = phase.lock := by
    rw [← idle.windowOpen]
    rfl
  exact closed ▸ triple_update (fun phase => { phase with windowOpen := false }) fun _ => rfl

theorem commitPlan_triple (idle : phase.Idle) (stopped : backend ≠ .none)
    {records : List PatchRecord} {restore : ControllerM Unit}
    (restores : ∀ start : Phase, start.records = records →
      Triple (At start) restore (fun _ => At { start with records := phase.records }))
    (evacuateAbort contamination : String) (mutation : HeldMutation)
    {evacuateFailed : PlanFailure → β} {value : α}
    (evacuateRefused : ∀ failure : PlanFailure, failure.missingPatchRecord = false →
      refused (evacuateFailed failure)) (contaminationRefused : refused failure)
    (success : prepared value
      (phase.hold backend records (applyWrites phase.memory mutation.instructions))) :
    Triple (At { phase.lock.gate.stop backend with records := records })
      (commitPlan environment backend restore evacuateAbort contamination mutation evacuateFailed
        failure value)
      (Concludes phase refused prepared) := by
  have held : { phase.lock.gate.stop backend with records := records }.HeldWith backend :=
    ⟨stopped, rfl, rfl⟩
  refine triple_bind _ (evacuatePlan_triple held mutation.instructions) fun result => ?_
  cases result with
  | error failure =>
    refine triple_of_fact fun notMissing => ?_
    refine triple_bind (fun _ =>
      At (if backend = .signal then phase.lock.gate.stop backend else phase.lock.gate)) ?_
      fun _ => failEvacuated_triple idle (evacuateRefused failure notMissing) _
    split
    · exact restores _ rfl
    · have released : { phase.lock.gate.stop backend with records := records }.release =
          { phase.lock.gate with records := records } :=
        congrArg (fun opened => ({ opened with records := records } : Phase))
          (release_eq_gated idle rfl)
      rw [released]
      exact restores _ rfl
  | ok =>
    refine triple_bind _ (checkContamination_triple backend .afterEvacuate) fun clean => ?_
    cases clean with
    | true =>
      refine triple_bind _ (triple_consequence (holdMutation_triple mutation backend)
        (fun _ checked => checked.1.1) fun _ _ here => here) fun _ => ?_
      refine triple_pure fun _ here => ?_
      rw [Concludes, here]
      exact success
    | false =>
      -- a contamination is only reported while nothing has been written
      refine triple_bind (fun _ => At (phase.lock.gate.stop .signal)) ?_ fun _ =>
        failContaminated_triple idle contaminationRefused _
      refine triple_consequence (restores
        { phase.lock.gate.stop .signal with records := records } rfl) ?_ fun _ _ here => here
      rintro controller ⟨⟨here, unwritten⟩, contaminated⟩
      rcases contaminated rfl with ⟨rfl, unstarted⟩
      rw [unwritten rfl unstarted] at here
      exact here

end Exits

section Single

variable {phase : Phase} {environment : CallEnvironment} {request : DetachRequest}

/-- The outcome of classifying the threads of some stop. -/
def Classified (environment : CallEnvironment) (phase : Phase) (request : DetachRequest)
    (result : Except PlanFailure HeldMutation) (records : List PatchRecord) : Prop :=
  ∃ snapshot canSingleStep threads mutation,
    captureGumSnapshot ⟨environment.interceptors, phase.memory⟩ request = .ok snapshot ∧
      classifyStoppedThreads request snapshot canSingleStep threads mutation phase.records =
        (result, records)

def SingleRefused (environment : CallEnvironment) (phase : Phase) (request : DetachRequest)
    (failure : PlanFailure) : Prop :=
  failure.missingPatchRecord = true →
    ∃ records, Classified environment phase request (.error failure) records

/-- The writes of a plan are done, its threads held. -/
def SinglePrepared (environment : CallEnvironment) (phase : Phase) (request : DetachRequest)
    (_ : Unit) (after : Phase) : Prop :=
  ∃ backend mutation records, backend ≠ .none ∧
    Classified environment phase request (.ok mutation) records ∧
    after = phase.hold backend records (applyWrites phase.memory mutation.instructions)

theorem singleRefused_of_not_missing {failure : PlanFailure}
    (notMissing : failure.missingPatchRecord = false) :
    SingleRefused environment phase request failure :=
  fun missing => absurd missing (by simp [notMissing])

theorem mutateStopped_triple (idle : phase.Idle)
    (stopped : backend ≠ .none) {snapshot : GumSnapshot}
    (captured : captureGumSnapshot ⟨environment.interceptors, phase.memory⟩ request =
      .ok snapshot) (threads : List ThreadSnapshot) :
    Triple (At (phase.lock.gate.stop backend))
      (mutateStopped environment request snapshot backend threads)
      (Concludes phase (SingleRefused environment phase request)
        (SinglePrepared environment phase request)) := by
  refine triple_bind _ (checkContamination_triple backend .beforePlan) fun clean => ?_
  cases clean with
  | false =>
    refine triple_pre ?_ (failContaminated_triple idle (singleRefused_of_not_missing rfl) _)
    rintro controller ⟨here, contaminated⟩
    rcases contaminated rfl with ⟨rfl, _⟩
    exact here
  | true =>
    refine triple_pre (fun _ checked => checked.1) (triple_read fun read readPhase => ?_)
    have readRecords : read.records = phase.records := congrArg records readPhase
    have restored := restoreRecord_classify request snapshot
      (backend.canSingleStep environment.breakpointCanEvac) threads read.heldMutation
      read.records
    cases classification : classifyStoppedThreads request snapshot
        (backend.canSingleStep environment.breakpointCanEvac) threads read.heldMutation
        read.records with
    | mk result records =>
      rw [classification] at restored
      have classified : Classified environment phase request result records :=
        ⟨snapshot, _, threads, read.heldMutation, captured, readRecords ▸ classification⟩
      have restores : ∀ start : Phase, start.records = records →
          Triple (At start) (restoreScalarRecord (scalarRecord read.records request.hookId))
            (fun _ => At { start with records := phase.records }) := by
        intro start recorded
        have back : restoreRecord (scalarRecord read.records request.hookId) start.records =
            phase.records := by
          rw [recorded, restored, readRecords]
        rw [← back]
        exact triple_update (fun phase => { phase with records := restoreRecord _ phase.records })
          fun _ => rfl
      refine triple_bind _ (setRecords_triple records) fun _ => ?_
      cases result with
      | error =>
        refine triple_bind _ (restores _ rfl) fun _ => ?_
        exact failClassified_triple idle (fun _ => ⟨records, classified⟩) stopped _
      | ok mutation =>
        exact commitPlan_triple idle stopped restores _ _ mutation
          (fun _ notMissing => singleRefused_of_not_missing notMissing)
          (singleRefused_of_not_missing rfl)
          ⟨backend, mutation, records, stopped, classified, rfl⟩

theorem mutateGated_triple (idle : phase.Idle) (backend : HoldBackend) {snapshot : GumSnapshot}
    (captured : captureGumSnapshot ⟨environment.interceptors, phase.memory⟩ request =
      .ok snapshot) :
    Triple (At phase.lock) (mutateGated environment request snapshot backend)
      (Concludes phase (SingleRefused environment phase request)
        (SinglePrepared environment phase request)) := by
  refine triple_bind _ beginThreadCreationGate_triple fun _ => ?_
  refine triple_bind _ noteStopWindowStarted_triple fun _ => ?_
  refine triple_bind _ (stopApplication_triple (gated_free idle) backend) fun result => ?_
  cases result with
  | error =>
    refine triple_pre (fun _ ended => ended.1) (triple_of_fact fun notMissing => ?_)
    exact failWindow_triple idle (singleRefused_of_not_missing notMissing)
  | ok stopped =>
    rcases stopped with ⟨_, threads⟩
    refine triple_pre (fun _ ended => ⟨ended.2 _ rfl, ended.1⟩) (triple_of_fact fun stopped => ?_)
    exact mutateStopped_triple idle stopped captured threads

theorem captureGumSnapshot_not_missing {gum : GumState} {failure : PlanFailure}
    (failed : captureGumSnapshot gum request = .error failure) :
    failure.missingPatchRecord = false := by
  simp only [captureGumSnapshot] at failed
  split at failed
  · cases failed
    rfl
  · split at failed
    · split at failed
      · cases failed
        rfl
      · cases failed
    · cases failed

theorem validateRequest_not_missing {failure : PlanFailure}
    (failed : validateRequest request = .error failure) : failure.missingPatchRecord = false := by
  simp only [validateRequest] at failed
  split at failed
  · cases failed
    rfl
  · split at failed
    · cases failed
      rfl
    · cases failed

theorem prepareHookMutation_triple (idle : phase.Idle) :
    Triple (At phase) (prepareHookMutation environment request)
      (Concludes phase (SingleRefused environment phase request)
        (SinglePrepared environment phase request)) := by
  unfold prepareHookMutation
  split
  next failure invalid =>
    exact triple_pure fun _ here =>
      ⟨singleRefused_of_not_missing (validateRequest_not_missing invalid), .inl here⟩
  · refine triple_bind _ lockMutationGuard_triple fun _ => ?_
    refine triple_read fun read readPhase => ?_
    have inactive : read.heldMutation.active = false := by
      rw [← idle.active]
      exact congrArg active readPhase
    simp only [inactive]
    refine triple_bind _ (resetStart_triple idle) fun _ => ?_
    refine triple_read fun read _ => ?_
    split
    · exact failLocked_triple (singleRefused_of_not_missing rfl)
    · refine triple_bind _ selectBackend_triple fun result => ?_
      cases result with
      | error =>
        refine triple_of_fact fun notMissing => ?_
        exact failLocked_triple (singleRefused_of_not_missing notMissing)
      | ok backend =>
        refine triple_read fun read readPhase => ?_
        have readMemory : read.memory = phase.memory := congrArg memory readPhase
        rw [readMemory]
        split
        next failure failed =>
          exact failLocked_triple
            (singleRefused_of_not_missing (captureGumSnapshot_not_missing failed))
        next snapshot captured =>
          exact mutateGated_triple idle backend captured

end Single

section Batch

variable {phase : Phase} {environment : CallEnvironment} {requests : List DetachRequest}

def batchCandidates (environment : CallEnvironment) (phase : Phase)
    (requests : List DetachRequest) : List BatchCandidate :=
  BatchCandidate.ofRequests ⟨environment.interceptors, phase.memory⟩ phase.records requests

def BatchClassified (environment : CallEnvironment) (phase : Phase)
    (requests : List DetachRequest) (plan : BatchPlan) : Prop :=
  ∃ canSingleStep threads,
    classifyBatch canSingleStep threads ⟨HeldMutation.zero, phase.records, [], []⟩
      (batchCandidates environment phase requests) = .ok plan

def BatchRefused (environment : CallEnvironment) (phase : Phase) (requests : List DetachRequest)
    (failed : List (DetachRequest × PlanFailure)) : Prop :=
  ∀ entry ∈ failed, entry.2.missingPatchRecord →
    entry ∈ BatchCandidate.failures (batchCandidates environment phase requests) ∨
      ∃ plan, BatchClassified environment phase requests plan ∧ entry ∈ plan.refused

def BatchFailed (environment : CallEnvironment) (phase : Phase) (requests : List DetachRequest)
    (failure : BatchFailure) : Prop :=
  BatchRefused environment phase requests failure.failed

def BatchPrepared (environment : CallEnvironment) (phase : Phase) (requests : List DetachRequest)
    (results : BatchResults) (after : Phase) : Prop :=
  BatchRefused environment phase requests results.failed ∧
    ∃ backend plan, backend ≠ .none ∧ BatchClassified environment phase requests plan ∧
      results.prepared = plan.accepted ∧
      after = phase.hold backend plan.records (applyWrites phase.memory plan.aggregate.instructions)

theorem batchFailed_failAll (refusedRequests : List DetachRequest) {failure : PlanFailure}
    (notMissing : failure.missingPatchRecord = false) :
    BatchFailed environment phase requests (failAll refusedRequests failure) := by
  intro entry entryMem missing
  rcases mem_map.mp entryMem with ⟨_, _, rfl⟩
  exact absurd missing (by simp [notMissing])

theorem batchFailed_failCandidates {failure : PlanFailure}
    (notMissing : failure.missingPatchRecord = false) :
    BatchFailed environment phase requests
      (failCandidates (batchCandidates environment phase requests) failure) := by
  intro entry entryMem missing
  left
  simp only [failCandidates, BatchCandidate.failValid, BatchCandidate.failures,
    mem_filterMap, List.mem_map] at entryMem ⊢
  rcases entryMem with ⟨_, ⟨candidate, candidateMem, rfl⟩, failed⟩
  split at failed
  · simp only [BatchCandidate.refuse, map_some, some.injEq] at failed
    rw [← failed] at missing
    exact absurd missing (by simp [notMissing])
  · exact ⟨candidate, candidateMem, failed⟩

theorem batchRefused_candidates :
    BatchRefused environment phase requests
      (BatchCandidate.failures (batchCandidates environment phase requests)) := by
  intro entry entryMem _
  exact .inl entryMem

theorem BatchRefused.append {left right : List (DetachRequest × PlanFailure)}
    (first : BatchRefused environment phase requests left)
    (second : BatchRefused environment phase requests right) :
    BatchRefused environment phase requests (left ++ right) :=
  forall_mem_append.mpr ⟨first, second⟩

theorem appendInstructions_not_missing {aggregate instructions : List Instruction}
    {failure : PlanFailure}
    (failed : HeldMutation.appendInstructions aggregate instructions = .error failure) :
    failure.missingPatchRecord = false := by
  induction instructions generalizing aggregate with
  | nil => cases failed
  | cons _ _ ih =>
    simp only [HeldMutation.appendInstructions] at failed
    split at failed
    · cases failed
      rfl
    · split at failed
      · exact ih failed
      · split at failed
        · cases failed
          rfl
        · exact ih failed

theorem classifyBatch_not_missing {canSingleStep : Bool} {threads : List ThreadSnapshot}
    {plan : BatchPlan} {candidates : List BatchCandidate} {failure : PlanFailure}
    (failed : classifyBatch canSingleStep threads plan candidates = .error failure) :
    failure.missingPatchRecord = false := by
  induction candidates generalizing plan with
  | nil => cases failed
  | cons _ _ ih =>
    simp only [classifyBatch] at failed
    split at failed
    · exact ih failed
    · split at failed
      · exact ih failed
      · split at failed
        next merged =>
          cases failed
          simp only [HeldMutation.appendCandidate] at merged
          split at merged
          next appendFailed =>
            cases merged
            exact appendInstructions_not_missing appendFailed
          · cases merged
        · exact ih failed

theorem commitBatch_triple (idle : phase.Idle)
    (stopped : backend ≠ .none) {plan : BatchPlan}
    (classified : BatchClassified environment phase requests plan) :
    Triple (At { phase.lock.gate.stop backend with records := plan.records })
      (commitBatch environment backend phase.records (batchCandidates environment phase requests)
        plan)
      (Concludes phase (BatchFailed environment phase requests)
        (BatchPrepared environment phase requests)) := by
  have refused : BatchRefused environment phase requests
      (BatchCandidate.failures (batchCandidates environment phase requests) ++ plan.refused) :=
    batchRefused_candidates.append fun entry entryMem _ => .inr ⟨plan, classified, entryMem⟩
  unfold commitBatch
  split
  · refine triple_bind _ (setRecords_triple phase.records) fun _ => ?_
    have failed : BatchFailed environment phase requests ⟨⟨.classifyFailed, none⟩, _⟩ := refused
    exact failClassified_triple idle failed stopped _
  · refine commitPlan_triple idle stopped (fun _ _ => setRecords_triple _) _ _ _ ?_
      (batchFailed_failAll _ rfl) ⟨refused, backend, plan, stopped, classified, rfl, rfl⟩
    intro failure notMissing
    refine refused.append fun entry entryMem missing => ?_
    rcases mem_map.mp entryMem with ⟨_, _, rfl⟩
    exact absurd missing (by simp [notMissing])

theorem batchStopped_triple (idle : phase.Idle)
    (stopped : backend ≠ .none) (threads : List ThreadSnapshot) :
    Triple (At (phase.lock.gate.stop backend))
      (batchStopped environment (batchCandidates environment phase requests) phase.records backend
        threads)
      (Concludes phase (BatchFailed environment phase requests)
        (BatchPrepared environment phase requests)) := by
  refine triple_bind _ (checkContamination_triple backend .beforePlan) fun clean => ?_
  cases clean with
  | false =>
    refine triple_pre (fun _ checked => ⟨(checked.2 rfl).1, checked.1⟩)
      (triple_of_fact fun signal => ?_)
    subst signal
    refine triple_bind _ (setRecords_triple phase.records) fun _ => ?_
    exact failContaminated_triple idle (batchFailed_failAll _ rfl) _
  | true =>
    refine triple_pre (fun _ checked => checked.1) (triple_read fun read readPhase => ?_)
    have readRecords : read.records = phase.records := congrArg records readPhase
    dsimp only
    rw [readRecords]
    split
    next failure failed =>
      refine triple_bind _ (setRecords_triple phase.records) fun _ => ?_
      exact failClassified_triple idle
        (batchFailed_failCandidates (classifyBatch_not_missing failed)) stopped _
    next plan classified =>
      refine triple_bind _ (setRecords_triple plan.records) fun _ => ?_
      exact commitBatch_triple idle stopped ⟨_, threads, classified⟩

theorem batchGated_triple (idle : phase.Idle) (backend : HoldBackend) :
    Triple (At phase.lock)
      (batchGated environment (batchCandidates environment phase requests) phase.records backend)
      (Concludes phase (BatchFailed environment phase requests)
        (BatchPrepared environment phase requests)) := by
  refine triple_bind _ beginThreadCreationGate_triple fun _ => ?_
  refine triple_bind _ noteStopWindowStarted_triple fun _ => ?_
  refine triple_bind _ (stopApplication_triple (gated_free idle) backend) fun result => ?_
  cases result with
  | error =>
    refine triple_pre (fun _ ended => ended.1) (triple_of_fact fun notMissing => ?_)
    exact failWindow_triple idle (batchFailed_failCandidates notMissing)
  | ok stopped =>
    rcases stopped with ⟨_, threads⟩
    refine triple_pre (fun _ ended => ⟨ended.2 _ rfl, ended.1⟩) (triple_of_fact fun stopped => ?_)
    exact batchStopped_triple idle stopped threads

theorem prepareHookMutationBatch_triple (idle : phase.Idle) :
    Triple (At phase) (prepareHookMutationBatch environment requests)
      (Concludes phase (BatchFailed environment phase requests)
        (BatchPrepared environment phase requests)) := by
  unfold prepareHookMutationBatch
  split
  · exact triple_pure fun _ here => ⟨batchFailed_failAll requests rfl, .inl here⟩
  · refine triple_bind _ lockMutationGuard_triple fun _ => ?_
    refine triple_read fun read readPhase => ?_
    have inactive : read.heldMutation.active = false := by
      rw [← idle.active]
      exact congrArg active readPhase
    simp only [inactive]
    refine triple_bind _ (resetStart_triple idle) fun _ => ?_
    refine triple_read fun read _ => ?_
    split
    · exact failLocked_triple (batchFailed_failAll requests rfl)
    · refine triple_read fun read readPhase => ?_
      have readRecords : read.records = phase.records := congrArg records readPhase
      have readMemory : read.memory = phase.memory := congrArg memory readPhase
      have candidatesEq : BatchCandidate.ofRequests ⟨environment.interceptors, read.memory⟩
          read.records requests = batchCandidates environment phase requests := by
        rw [readRecords, readMemory]
        rfl
      simp only [candidatesEq]
      split
      · exact failLocked_triple batchRefused_candidates
      · refine triple_bind _ selectBackend_triple fun result => ?_
        cases result with
        | error =>
          refine triple_of_fact fun notMissing => ?_
          exact failLocked_triple (batchFailed_failCandidates notMissing)
        | ok backend =>
          dsimp only
          split
          · exact failLocked_triple (batchFailed_failCandidates rfl)
          · refine triple_read fun read readPhase => ?_
            have readRecords : read.records = phase.records := congrArg records readPhase
            rw [readRecords]
            exact batchGated_triple idle backend

end Batch

end Peak
