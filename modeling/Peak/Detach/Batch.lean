import Peak.Detach.Plan

/-!
# Planning of batched mutations

The part of `prepare_hook_mutation_batch` that selects the candidates of a batch and
merges the plans of the safe ones into one aggregate plan.
-/

namespace Peak

def validateRequest (request : DetachRequest) : Except PlanFailure Unit :=
  if request.interceptor = 0 ∨ request.functionAddress = 0 then
    .error ⟨.error, none⟩
  else if request.operation ≠ .replace ∧ request.operation ≠ .revert ∧ request.listener = 0 then
    .error ⟨.error, none⟩
  else
    .ok ()

/-- `PeakDetachBatchCandidate` with its request. The failure gives the status of the result with the
same index. -/
structure BatchCandidate where
  request : DetachRequest
  valid : Bool
  failure : Option PlanFailure
  snapshot : GumSnapshot

namespace BatchCandidate

def refuse (candidate : BatchCandidate) (failure : PlanFailure) : BatchCandidate :=
  { candidate with valid := false, failure := some failure }

def ofRequest (request : DetachRequest) : BatchCandidate :=
  let candidate : BatchCandidate := ⟨request, true, none, GumSnapshot.zero⟩
  match validateRequest request with
  | .error failure => candidate.refuse failure
  | .ok () =>
    match request.operation with
    | .attach | .detach | .reattach => candidate
    | .shutdown | .replace | .revert => candidate.refuse ⟨.unsupported, none⟩

def sameHook (left right : BatchCandidate) : Bool :=
  left.request.hookId == right.request.hookId ||
    left.request.functionAddress == right.request.functionAddress

/-- The nested loops refusing the requests that share a hook with a later one, with the
number of outer iterations left. -/
def refuseSameHook : ℕ → List BatchCandidate → List BatchCandidate
  | 0, candidates => candidates
  | _ + 1, [] => []
  | rounds + 1, candidate :: later =>
    if !candidate.valid then
      candidate :: refuseSameHook rounds later
    else
      let clash := fun other : BatchCandidate => other.valid && sameHook candidate other
      let refused := if later.any clash then candidate.refuse ⟨.unsupported, none⟩ else candidate
      refused :: refuseSameHook rounds
        (later.map fun other =>
          if clash other then other.refuse ⟨.unsupported, none⟩ else other)

/-- The loop that checks the patch records of reattachments and captures the snapshots. -/
def capture (gum : GumState) (records : List PatchRecord) (candidate : BatchCandidate) :
    BatchCandidate :=
  let patchSize := ((PatchRecord.find records candidate.request.hookId).bind (records[·]?)).elim 0
    fun record => record.activePatch.length
  if !candidate.valid then
    candidate
  else if candidate.request.operation = .reattach && patchSize = 0 then
    candidate.refuse ⟨.classifyFailed, some
      ⟨"batch-reattach-patch-record-missing", 0, candidate.request.functionAddress, 0⟩⟩
  else
    match captureGumSnapshot gum candidate.request with
    | .error failure => candidate.refuse failure
    | .ok snapshot => { candidate with snapshot := snapshot }

def canonicalAddress (candidate : BatchCandidate) : ℕ :=
  canonicalFunctionAddress candidate.request candidate.snapshot

def sameCanonical (left right : BatchCandidate) : Bool :=
  left.request.hookId == right.request.hookId || left.canonicalAddress == right.canonicalAddress

def validCount (candidates : List BatchCandidate) : ℕ :=
  candidates.countP (·.valid)

/-- The loops refusing every valid candidate with a canonical duplicate. -/
def refuseSameCanonical (candidates : List BatchCandidate) : List BatchCandidate :=
  if validCount candidates ≤ 1 then
    candidates
  else
    candidates.mapIdx fun index candidate =>
      let duplicated := candidates.zipIdx.any fun (other, otherIndex) =>
        otherIndex != index && other.valid && sameCanonical candidate other
      if candidate.valid && duplicated then candidate.refuse ⟨.unsupported, none⟩ else candidate

def ofRequests (gum : GumState) (records : List PatchRecord) (requests : List DetachRequest) :
    List BatchCandidate :=
  let usable := requests.take maxBatchRequests
  refuseSameCanonical
    ((refuseSameHook usable.length (usable.map ofRequest)).map (capture gum records))

end BatchCandidate

/-- `find_instruction_conflict`: the first instruction of the same kind for the thread, or
overlapping write. -/
def findInstructionConflict (candidate : Instruction) : List Instruction → Bool
  | [] => false
  | existing :: rest =>
    match existing, candidate with
    | .setPc tid pc, .setPc tid' pc' =>
      if tid = tid' then pc != pc' else findInstructionConflict candidate rest
    | .singleStepOutOfRange tid address size, .singleStepOutOfRange tid' address' size' =>
      if tid = tid' then address != address' || size != size'
      else findInstructionConflict candidate rest
    | .writeMemory address bytes, .writeMemory address' bytes' =>
      if writeRangesOverlap address bytes.length address' bytes'.length then
        !(address == address' && bytes == bytes')
      else findInstructionConflict candidate rest
    | _, _ => findInstructionConflict candidate rest

namespace HeldMutation

/-- The loop of `append_candidate_mutation`. Equality of instructions is
`instruction_is_duplicate`. -/
def appendInstructions (aggregate : List Instruction) :
    List Instruction → Except PlanFailure (List Instruction)
  | [] => .ok aggregate
  | instruction :: instructions =>
    if findInstructionConflict instruction aggregate then
      .error ⟨.classifyFailed, none⟩
    else if aggregate.contains instruction then
      appendInstructions aggregate instructions
    else if maxInstructions ≤ aggregate.length then
      .error ⟨.error, none⟩
    else
      appendInstructions (aggregate ++ [instruction]) instructions

/-- `append_candidate_mutation`. -/
def appendCandidate (aggregate candidate : HeldMutation) : Except PlanFailure HeldMutation :=
  match appendInstructions aggregate.instructions candidate.instructions with
  | .error failure => .error failure
  | .ok instructions =>
    .ok
      { aggregate with
        instructions := instructions
        usesPhysicalPatch := aggregate.usesPhysicalPatch || candidate.usesPhysicalPatch
        mutatesEntryBytes := aggregate.mutatesEntryBytes || candidate.mutatesEntryBytes
        mutatesGumMetadata := aggregate.mutatesGumMetadata || candidate.mutatesGumMetadata
        freesListenerState := aggregate.freesListenerState || candidate.freesListenerState
        requiresTargetEntryIdle :=
          aggregate.requiresTargetEntryIdle || candidate.requiresTargetEntryIdle }

end HeldMutation

structure AcceptedRequest where
  request : DetachRequest
  snapshot : GumSnapshot
  mutation : HeldMutation

/-- The state of the classification loop of a batch. -/
structure BatchPlan where
  aggregate : HeldMutation
  records : List PatchRecord
  accepted : List AcceptedRequest
  refused : List (DetachRequest × PlanFailure)

/-- The classification loop of `prepare_hook_mutation_batch`. A failed classification skips its
request; a failed merge ends the batch. -/
def classifyBatch (canSingleStep : Bool) (threads : List ThreadSnapshot) (plan : BatchPlan) :
    List BatchCandidate → Except PlanFailure BatchPlan
  | [] => .ok plan
  | candidate :: candidates =>
    if !candidate.valid then
      classifyBatch canSingleStep threads plan candidates
    else
      match classifyStoppedThreads candidate.request candidate.snapshot canSingleStep threads
          HeldMutation.zero plan.records with
      | (.error failure, records) =>
        classifyBatch canSingleStep threads
          { plan with
            records := records
            refused := plan.refused ++ [(candidate.request, failure)] }
          candidates
      | (.ok mutation, records) =>
        match plan.aggregate.appendCandidate mutation with
        | .error failure => .error failure
        | .ok aggregate =>
          classifyBatch canSingleStep threads
            { plan with
              aggregate := aggregate
              records := records
              accepted := plan.accepted ++ [⟨candidate.request, candidate.snapshot, mutation⟩] }
            candidates

end Peak
