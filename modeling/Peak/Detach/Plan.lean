import Peak.Detach.Basic

/-!
# Planning of code mutations

The functions of `src/detach_controller.c` which decide whether a code mutation is safe for the
stopped threads, and collect the instructions for it. The table of patch records is passed
explicitly, since a failed step may already have created a record in it.
-/

namespace Peak

namespace PatchRecord

/-- The lookup loop of `find_physical_patch_record`. -/
def find (records : List PatchRecord) (hookId : ℕ) : Option ℕ :=
  records.findIdx? fun record => record.used && record.hookId == hookId

def findFree (records : List PatchRecord) : Option ℕ :=
  records.findIdx? fun record => !record.used

/-- `find_physical_patch_record` with `create` set, and the created record in the table. -/
def create (records : List PatchRecord) (hookId : ℕ) : Option (ℕ × List PatchRecord) :=
  (findFree records).map fun index =>
    (index, records.set index { zero with used := true, hookId := hookId })

end PatchRecord

def pointerInRange (pointer start size : ℕ) : Bool :=
  if pointer = 0 ∨ start = 0 ∨ size = 0 then
    false
  else
    let finish := (start + size) % 2 ^ 64
    start ≤ finish && start ≤ pointer && pointer < finish

def pointerBetween (pointer start finish : ℕ) : Bool :=
  if pointer = 0 ∨ start = 0 ∨ finish = 0 ∨ finish ≤ start then
    false
  else
    start ≤ pointer && pointer < finish

def writeRangesOverlap (leftAddress leftSize rightAddress rightSize : ℕ) : Bool :=
  let leftEnd := (leftAddress + leftSize) % 2 ^ 64
  let rightEnd := (rightAddress + rightSize) % 2 ^ 64
  if leftEnd < leftAddress ∨ rightEnd < rightAddress then
    true
  else
    leftAddress < rightEnd && rightAddress < leftEnd

namespace HeldMutation

def append (mutation : HeldMutation) (instruction : Instruction) : HeldMutation :=
  { mutation with instructions := mutation.instructions ++ [instruction] }

/-- `append_write_instruction`. -/
def appendWrite (mutation : HeldMutation) (address : ℕ) (bytes : List UInt8) :
    Option HeldMutation :=
  if address = 0 ∨ bytes.length = 0 ∨ maxPatchBytes < bytes.length ∨
      maxInstructions ≤ mutation.instructions.length then
    none
  else
    some (mutation.append (.writeMemory address bytes))

/-- `append_single_step_out_of_range_instruction`. -/
def appendSingleStep (mutation : HeldMutation) (tid : ℤ) (address size : ℕ) :
    Option HeldMutation :=
  if tid ≤ 0 ∨ address = 0 ∨ size = 0 ∨ maxPatchBytes < size ∨
      maxInstructions ≤ mutation.instructions.length then
    none
  else
    some (mutation.append (.singleStepOutOfRange tid address size))

/-- `init_mutation_semantics`, after the resets at the start of `classify_stopped_threads`. -/
def start (operation : DetachOperation) (mutation : HeldMutation) : HeldMutation :=
  let physicalOnly := operation = .detach ∨ operation = .reattach
  { mutation with
    instructions := []
    usesPhysicalPatch := false
    operation := operation
    mutatesEntryBytes := true
    mutatesGumMetadata := !physicalOnly
    freesListenerState := operation = .shutdown
    requiresTargetEntryIdle := !physicalOnly && operation != .shutdown }

def isPhysicalEntryBytesOnly (mutation : HeldMutation) : Bool :=
  mutation.mutatesEntryBytes && !mutation.mutatesGumMetadata && !mutation.freesListenerState

end HeldMutation

def DetachOperation.needsExistingHookContext : DetachOperation → Bool
  | detach | reattach | shutdown | revert => true
  | attach | replace => false

def DetachOperation.needsPatch : DetachOperation → Bool
  | detach | shutdown | revert => true
  | attach | reattach | replace => false

def DetachOperation.code : DetachOperation → ℕ
  | attach => 0
  | detach => 1
  | reattach => 2
  | shutdown => 3
  | replace => 4
  | revert => 5

/-- The state of Gum that is visible to the controller: its interceptors by address,
and the code they patch. -/
structure GumState where
  interceptors : ℕ → GumInterceptor
  memory : ℕ → UInt8

def captureGumSnapshot (gum : GumState) (request : DetachRequest) :
    Except PlanFailure GumSnapshot :=
  let interceptor := gum.interceptors request.interceptor
  let diagnostics :=
    interceptor.peakGetPcDiagnostics request.functionAddress request.listener
  if diagnostics.isNone && request.operation.needsExistingHookContext then
    .error ⟨.classifyFailed, some
      ⟨"gum-diagnostics-missing", 0, request.functionAddress, request.operation.code⟩⟩
  else
    let snapshot : GumSnapshot :=
      { hasContext := diagnostics.isSome
        diagnostics := diagnostics.getD PcDiagnostics.zero
        patch := none }
    if request.operation.needsPatch then
      match interceptor.peakGetFunctionPatch gum.memory request.functionAddress
          request.listener with
      | none => .error ⟨.classifyFailed, some
          ⟨"gum-patch-missing", 0, request.functionAddress, request.operation.code⟩⟩
      | some patch => .ok { snapshot with patch := some patch }
    else
      .ok snapshot

namespace GumSnapshot

/-- `classify_pc_from_snapshot`. -/
def classifyPc (snapshot : GumSnapshot) (pc : ℕ) : PcState :=
  let diagnostics := snapshot.diagnostics
  let slice := diagnostics.trampolineSlice
  let sliceEnd := (slice.start + slice.size) % 2 ^ 64
  if pc = 0 then .unknown
  else if !snapshot.hasContext then .safe
  else if pointerInRange pc diagnostics.functionAddress diagnostics.overwrittenPrologueLen then
    .atPatchEntry
  else if pointerInRange pc diagnostics.enterThunk.start diagnostics.enterThunk.size ||
      pointerInRange pc diagnostics.leaveThunk.start diagnostics.leaveThunk.size ||
      pointerInRange pc diagnostics.fastOverlayDispatch.start
        diagnostics.fastOverlayDispatch.size ||
      pointerInRange pc diagnostics.fastListenerDispatch.start
        diagnostics.fastListenerDispatch.size then
    .inDispatch
  else if slice.start = 0 ∨ slice.size = 0 then .safe
  else if !pointerInRange pc slice.start slice.size then .safe
  else if pointerBetween pc diagnostics.onEnterTrampoline diagnostics.onLeaveTrampoline then
    .inEnterTrampoline
  else if pointerBetween pc diagnostics.onLeaveTrampoline diagnostics.onInvokeTrampoline then
    .inLeaveTrampoline
  else if diagnostics.onInvokeTrampoline = 0 then .unknown
  else if sliceEnd < slice.start ∨ sliceEnd ≤ diagnostics.onInvokeTrampoline then .unknown
  else if pointerInRange pc diagnostics.onInvokeTrampoline
      (sliceEnd - diagnostics.onInvokeTrampoline) then
    .inInvokeTrampoline
  else .unknown

/-- `safe_pc_from_snapshot`; `0` is the null pointer. -/
def safePc (snapshot : GumSnapshot) (pc : ℕ) (state : PcState) : ℕ :=
  if state = .inEnterTrampoline ∧ pc = snapshot.diagnostics.onEnterTrampoline then
    snapshot.diagnostics.functionAddress
  else
    0

end GumSnapshot

def canonicalFunctionAddress (request : DetachRequest) (snapshot : GumSnapshot) : ℕ :=
  if snapshot.hasContext ∧ snapshot.diagnostics.functionAddress ≠ 0 then
    snapshot.diagnostics.functionAddress
  else if request.blockedPcStart ≠ 0 ∧ 0 < request.blockedPcSize then
    request.blockedPcStart
  else
    request.functionAddress

/-- The `REATTACH` branch of `append_physical_patch`. -/
def appendRecordedPatch (request : DetachRequest) (patchAddress : ℕ) (mutation : HeldMutation)
    (records : List PatchRecord) : Except PlanFailure HeldMutation :=
  match (PatchRecord.find records request.hookId).bind (records[·]?) with
  | none => .error ⟨.classifyFailed, some ⟨"reattach-patch-record-missing", 0, patchAddress, 0⟩⟩
  | some record =>
    if record.activePatch.length = 0 ∨ record.functionAddress ≠ patchAddress then
      .error ⟨.classifyFailed, some
        ⟨"reattach-patch-record-missing", 0, patchAddress, record.activePatch.length⟩⟩
    else
      match mutation.appendWrite patchAddress record.activePatch with
      | none => .error ⟨.error, none⟩
      | some appended =>
        .ok { appended with usesPhysicalPatch := true, mutatesEntryBytes := true }

/-- The record a `DETACH` will fill: the existing one, or a created one. The flag is
`detach_record_created`. -/
def openDetachRecord (records : List PatchRecord) (hookId : ℕ) :
    Option (ℕ × Bool × List PatchRecord) :=
  match PatchRecord.find records hookId with
  | some index => some (index, false, records)
  | none => (PatchRecord.create records hookId).map fun (index, created) => (index, true, created)

/-- The branch of `append_physical_patch` restoring the original prologue, for the
operations other than `DETACH`. -/
def appendOriginalPrologue (patchAddress : ℕ) (patch : GumPatch) (mutation : HeldMutation) :
    Except PlanFailure HeldMutation :=
  match mutation.appendWrite patchAddress patch.originalPrologue with
  | none => .error ⟨.error, none⟩
  | some appended => .ok { appended with usesPhysicalPatch := true, mutatesEntryBytes := true }

/-- The `DETACH` case: the active patch is recorded once the write is planned. -/
def appendDetachPatch (request : DetachRequest) (patchAddress : ℕ) (patch : GumPatch)
    (mutation : HeldMutation) (records : List PatchRecord) :
    Except PlanFailure HeldMutation × List PatchRecord :=
  match openDetachRecord records request.hookId with
  | none => (.error ⟨.error, none⟩, records)
  | some (index, created, opened) =>
    match appendOriginalPrologue patchAddress patch mutation with
    | .error failure =>
      (.error failure, if created then opened.set index PatchRecord.zero else opened)
    | .ok planned =>
      (.ok planned,
        opened.modify index fun record =>
          { record with functionAddress := patchAddress, activePatch := patch.activePatch })

def appendPhysicalPatch (request : DetachRequest) (snapshot : GumSnapshot)
    (mutation : HeldMutation) (records : List PatchRecord) :
    Except PlanFailure HeldMutation × List PatchRecord :=
  let patchAddress := canonicalFunctionAddress request snapshot
  match request.operation with
  | .attach | .replace => (.ok mutation, records)
  | .reattach => (appendRecordedPatch request patchAddress mutation records, records)
  | .detach | .shutdown | .revert =>
    match snapshot.patch with
    | none => (.error ⟨.classifyFailed, some
        ⟨"physical-patch-size-invalid", 0, request.functionAddress, 0⟩⟩, records)
    | some patch =>
      if patch.originalPrologue.length = 0 ∨ maxPatchBytes < patch.originalPrologue.length then
        (.error ⟨.classifyFailed, some ⟨"physical-patch-size-invalid", 0,
          request.functionAddress, patch.originalPrologue.length⟩⟩, records)
      else if request.operation = .detach then
        appendDetachPatch request patchAddress patch mutation records
      else
        (appendOriginalPrologue patchAddress patch mutation, records)

/-- The numeric value of a program counter state, as printed in failure details. -/
def PcState.code : PcState → ℕ
  | safe => 0
  | atPatchEntry => 1
  | inEnterTrampoline => 2
  | inInvokeTrampoline => 3
  | inLeaveTrampoline => 4
  | inDispatch => 5
  | unknown => 6

/-- Whether the backend can step a thread out of a range. The signal backend needs breakpoints
(`signal_breakpoint_can_evac`). -/
def HoldBackend.canSingleStep (backend : HoldBackend) (breakpointCanEvac : Bool) : Bool :=
  backend == .helper || (backend == .signal && breakpointCanEvac)

section Classify

variable (request : DetachRequest) (snapshot : GumSnapshot) (canSingleStep : Bool)

/-- The case `GUM_PEAK_PC_AT_PATCH_ENTRY` of `classify_stopped_threads`. -/
def classifyAtPatchEntry (mutation : HeldMutation) (thread : ThreadSnapshot) :
    Except PlanFailure HeldMutation :=
  let functionAddress := canonicalFunctionAddress request snapshot
  let prologueLen := snapshot.diagnostics.overwrittenPrologueLen
  match request.operation with
  | .detach =>
    if thread.pc = functionAddress then .ok mutation
    else .error ⟨.classifyFailed, some
      ⟨"detach-patch-interior-pc", thread.tid, thread.pc, prologueLen⟩⟩
  | .shutdown =>
    if thread.pc = functionAddress then .ok mutation
    else .error ⟨.classifyFailed, some
      ⟨"shutdown-patch-interior-pc", thread.tid, thread.pc, prologueLen⟩⟩
  | .reattach =>
    if thread.pc = functionAddress then .ok mutation
    else
      let stepped :=
        if canSingleStep && 0 < prologueLen && prologueLen ≤ maxPatchBytes then
          mutation.appendSingleStep thread.tid functionAddress prologueLen
        else none
      match stepped with
      | some appended => .ok appended
      | none => .error ⟨.classifyFailed, some
          ⟨"reattach-prologue-no-evac", thread.tid, thread.pc, prologueLen⟩⟩
  | .attach | .replace | .revert => .ok mutation

/-- The trampoline and dispatch cases of `classify_stopped_threads`. -/
def classifyInGum (mutation : HeldMutation) (thread : ThreadSnapshot) (state : PcState) :
    Except PlanFailure HeldMutation :=
  if mutation.isPhysicalEntryBytesOnly then
    .ok mutation
  else
    let safePc := snapshot.safePc thread.pc state
    if safePc = 0 ∨ maxInstructions ≤ mutation.instructions.length then
      .error ⟨.classifyFailed, some ⟨"gum-metadata-no-safe-pc", thread.tid, thread.pc, state.code⟩⟩
    else
      .ok (mutation.append (.setPc thread.tid safePc))

/-- One iteration of the loop of `classify_stopped_threads`, after the check for
duplicate thread identifiers. -/
def classifyThread (mutation : HeldMutation) (thread : ThreadSnapshot) :
    Except PlanFailure HeldMutation :=
  let functionAddress := canonicalFunctionAddress request snapshot
  if thread.status ≠ .ok then
    .error ⟨.error, none⟩
  else if pointerInRange thread.pc request.blockedPcStart request.blockedPcSize then
    .error ⟨.classifyFailed, some ⟨"blocked-pc", thread.tid, thread.pc, request.blockedPcSize⟩⟩
  else if mutation.requiresTargetEntryIdle &&
      pointerInRange thread.pc functionAddress maxPrologueSize then
    .error ⟨.classifyFailed, some ⟨"entry-patch-live-pc", thread.tid, thread.pc, maxPrologueSize⟩⟩
  else
    match snapshot.classifyPc thread.pc with
    | .safe => .ok mutation
    | .atPatchEntry => classifyAtPatchEntry request snapshot canSingleStep mutation thread
    | .unknown => .error ⟨.classifyFailed, some
        ⟨"pc-unknown", thread.tid, thread.pc, PcState.unknown.code⟩⟩
    | state => classifyInGum snapshot mutation thread state

/-- The loop of `classify_stopped_threads`; `earlier` are the threads already seen. -/
def classifyThreads (earlier : List ThreadSnapshot) (mutation : HeldMutation) :
    List ThreadSnapshot → Except PlanFailure HeldMutation
  | [] => .ok mutation
  | thread :: threads =>
    if earlier.any (·.tid == thread.tid) then
      .error ⟨.error, some ⟨"duplicate-stopped-tid", thread.tid, thread.pc, 0⟩⟩
    else
      match classifyThread request snapshot canSingleStep mutation thread with
      | .error failure => .error failure
      | .ok classified => classifyThreads (earlier ++ [thread]) classified threads

/-- `classify_stopped_threads`, writing into `mutation`. -/
def classifyStoppedThreads (threads : List ThreadSnapshot) (mutation : HeldMutation)
    (records : List PatchRecord) : Except PlanFailure HeldMutation × List PatchRecord :=
  match classifyThreads request snapshot canSingleStep []
      (mutation.start request.operation) threads with
  | .error failure => (.error failure, records)
  | .ok classified => appendPhysicalPatch request snapshot classified records

end Classify

end Peak
