import Peak.Detach.Batch

/-!
# Safety of code mutation plans

A plan is safe for the stopped threads if its memory writes are disjoint, if every thread
inside a written range is stepped out of it, and if no thread is in a range that an
accepted request requires to be idle.
-/

namespace Peak

open List HeldMutation Instruction Bool

variable {threads : List ThreadSnapshot} {gum : GumState} {request : DetachRequest}
  {candidates : List BatchCandidate} {snapshot : GumSnapshot} {canSingleStep : Bool}
  {bytes : List UInt8}

theorem pointerInRange_of_mem {pointer start size : ℕ} (nonnull : start ≠ 0)
    (fits : start + size < 2 ^ 64) (lower : start ≤ pointer) (upper : pointer < start + size) :
    pointerInRange pointer start size := by
  have finish : (start + size) % 2 ^ 64 = start + size := Nat.mod_eq_of_lt fits
  have positive : ¬(pointer = 0 ∨ start = 0 ∨ size = 0) := by omega
  simp only [pointerInRange, if_neg positive, and_eq_true, decide_eq_true_eq]
  omega

theorem not_mem_of_pointerInRange {pointer start size : ℕ} (nonnull : start ≠ 0)
    (fits : start + size < 2 ^ 64) (outside : pointerInRange pointer start size = false) :
    ¬(start ≤ pointer ∧ pointer < start + size) := by
  rintro ⟨lower, upper⟩
  simp [pointerInRange_of_mem nonnull fits lower upper] at outside

theorem disjoint_of_not_overlap {leftAddress leftSize rightAddress rightSize : ℕ}
    (leftSmall : leftSize ≤ maxPatchBytes) (rightSmall : rightSize ≤ maxPatchBytes)
    (apart : writeRangesOverlap leftAddress leftSize rightAddress rightSize = false) :
    leftAddress + leftSize ≤ rightAddress ∨ rightAddress + rightSize ≤ leftAddress := by
  have bound : maxPatchBytes < 2 ^ 64 := by decide
  simp only [writeRangesOverlap] at apart
  split at apart
  · cases apart
  next noWrap =>
    simp only [and_eq_false_iff, decide_eq_false_iff_not] at apart
    omega

namespace Instruction

def DisjointWrites (left right : Instruction) : Prop :=
  ∀ address bytes address' bytes', left = .writeMemory address bytes →
    right = .writeMemory address' bytes' →
    address + bytes.length ≤ address' ∨ address' + bytes'.length ≤ address

def IsWrite (instruction : Instruction) : Prop :=
  ∃ address bytes, instruction = .writeMemory address bytes

theorem disjointWrites_of_not_isWrite {left right : Instruction} (notWrite : ¬left.IsWrite) :
    left.DisjointWrites right := by
  intro address bytes _ _ leftEq _
  exact absurd ⟨address, bytes, leftEq⟩ notWrite

end Instruction

/-- What the classification of a request guarantees about a stopped thread, given the
instructions planned so far. -/
structure ThreadCleared (request : DetachRequest) (snapshot : GumSnapshot)
    (instructions : List Instruction) (thread : ThreadSnapshot) : Prop where
  notBlocked : pointerInRange thread.pc request.blockedPcStart request.blockedPcSize = false
  entryIdle : request.operation = .attach ∨ request.operation = .replace ∨
      request.operation = .revert →
    pointerInRange thread.pc (canonicalFunctionAddress request snapshot) maxPrologueSize = false
  atEntry : snapshot.classifyPc thread.pc = .atPatchEntry →
    request.operation = .detach ∨ request.operation = .shutdown ∨ request.operation = .reattach →
    thread.pc = canonicalFunctionAddress request snapshot ∨
      .singleStepOutOfRange thread.tid (canonicalFunctionAddress request snapshot)
        snapshot.diagnostics.overwrittenPrologueLen ∈ instructions

theorem ThreadCleared.mono {fewer more : List Instruction} {thread : ThreadSnapshot}
    (cleared : ThreadCleared request snapshot fewer thread) (subset : fewer ⊆ more) :
    ThreadCleared request snapshot more thread :=
  { cleared with
    atEntry := fun atEntry writes => (cleared.atEntry atEntry writes).imp_right (subset ·) }

structure Extends (before after : HeldMutation) : Prop where
  subset : before.instructions ⊆ after.instructions
  noWrite : ∀ instruction ∈ after.instructions,
    instruction ∈ before.instructions ∨ ¬instruction.IsWrite
  requiresTargetEntryIdle : after.requiresTargetEntryIdle = before.requiresTargetEntryIdle

namespace Extends

theorem refl (mutation : HeldMutation) : Extends mutation mutation where
  subset := Subset.refl _
  noWrite _ member := .inl member
  requiresTargetEntryIdle := rfl

theorem trans {first second third : HeldMutation} (left : Extends first second)
    (right : Extends second third) : Extends first third where
  subset := Subset.trans left.subset right.subset
  noWrite instruction member := by
    rcases right.noWrite instruction member with earlier | notWrite
    · exact left.noWrite instruction earlier
    · exact .inr notWrite
  requiresTargetEntryIdle :=
    right.requiresTargetEntryIdle.trans left.requiresTargetEntryIdle

theorem append (mutation : HeldMutation) {instruction : Instruction}
    (notWrite : ¬instruction.IsWrite) : Extends mutation (mutation.append instruction) where
  subset := subset_append_left _ _
  noWrite := forall_mem_append.mpr ⟨fun _ => Or.inl, forall_mem_singleton.mpr (.inr notWrite)⟩
  requiresTargetEntryIdle := rfl

end Extends

/-- The mutation requires an idle entry exactly for the operations on a new patch. -/
abbrev HeldMutation.IdleFor (mutation : HeldMutation) (request : DetachRequest) : Prop :=
  mutation.requiresTargetEntryIdle = true ↔
    request.operation = .attach ∨ request.operation = .replace ∨ request.operation = .revert

section Thread

variable {request : DetachRequest} {snapshot : GumSnapshot} {canSingleStep : Bool}
  {mutation classified : HeldMutation} {thread : ThreadSnapshot}

theorem classifyAtPatchEntry_ok
    (ok : classifyAtPatchEntry request snapshot canSingleStep mutation thread = .ok classified) :
    Extends mutation classified ∧
      (request.operation = .detach ∨ request.operation = .shutdown ∨
          request.operation = .reattach →
        thread.pc = canonicalFunctionAddress request snapshot ∨
          .singleStepOutOfRange thread.tid (canonicalFunctionAddress request snapshot)
            snapshot.diagnostics.overwrittenPrologueLen ∈ classified.instructions) := by
  cases operation : request.operation with
  | detach | shutdown =>
    simp only [classifyAtPatchEntry, operation] at ok
    split at ok
    next atStart =>
      cases ok
      exact ⟨Extends.refl _, fun _ => .inl atStart⟩
    · cases ok
  | reattach =>
    simp only [classifyAtPatchEntry, operation] at ok
    split at ok
    next atStart =>
      cases ok
      exact ⟨Extends.refl _, fun _ => .inl atStart⟩
    · split at ok
      next appended steppedEq =>
        cases ok
        split at steppedEq
        · simp only [appendSingleStep] at steppedEq
          split at steppedEq
          · cases steppedEq
          · cases steppedEq
            exact ⟨Extends.append mutation (by rintro ⟨_, _, ⟨⟩⟩), fun _ => Or.inr
              (by simp [append])⟩
        · cases steppedEq
      · cases ok
  | attach | replace | revert =>
    simp only [classifyAtPatchEntry, operation] at ok
    cases ok
    exact ⟨Extends.refl _, by simp⟩

theorem classifyInGum_ok {state : PcState}
    (ok : classifyInGum snapshot mutation thread state = .ok classified) :
    Extends mutation classified := by
  simp only [classifyInGum] at ok
  split at ok
  · cases ok
    exact Extends.refl _
  · split at ok
    · cases ok
    · cases ok
      exact Extends.append _ (by rintro ⟨_, _, ⟨⟩⟩)

theorem classifyThread_ok (idle : mutation.IdleFor request)
    (ok : classifyThread request snapshot canSingleStep mutation thread = .ok classified) :
    Extends mutation classified ∧
      ThreadCleared request snapshot classified.instructions thread := by
  simp only [classifyThread] at ok
  split at ok
  · cases ok
  · split at ok
    · cases ok
    next notBlocked =>
      split at ok
      · cases ok
      next entryIdle =>
        rw [not_eq_true] at notBlocked
        have idleEntry : request.operation = .attach ∨ request.operation = .replace ∨
              request.operation = .revert →
            pointerInRange thread.pc (canonicalFunctionAddress request snapshot)
              maxPrologueSize = false := by
          intro required
          simpa [idle.mpr required] using entryIdle
        cases state : snapshot.classifyPc thread.pc with
        | safe =>
          rw [state] at ok
          cases ok
          exact ⟨Extends.refl _, notBlocked, idleEntry, by simp [state]⟩
        | atPatchEntry =>
          rw [state] at ok
          rcases classifyAtPatchEntry_ok ok with ⟨extends_, atEntry⟩
          exact ⟨extends_, notBlocked, idleEntry, fun _ => atEntry⟩
        | unknown =>
          rw [state] at ok
          cases ok
        | inEnterTrampoline | inInvokeTrampoline | inLeaveTrampoline | inDispatch =>
          rw [state] at ok
          exact ⟨classifyInGum_ok ok, notBlocked, idleEntry, by simp [state]⟩

end Thread

section Threads

variable {request : DetachRequest} {snapshot : GumSnapshot} {canSingleStep : Bool}
  {mutation classified : HeldMutation}

theorem classifyThreads_ok {earlier threads : List ThreadSnapshot}
    (idle : mutation.IdleFor request)
    (ok : classifyThreads request snapshot canSingleStep earlier mutation threads =
      .ok classified) :
    Extends mutation classified ∧
      ∀ thread ∈ threads, ThreadCleared request snapshot classified.instructions thread := by
  induction threads generalizing earlier mutation with
  | nil =>
    cases ok
    exact ⟨Extends.refl _, by simp⟩
  | cons _ _ ih =>
    simp only [classifyThreads] at ok
    split at ok
    · cases ok
    · split at ok
      · cases ok
      next next nextOk =>
        rcases classifyThread_ok idle nextOk with ⟨first, cleared⟩
        have idleNext : next.IdleFor request := by
          rw [IdleFor, first.requiresTargetEntryIdle]
          exact idle
        rcases ih idleNext ok with ⟨rest, clearedRest⟩
        refine ⟨first.trans rest, ?_⟩
        intro other otherMem
        rcases mem_cons.mp otherMem with rfl | later
        · exact cleared.mono rest.subset
        · exact clearedRest other later

end Threads

/-- The plan of one request, with every stopped thread cleared. -/
structure RequestCleared (threads : List ThreadSnapshot) (request : DetachRequest)
    (snapshot : GumSnapshot) (instructions : List Instruction) : Prop where
  threads : ∀ thread ∈ threads, ThreadCleared request snapshot instructions thread
  write : ∀ address bytes, .writeMemory address bytes ∈ instructions →
    address = canonicalFunctionAddress request snapshot ∧
      request.operation.needsExistingHookContext ∧ bytes.length ≤ maxPatchBytes
  disjoint : instructions.Pairwise DisjointWrites

theorem HeldMutation.appendWrite_some {mutation appended : HeldMutation} {address : ℕ}
    (ok : mutation.appendWrite address bytes = some appended) :
    appended = mutation.append (.writeMemory address bytes) ∧ address ≠ 0 ∧
      0 < bytes.length ∧ bytes.length ≤ maxPatchBytes := by
  simp only [appendWrite] at ok
  split at ok
  · cases ok
  · cases ok
    exact ⟨rfl, by omega, by omega, by omega⟩

section Patch

variable {request : DetachRequest} {snapshot : GumSnapshot} {mutation planned : HeldMutation}
  {records after : List PatchRecord}

variable {address : ℕ}

theorem appendOriginalPrologue_ok {patch : GumPatch}
    (ok : appendOriginalPrologue address patch mutation = .ok planned) :
    planned.instructions =
        mutation.instructions ++ [.writeMemory address patch.originalPrologue] ∧
      address ≠ 0 ∧ patch.originalPrologue.length ≤ maxPatchBytes := by
  simp only [appendOriginalPrologue] at ok
  split at ok
  · cases ok
  next appended appendedEq =>
    rcases appendWrite_some appendedEq with ⟨rfl, nonnull, _, small⟩
    cases ok
    exact ⟨rfl, nonnull, small⟩

theorem appendRecordedPatch_ok
    (ok : appendRecordedPatch request address mutation records = .ok planned) :
    ∃ record, (PatchRecord.find records request.hookId).bind (records[·]?) = some record ∧
      record.functionAddress = address ∧
      planned.instructions = mutation.instructions ++ [.writeMemory address record.activePatch] ∧
      address ≠ 0 ∧ record.activePatch.length ≤ maxPatchBytes := by
  simp only [appendRecordedPatch] at ok
  split at ok
  · cases ok
  next record found =>
    split at ok
    · cases ok
    next usable =>
      split at ok
      · cases ok
      next appended appendedEq =>
        rcases appendWrite_some appendedEq with ⟨rfl, nonnull, _, small⟩
        cases ok
        exact ⟨record, found, not_not.mp (not_or.mp usable).2, rfl, nonnull, small⟩

theorem appendDetachPatch_ok {patch : GumPatch}
    (ok : appendDetachPatch request address patch mutation records = (.ok planned, after)) :
    appendOriginalPrologue address patch mutation = .ok planned := by
  simp only [appendDetachPatch] at ok
  split at ok
  · cases ok
  · split at ok
    · cases ok
    next plannedEq =>
      cases ok
      exact plannedEq

theorem appendPhysicalPatch_ok
    (ok : appendPhysicalPatch request snapshot mutation records = (.ok planned, after)) :
    planned = mutation ∨
      request.operation.needsExistingHookContext ∧
        canonicalFunctionAddress request snapshot ≠ 0 ∧
        ∃ bytes, bytes.length ≤ maxPatchBytes ∧
          planned.instructions = mutation.instructions ++
            [.writeMemory (canonicalFunctionAddress request snapshot) bytes] := by
  cases operation : request.operation with
  | attach | replace =>
    simp only [appendPhysicalPatch, operation] at ok
    cases ok
    exact .inl rfl
  | reattach =>
    simp only [appendPhysicalPatch, operation] at ok
    rcases appendRecordedPatch_ok (Prod.mk.inj ok).1 with
      ⟨record, _, _, planned, nonnull, small⟩
    exact .inr ⟨rfl, nonnull, record.activePatch, small, planned⟩
  | detach | shutdown | revert =>
    simp only [appendPhysicalPatch, operation] at ok
    split at ok
    · cases ok
    next patch _ =>
      split at ok
      · cases ok
      · have written : appendOriginalPrologue (canonicalFunctionAddress request snapshot)
            patch mutation = .ok planned := by
          first
            | exact appendDetachPatch_ok ok
            | exact (Prod.mk.inj ok).1
        rcases appendOriginalPrologue_ok written with ⟨planned, nonnull, small⟩
        exact .inr ⟨rfl, nonnull, patch.originalPrologue, small, planned⟩

theorem classifyThreads_start {classified : HeldMutation}
    (ok : classifyThreads request snapshot canSingleStep [] (mutation.start request.operation)
      threads = .ok classified) :
    (∀ instruction ∈ classified.instructions, ¬instruction.IsWrite) ∧
      ∀ thread ∈ threads, ThreadCleared request snapshot classified.instructions thread := by
  have idle : (mutation.start request.operation).IdleFor request := by
    rw [IdleFor]
    cases request.operation <;> simp [start]
  rcases classifyThreads_ok idle ok with ⟨extended, cleared⟩
  refine ⟨?_, cleared⟩
  intro instruction member
  rcases extended.noWrite instruction member with earlier | notWrite
  · cases earlier
  · exact notWrite

theorem classifyStoppedThreads_ok
    (ok : classifyStoppedThreads request snapshot canSingleStep threads mutation records =
      (.ok planned, after)) :
    RequestCleared threads request snapshot planned.instructions := by
  simp only [classifyStoppedThreads] at ok
  split at ok
  · cases ok
  next classified classifiedOk =>
    rcases classifyThreads_start classifiedOk with ⟨noWrite, cleared⟩
    have disjoint : classified.instructions.Pairwise DisjointWrites := by
      apply Pairwise.imp_of_mem (R := fun _ _ => True) _ (pairwise_of_forall (by simp))
      intro left _ leftMem _ _
      exact disjointWrites_of_not_isWrite (noWrite left leftMem)
    rcases appendPhysicalPatch_ok ok with same | ⟨patches, _, bytes, small, appended⟩
    · rw [same]
      exact ⟨cleared, fun address bytes member =>
        absurd ⟨address, bytes, rfl⟩ (noWrite _ member), disjoint⟩
    · rw [appended]
      refine ⟨?_, ?_, ?_⟩
      · intro thread threadMem
        exact (cleared thread threadMem).mono (subset_append_left _ _)
      · intro address bytes' member
        rcases mem_append.mp member with earlier | added
        · exact absurd ⟨address, bytes', rfl⟩ (noWrite _ earlier)
        · cases mem_singleton.mp added
          exact ⟨rfl, patches, small⟩
      · rw [pairwise_append]
        refine ⟨disjoint, pairwise_singleton _ _, ?_⟩
        intro left leftMem right _
        exact disjointWrites_of_not_isWrite (noWrite left leftMem)

end Patch

theorem captureGumSnapshot_found (captured : captureGumSnapshot gum request = .ok snapshot)
    (needs : request.operation.needsExistingHookContext) :
    ∃ context, (gum.interceptors request.interceptor).findContext request.functionAddress
        request.listener = some context ∧
      snapshot.hasContext ∧
      snapshot.diagnostics.functionAddress = context.functionAddress ∧
      ∀ patch, snapshot.patch = some patch → ∃ prologue,
        context.overwrittenPrologue = some prologue ∧
        patch.activePatch = copyBytes gum.memory context.functionAddress
          context.overwrittenPrologueLen ∧
        patch.originalPrologue = copyBytes prologue 0 context.overwrittenPrologueLen := by
  simp only [captureGumSnapshot, GumInterceptor.peakGetPcDiagnostics,
    GumInterceptor.peakGetFunctionPatch, needs, Bool.and_true] at captured
  cases found : (gum.interceptors request.interceptor).findContext request.functionAddress
      request.listener with
  | none => simp [found] at captured
  | some context =>
    refine ⟨context, rfl, ?_⟩
    simp only [found, Option.map_some, Option.isNone_some, false_eq_true, if_false] at captured
    split at captured
    · split at captured
      · cases captured
      next patch patchEq =>
        cases captured
        refine ⟨rfl, rfl, ?_⟩
        rintro other ⟨⟩
        split at patchEq
        · cases patchEq
        · split at patchEq
          · cases patchEq
          next prologue prologueEq =>
            cases patchEq
            exact ⟨prologue, prologueEq, rfl, rfl⟩
    · cases captured
      exact ⟨rfl, rfl, by rintro patch ⟨⟩⟩

theorem captureGumSnapshot_context (ok : captureGumSnapshot gum request = .ok snapshot)
    (needs : request.operation.needsExistingHookContext) :
    snapshot.hasContext ∧ snapshot.diagnostics.functionAddress ≠ 0 := by
  rcases captureGumSnapshot_found ok needs with ⟨context, _, hasContext, address, _⟩
  rw [address]
  exact ⟨hasContext, context.functionAddress_ne_null⟩

theorem canonicalFunctionAddress_of_context (request : DetachRequest)
    (hasContext : snapshot.hasContext)
    (nonnull : snapshot.diagnostics.functionAddress ≠ 0) :
    canonicalFunctionAddress request snapshot = snapshot.diagnostics.functionAddress := by
  simp [canonicalFunctionAddress, hasContext, nonnull]

theorem canonicalFunctionAddress_ne_null (snapshot : GumSnapshot)
    (valid : validateRequest request = .ok ()) :
    canonicalFunctionAddress request snapshot ≠ 0 := by
  have nonnull : request.functionAddress ≠ 0 := by
    intro isNull
    simp [validateRequest, isNull] at valid
  simp only [canonicalFunctionAddress]
  split
  next context =>
    exact context.2
  · split
    next blocked =>
      exact blocked.1
    · exact nonnull

namespace BatchCandidate

variable {candidate : BatchCandidate}

section

variable (holds : BatchCandidate → Prop)
  (refuse : ∀ candidate, holds candidate → holds (candidate.refuse ⟨.unsupported, none⟩))
  (all : ∀ candidate ∈ candidates, holds candidate)

include refuse all

theorem forall_refuseSameHook {rounds : ℕ} :
    ∀ candidate ∈ refuseSameHook rounds candidates, holds candidate := by
  induction rounds generalizing candidates with
  | zero => exact all
  | succ _ ih =>
    cases candidates with
    | nil => exact all
    | cons =>
      rw [forall_mem_cons] at all
      simp only [refuseSameHook]
      split
      · exact forall_mem_cons.mpr ⟨all.1, ih all.2⟩
      · refine forall_mem_cons.mpr ⟨?_, ih (forall_mem_map.mpr ?_)⟩
        · split
          · exact refuse _ all.1
          · exact all.1
        · intro other otherMem
          split
          · exact refuse _ (all.2 other otherMem)
          · exact all.2 other otherMem

theorem forall_refuseSameCanonical :
    ∀ candidate ∈ refuseSameCanonical candidates, holds candidate := by
  intro candidate member
  simp only [refuseSameCanonical] at member
  split at member
  · exact all candidate member
  · rcases mem_mapIdx.mp member with ⟨_, inBounds, rfl⟩
    split
    · exact refuse _ (all _ (getElem_mem inBounds))
    · exact all _ (getElem_mem inBounds)

end

theorem capture_valid {records : List PatchRecord}
    (valid : (capture gum records candidate).valid) :
    candidate.valid ∧ (capture gum records candidate).request = candidate.request ∧
      captureGumSnapshot gum candidate.request = .ok (capture gum records candidate).snapshot := by
  simp only [capture] at valid ⊢
  split at valid
  next notValid =>
    simp [valid] at notValid
  next wasValid =>
    split at valid
    · cases valid
    next recorded =>
      rw [if_neg wasValid, if_neg recorded]
      cases captured : captureGumSnapshot gum candidate.request with
      | error =>
        rw [captured] at valid
        cases valid
      | ok => exact ⟨by simpa using wasValid, rfl, rfl⟩

theorem ofRequest_valid (valid : (ofRequest request).valid) :
    validateRequest request = .ok () ∧ (ofRequest request).request = request := by
  simp only [ofRequest] at valid ⊢
  cases validated : validateRequest request with
  | error =>
    rw [validated] at valid
    cases valid
  | ok =>
    refine ⟨rfl, ?_⟩
    cases request.operation <;> rfl

theorem ofRequests_valid {records : List PatchRecord}
    {requests : List DetachRequest} (member : candidate ∈ ofRequests gum records requests)
    (valid : candidate.valid) :
    validateRequest candidate.request = .ok () ∧
      captureGumSnapshot gum candidate.request = .ok candidate.snapshot := by
  have captured := forall_refuseSameCanonical (fun other => other.valid = true → other ∈ _)
    (fun _ _ refused => by cases refused) (fun _ mem _ => mem) candidate member valid
  rcases mem_map.mp captured with ⟨selected, selectedMem, rfl⟩
  rcases capture_valid valid with ⟨selectedValid, sameRequest, snapshotEq⟩
  have initial := forall_refuseSameHook (fun other => other.valid = true → other ∈ _)
    (fun _ _ refused => by cases refused) (fun _ mem _ => mem) selected selectedMem selectedValid
  rcases mem_map.mp initial with ⟨_, _, rfl⟩
  rcases ofRequest_valid selectedValid with ⟨validated, requestEq⟩
  rw [sameRequest]
  refine ⟨?_, snapshotEq⟩
  rw [requestEq]
  exact validated

end BatchCandidate

theorem findInstructionConflict_write {address : ℕ}
    {aggregate : List Instruction}
    (noConflict : findInstructionConflict (.writeMemory address bytes) aggregate = false) :
    .writeMemory address bytes ∈ aggregate ∨
      ∀ address' bytes', .writeMemory address' bytes' ∈ aggregate →
        writeRangesOverlap address' bytes'.length address bytes.length = false := by
  induction aggregate with
  | nil => exact .inr (by simp)
  | cons existing _ ih =>
    cases existing with
    | setPc tid pc | singleStepOutOfRange tid start size =>
      rcases ih noConflict with planned | apart
      · exact .inl (mem_cons_of_mem _ planned)
      · exact .inr (by simpa using apart)
    | writeMemory =>
      simp only [findInstructionConflict] at noConflict
      split at noConflict
      · simp only [not_eq_false', and_eq_true, beq_iff_eq] at noConflict
        rcases noConflict with ⟨rfl, rfl⟩
        exact .inl mem_cons_self
      next apartFirst =>
        rcases ih noConflict with planned | apart
        · exact .inl (mem_cons_of_mem _ planned)
        · refine .inr ?_
          intro address' bytes' member
          rcases mem_cons.mp member with same | inRest
          · cases same
            simpa using apartFirst
          · exact apart address' bytes' inRest

def SmallWrites (instructions : List Instruction) : Prop :=
  ∀ address bytes, .writeMemory address bytes ∈ instructions → bytes.length ≤ maxPatchBytes

theorem HeldMutation.appendInstructions_ok {aggregate instructions merged : List Instruction}
    (ok : appendInstructions aggregate instructions = .ok merged)
    (smallAggregate : SmallWrites aggregate) (small : SmallWrites instructions)
    (disjoint : aggregate.Pairwise DisjointWrites) :
    aggregate ⊆ merged ∧ instructions ⊆ merged ∧
      (∀ instruction ∈ merged, instruction ∈ aggregate ∨ instruction ∈ instructions) ∧
      merged.Pairwise DisjointWrites := by
  induction instructions generalizing aggregate with
  | nil =>
    cases ok
    exact ⟨Subset.refl _, nil_subset _, fun _ member => .inl member, disjoint⟩
  | cons instruction instructions ih =>
    have smallRest : SmallWrites instructions := fun address bytes member =>
      small address bytes (mem_cons_of_mem _ member)
    simp only [appendInstructions] at ok
    split at ok
    · cases ok
    next noConflict =>
      split at ok
      next planned =>
        rcases ih ok smallAggregate smallRest disjoint with ⟨kept, added, origin, apart⟩
        refine ⟨kept, cons_subset.mpr ⟨kept ?_, added⟩, ?_, apart⟩
        · simpa using planned
        · intro other member
          exact (origin other member).imp_right (mem_cons_of_mem _)
      next notPlanned =>
        split at ok
        · cases ok
        · have smallAppended : SmallWrites (aggregate ++ [instruction]) := by
            intro address bytes member
            rcases mem_append.mp member with earlier | last
            · exact smallAggregate address bytes earlier
            · exact small address bytes (by simp [mem_singleton.mp last])
          have disjointAppended :
              (aggregate ++ [instruction]).Pairwise DisjointWrites := by
            rw [pairwise_append]
            refine ⟨disjoint, pairwise_singleton _ _, ?_⟩
            intro existing existingMem last lastMem
            rw [mem_singleton.mp lastMem]
            rintro address bytes address' bytes' rfl rfl
            rw [not_eq_true] at noConflict
            rcases findInstructionConflict_write noConflict with planned | apart
            · simp [planned] at notPlanned
            · exact disjoint_of_not_overlap (smallAggregate address bytes existingMem)
                (small address' bytes' mem_cons_self)
                (apart address bytes existingMem)
          rcases ih ok smallAppended smallRest disjointAppended with
            ⟨kept, added, origin, apart⟩
          refine ⟨Subset.trans (subset_append_left _ _) kept,
            cons_subset.mpr ⟨kept (by simp), added⟩, ?_, apart⟩
          intro other member
          rcases origin other member with appended | later
          · rcases mem_append.mp appended with earlier | last
            · exact .inl earlier
            · rw [mem_singleton.mp last]
              exact .inr mem_cons_self
          · exact .inr (mem_cons_of_mem _ later)

structure AcceptedRequest.Cleared (gum : GumState) (threads : List ThreadSnapshot)
    (accepted : AcceptedRequest) : Prop where
  validated : validateRequest accepted.request = .ok ()
  captured : captureGumSnapshot gum accepted.request = .ok accepted.snapshot
  cleared : RequestCleared threads accepted.request accepted.snapshot accepted.mutation.instructions

structure BatchPlan.Cleared (gum : GumState) (threads : List ThreadSnapshot)
    (plan : BatchPlan) : Prop where
  accepted : ∀ request ∈ plan.accepted, request.Cleared gum threads
  kept : ∀ request ∈ plan.accepted, request.mutation.instructions ⊆ plan.aggregate.instructions
  origin : ∀ instruction ∈ plan.aggregate.instructions,
    ∃ request ∈ plan.accepted, instruction ∈ request.mutation.instructions
  disjoint : plan.aggregate.instructions.Pairwise DisjointWrites

variable {plan : BatchPlan}

theorem BatchPlan.Cleared.small
    (cleared : plan.Cleared gum threads) : SmallWrites plan.aggregate.instructions := by
  intro address bytes member
  rcases cleared.origin _ member with ⟨request, requestMem, written⟩
  exact ((cleared.accepted request requestMem).cleared.write address bytes written).2.2

theorem BatchPlan.Cleared.append (cleared : plan.Cleared gum threads) {request : AcceptedRequest}
    (requestCleared : request.Cleared gum threads) {aggregate : HeldMutation}
    (merged : plan.aggregate.appendCandidate request.mutation = .ok aggregate)
    (records : List PatchRecord) :
    BatchPlan.Cleared gum threads
      { plan with
        aggregate := aggregate
        records := records
        accepted := plan.accepted ++ [request] } := by
  have smallRequest : SmallWrites request.mutation.instructions := fun address bytes member =>
    (requestCleared.cleared.write address bytes member).2.2
  simp only [appendCandidate] at merged
  split at merged
  · cases merged
  next instructions instructionsOk =>
    cases merged
    rcases appendInstructions_ok instructionsOk cleared.small smallRequest
      cleared.disjoint with ⟨kept, added, origin, disjoint⟩
    refine ⟨?_, ?_, ?_, disjoint⟩
    · exact forall_mem_append.mpr ⟨cleared.accepted, forall_mem_singleton.mpr requestCleared⟩
    · exact forall_mem_append.mpr ⟨fun other earlier =>
        Subset.trans (cleared.kept other earlier) kept, forall_mem_singleton.mpr added⟩
    · intro instruction member
      rcases origin instruction member with earlier | new
      · rcases cleared.origin instruction earlier with ⟨other, otherMem, otherHas⟩
        exact ⟨other, mem_append_left _ otherMem, otherHas⟩
      · exact ⟨request, by simp, new⟩

theorem classifyBatch_cleared {final : BatchPlan}
    (captured : ∀ candidate ∈ candidates, candidate.valid →
      validateRequest candidate.request = .ok () ∧
        captureGumSnapshot gum candidate.request = .ok candidate.snapshot)
    (cleared : plan.Cleared gum threads)
    (ok : classifyBatch canSingleStep threads plan candidates = .ok final) :
    final.Cleared gum threads := by
  induction candidates generalizing plan with
  | nil =>
    cases ok
    exact cleared
  | cons candidate _ ih =>
    have capturedRest := fun other member => captured other (mem_cons_of_mem _ member)
    simp only [classifyBatch] at ok
    split at ok
    · exact ih capturedRest cleared ok
    next valid =>
      split at ok
      · refine ih capturedRest ?_ ok
        exact { cleared with }
      next mutation records classified =>
        split at ok
        · cases ok
        next aggregate merged =>
          rcases captured candidate mem_cons_self (by simpa using valid) with
            ⟨validated, snapshotEq⟩
          exact ih capturedRest (cleared.append
            ⟨validated, snapshotEq, classifyStoppedThreads_ok classified⟩ merged records) ok

/-- The assumptions on an accepted request: its ranges do not wrap around, and Gum reports the
length of the bytes written for the hook. -/
structure AcceptedRequest.Regular (accepted : AcceptedRequest) : Prop where
  blockedFits : accepted.request.blockedPcStart + accepted.request.blockedPcSize < 2 ^ 64
  entryFits : accepted.request.operation = .attach ∨ accepted.request.operation = .replace ∨
      accepted.request.operation = .revert →
    canonicalFunctionAddress accepted.request accepted.snapshot + maxPrologueSize < 2 ^ 64
  writeFits : ∀ address bytes, .writeMemory address bytes ∈ accepted.mutation.instructions →
    address + bytes.length < 2 ^ 64
  prologueLen : ∀ address bytes, .writeMemory address bytes ∈ accepted.mutation.instructions →
    accepted.snapshot.diagnostics.overwrittenPrologueLen = bytes.length

/-- The writes are disjoint and no thread is left in them. -/
structure PlanSafe (threads : List ThreadSnapshot) (accepted : List AcceptedRequest)
    (instructions : List Instruction) : Prop where
  disjoint : instructions.Pairwise DisjointWrites
  steppedOut : ∀ thread ∈ threads, ∀ address bytes,
    .writeMemory address bytes ∈ instructions →
    address < thread.pc → thread.pc < address + bytes.length →
    .singleStepOutOfRange thread.tid address bytes.length ∈ instructions
  blockedIdle : ∀ thread ∈ threads, ∀ request ∈ accepted, request.request.blockedPcStart ≠ 0 →
    ¬(request.request.blockedPcStart ≤ thread.pc ∧
      thread.pc < request.request.blockedPcStart + request.request.blockedPcSize)
  entryIdle : ∀ thread ∈ threads, ∀ request ∈ accepted,
    request.request.operation = .attach ∨ request.request.operation = .replace ∨
      request.request.operation = .revert →
    ¬(canonicalFunctionAddress request.request request.snapshot ≤ thread.pc ∧
      thread.pc < canonicalFunctionAddress request.request request.snapshot + maxPrologueSize)

namespace AcceptedRequest

variable {gum : GumState} {threads : List ThreadSnapshot} {accepted : AcceptedRequest}
  {thread : ThreadSnapshot}

theorem Cleared.entryIdle (cleared : accepted.Cleared gum threads)
    (regular : accepted.Regular) (threadMem : thread ∈ threads)
    (required : accepted.request.operation = .attach ∨ accepted.request.operation = .replace ∨
      accepted.request.operation = .revert) :
    ¬(canonicalFunctionAddress accepted.request accepted.snapshot ≤ thread.pc ∧
      thread.pc < canonicalFunctionAddress accepted.request accepted.snapshot + maxPrologueSize) :=
  not_mem_of_pointerInRange (canonicalFunctionAddress_ne_null accepted.snapshot cleared.validated)
    (regular.entryFits required) ((cleared.cleared.threads thread threadMem).entryIdle required)

theorem Cleared.steppedOut (cleared : accepted.Cleared gum threads)
    (regular : accepted.Regular) (threadMem : thread ∈ threads) {address : ℕ}
    (written : .writeMemory address bytes ∈ accepted.mutation.instructions)
    (lower : address < thread.pc) (upper : thread.pc < address + bytes.length) :
    .singleStepOutOfRange thread.tid address bytes.length ∈
      accepted.mutation.instructions := by
  rcases cleared.cleared.write address bytes written with ⟨addressEq, patches, _⟩
  have threadCleared := cleared.cleared.threads thread threadMem
  have lengthEq := regular.prologueLen address bytes written
  have fits := regular.writeFits address bytes written
  rcases captureGumSnapshot_context cleared.captured patches with ⟨hasContext, nonnull⟩
  have canonicalEq := canonicalFunctionAddress_of_context accepted.request hasContext nonnull
  have sizes : maxPatchBytes = maxPrologueSize := rfl
  have atEntry : accepted.snapshot.classifyPc thread.pc = .atPatchEntry := by
    have inside : pointerInRange thread.pc accepted.snapshot.diagnostics.functionAddress
        accepted.snapshot.diagnostics.overwrittenPrologueLen = true := by
      apply pointerInRange_of_mem nonnull <;> omega
    have pcNonnull : thread.pc ≠ 0 := by omega
    simp [GumSnapshot.classifyPc, hasContext, inside, pcNonnull]
  have decided : ∀ direct : accepted.request.operation = .detach ∨
      accepted.request.operation = .shutdown ∨ accepted.request.operation = .reattach,
      .singleStepOutOfRange thread.tid address bytes.length ∈
        accepted.mutation.instructions := by
    intro direct
    rcases threadCleared.atEntry atEntry direct with atStart | stepped
    · omega
    · rwa [← addressEq, lengthEq] at stepped
  cases operation : accepted.request.operation with
  | detach | shutdown | reattach => exact decided (by simp [operation])
  | revert =>
    have idle := cleared.entryIdle regular threadMem (by simp [operation])
    exact absurd ⟨by omega, by omega⟩ idle
  | attach | replace => simp [operation, DetachOperation.needsExistingHookContext] at patches

end AcceptedRequest

theorem BatchPlan.Cleared.safe
    (cleared : plan.Cleared gum threads) (regular : ∀ request ∈ plan.accepted, request.Regular) :
    PlanSafe threads plan.accepted plan.aggregate.instructions where
  disjoint := cleared.disjoint
  steppedOut thread threadMem address bytes written lower upper := by
    rcases cleared.origin _ written with ⟨request, requestMem, planned⟩
    exact cleared.kept request requestMem ((cleared.accepted request requestMem).steppedOut
      (regular request requestMem) threadMem planned lower upper)
  blockedIdle thread threadMem request requestMem nonnull :=
    not_mem_of_pointerInRange nonnull (regular request requestMem).blockedFits
      ((cleared.accepted request requestMem).cleared.threads thread threadMem).notBlocked
  entryIdle thread threadMem request requestMem :=
    (cleared.accepted request requestMem).entryIdle (regular request requestMem) threadMem

/-- Every plan that the controller accepts, for a single request or for a batch, is safe
for the stopped threads. -/
theorem mutation_plans_safe (gum : GumState) (records : List PatchRecord)
    (threads : List ThreadSnapshot) (backend : HoldBackend) (breakpointCanEvac : Bool) :
    (∀ request snapshot mutation planned after, validateRequest request = .ok () →
      captureGumSnapshot gum request = .ok snapshot →
      classifyStoppedThreads request snapshot (backend.canSingleStep breakpointCanEvac) threads
        mutation records = (.ok planned, after) →
      AcceptedRequest.Regular ⟨request, snapshot, planned⟩ →
      PlanSafe threads [⟨request, snapshot, planned⟩] planned.instructions) ∧
    ∀ requests plan,
      classifyBatch (backend.canSingleStep breakpointCanEvac) threads
        ⟨zero, records, [], []⟩ (BatchCandidate.ofRequests gum records requests) =
          .ok plan →
      (∀ request ∈ plan.accepted, request.Regular) →
      PlanSafe threads plan.accepted plan.aggregate.instructions := by
  constructor
  · intro request snapshot mutation planned after validated captured ok regular
    have requestCleared := classifyStoppedThreads_ok ok
    have cleared : BatchPlan.Cleared gum threads
        ⟨planned, after, [⟨request, snapshot, planned⟩], []⟩ := by
      refine ⟨?_, ?_, ?_, requestCleared.disjoint⟩
      · exact forall_mem_singleton.mpr ⟨validated, captured, requestCleared⟩
      · exact forall_mem_singleton.mpr (Subset.refl _)
      · intro instruction member
        exact ⟨_, mem_singleton_self _, member⟩
    exact cleared.safe (forall_mem_singleton.mpr regular)
  · intro requests plan ok regular
    have start : BatchPlan.Cleared gum threads ⟨zero, records, [], []⟩ :=
      ⟨by simp, by simp, by simp [zero], Pairwise.nil⟩
    exact (classifyBatch_cleared
      (fun candidate member => BatchCandidate.ofRequests_valid member) start ok).safe regular

/-- A function whose first five bytes were patched. -/
def patchedContext (entry : ℕ) (nonnull : entry ≠ 0) : GumFunctionContext where
  functionAddress := entry
  functionAddress_ne_null := nonnull
  destroyed := false
  activated := true
  listeners := [1]
  overwrittenPrologue := none
  overwrittenPrologueLen := 5
  trampolineSlice := none
  onEnterTrampoline := 0
  onLeaveTrampoline := 0
  onInvokeTrampoline := 0
  enterThunk := ⟨0, 0⟩
  leaveThunk := ⟨0, 0⟩
  fastOverlayDispatch := ⟨0, 0⟩
  fastListenerDispatch := none

def patchedGum : GumState where
  interceptors := fun _ =>
    [(4096, patchedContext 4096 (by decide)), (8192, patchedContext 8192 (by decide))]
  memory := fun _ => 0

def reattachRequest (hookId entry : ℕ) : DetachRequest :=
  ⟨hookId, entry, 1, 1, .reattach, 0, 0⟩

theorem AcceptedRequest.Regular.of_single {accepted : AcceptedRequest} {tid : ℕ} (address : ℕ)
    (bytes : List UInt8)
    (planned : accepted.mutation.instructions =
      [.singleStepOutOfRange tid address bytes.length, .writeMemory address bytes])
    (blocked : accepted.request.blockedPcStart + accepted.request.blockedPcSize < 2 ^ 64)
    (existing : accepted.request.operation = .reattach)
    (fits : address + bytes.length < 2 ^ 64)
    (length : accepted.snapshot.diagnostics.overwrittenPrologueLen = bytes.length) :
    accepted.Regular := by
  refine ⟨blocked, ?_, ?_, ?_⟩
  · simp [existing]
  · rw [planned]
    simpa using fits
  · rw [planned]
    simpa using length

/-- Two threads are stopped inside of the entries, and stepped out before the patches are written,
of one hook or of both. -/
theorem mutation_plans_safe_two_hooks :
    (∃ accepted : AcceptedRequest, accepted.request = reattachRequest 7 4096 ∧
      accepted.mutation.instructions =
        [.singleStepOutOfRange 42 4096 5, .writeMemory 4096 [1, 2, 3, 4, 5]] ∧
      PlanSafe [⟨42, .ok, 4098⟩, ⟨43, .ok, 8193⟩] [accepted] accepted.mutation.instructions) ∧
    ∃ plan : BatchPlan,
      plan.accepted.map (·.request) = [reattachRequest 7 4096, reattachRequest 8 8192] ∧
      plan.aggregate.instructions =
        [.singleStepOutOfRange 42 4096 5, .writeMemory 4096 [1, 2, 3, 4, 5],
          .singleStepOutOfRange 43 8192 5, .writeMemory 8192 [6, 7, 8, 9, 0]] ∧
      PlanSafe [⟨42, .ok, 4098⟩, ⟨43, .ok, 8193⟩] plan.accepted plan.aggregate.instructions := by
  have plans := mutation_plans_safe patchedGum
    [⟨true, 7, 4096, [1, 2, 3, 4, 5]⟩, ⟨true, 8, 8192, [6, 7, 8, 9, 0]⟩]
    [⟨42, .ok, 4098⟩, ⟨43, .ok, 8193⟩] .helper false
  constructor
  · refine ⟨_, rfl, rfl, plans.1 (reattachRequest 7 4096) _ zero _ _ rfl rfl rfl ?_⟩
    exact .of_single 4096 [1, 2, 3, 4, 5] rfl (by decide) rfl (by decide) rfl
  · refine ⟨_, rfl, rfl, plans.2 [reattachRequest 7 4096, reattachRequest 8 8192] _ rfl ?_⟩
    refine forall_mem_cons.mpr ⟨?_, forall_mem_singleton.mpr ?_⟩
    · exact .of_single 4096 [1, 2, 3, 4, 5] rfl (by decide) rfl (by decide) rfl
    · exact .of_single 8192 [6, 7, 8, 9, 0] rfl (by decide) rfl (by decide) rfl

end Peak
