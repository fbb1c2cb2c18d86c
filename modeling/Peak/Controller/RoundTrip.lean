import Peak.Common.FirstMatch
import Peak.Controller.Invariant
import Peak.Detach.PlanSafety
import Mathlib.Data.List.Pairwise

/-!
# Round trips of detached and reattached hooks

A `DETACH` writes the original prologue over the entry of a hook and records the active
patch; a `REATTACH` writes the recorded patch back. The records are written while a
mutation is planned, also for plans that are abandoned.
-/

namespace Peak

open List Controller

variable {request : DetachRequest} {records after : List PatchRecord}
  {candidates : List BatchCandidate} {failure : PlanFailure}
  {result : Except PlanFailure HeldMutation}

theorem applyWrites_covered {instructions : List Instruction} {location : ℕ} {byte : UInt8}
    (memory : ℕ → UInt8)
    (agree : ∀ address bytes, .writeMemory address bytes ∈ instructions → address ≤ location →
      location < address + bytes.length → bytes.getD (location - address) 0 = byte)
    (covered : memory location = byte ∨ ∃ address bytes,
      .writeMemory address bytes ∈ instructions ∧ address ≤ location ∧
        location < address + bytes.length) :
    applyWrites memory instructions location = byte := by
  induction instructions generalizing memory with
  | nil =>
    rcases covered with before | ⟨_, _, absent, _⟩
    · exact before
    · cases absent
  | cons instruction _ ih =>
    have rest := fun address bytes present =>
      agree address bytes (mem_cons_of_mem _ present)
    cases instruction with
    | setPc tid pc | singleStepOutOfRange tid start size =>
      refine ih memory rest (covered.imp_right ?_)
      rintro ⟨address, bytes, present, range⟩
      exact ⟨address, bytes, by simpa using present, range⟩
    | writeMemory address bytes =>
      refine ih _ rest ?_
      by_cases inside : address ≤ location ∧ location < address + bytes.length
      · left
        rw [if_pos inside]
        exact agree address bytes mem_cons_self inside.1 inside.2
      · rw [if_neg inside]
        refine covered.imp_right ?_
        rintro ⟨other, otherBytes, present, range⟩
        rcases mem_cons.mp present with same | later
        · cases same
          exact absurd range inside
        · exact ⟨other, otherBytes, later, range⟩

namespace PatchRecord

def ofHook (records : List PatchRecord) (hookId : ℕ) : Option PatchRecord :=
  (find records hookId).bind (records[·]?)

theorem ofHook_eq_find? (records : List PatchRecord) (hookId : ℕ) :
    ofHook records hookId = records.find? fun record => record.used && record.hookId == hookId :=
  (find?_eq_bind_findIdx?_getElem?).symm

theorem ofHook_open {records opened : List PatchRecord} {hookId index : ℕ} {created : Bool}
    (opens : openDetachRecord records hookId = some (index, created, opened)) :
    find opened hookId = some index ∧
      (∀ other, ofHook (if created then opened.set index zero else opened) other =
        ofHook records other) ∧
      ∀ other, other ≠ hookId → ofHook opened other = ofHook records other := by
  unfold openDetachRecord at opens
  split at opens
  next found findEq =>
    cases opens
    exact ⟨findEq, fun _ => rfl, fun _ _ => rfl⟩
  next absent =>
    simp only [create, Option.map_map, Option.map_eq_some_iff, Function.comp_apply] at opens
    rcases opens with ⟨free, freeEq, openedEq⟩
    cases openedEq
    rcases findIdx?_getElem? freeEq with ⟨old, present, unused⟩
    have oldUnused : old.used = false := by simpa using unused
    have bound : index < records.length := (List.getElem?_eq_some_iff.mp present).1
    refine ⟨?_, ?_, ?_⟩
    · exact FirstMatch.findIdx?_set_of_none absent bound (by simp)
    · intro other
      rw [if_pos rfl, set_set, ofHook_eq_find?, ofHook_eq_find?]
      exact FirstMatch.find?_set_of_false present (by simp [oldUnused]) (by simp [zero])
    · intro other different
      rw [ofHook_eq_find?, ofHook_eq_find?]
      refine FirstMatch.find?_set_of_false present (by simp [oldUnused]) ?_
      simp [Ne.symm different]

end PatchRecord

open PatchRecord

theorem ofHook_appendDetachPatch {patchAddress : ℕ} {patch : GumPatch}
    {mutation : HeldMutation}
    (planned : appendDetachPatch request patchAddress patch mutation records = (result, after)) :
    (∀ other, other ≠ request.hookId → ofHook after other = ofHook records other) ∧
      (∀ failure, result = .error failure → ∀ other, ofHook after other = ofHook records other) ∧
      (∀ mutation, result = .ok mutation → ∃ record, ofHook after request.hookId = some record ∧
        record.functionAddress = patchAddress ∧ record.activePatch = patch.activePatch) := by
  unfold appendDetachPatch at planned
  split at planned
  · cases planned
    exact ⟨fun _ _ => rfl, fun _ _ _ => rfl, by rintro mutation ⟨⟩⟩
  next index created opened opens =>
    rcases ofHook_open opens with ⟨found, dropped, others⟩
    split at planned
    · cases planned
      exact ⟨fun other _ => dropped other, fun _ _ => dropped, by rintro mutation ⟨⟩⟩
    · cases planned
      rcases findIdx?_getElem? found with ⟨record, present, matching⟩
      have keeps : ∀ (hookId : ℕ) (entry : PatchRecord),
          (({ entry with functionAddress := patchAddress, activePatch := patch.activePatch } :
              PatchRecord).used &&
            ({ entry with functionAddress := patchAddress, activePatch := patch.activePatch } :
              PatchRecord).hookId == hookId) = (entry.used && entry.hookId == hookId) :=
        fun _ _ => rfl
      refine ⟨?_, by rintro failure ⟨⟩, ?_⟩
      · intro other different
        have otherHook : (record.used && record.hookId == other) = false := by
          have sameHook : record.hookId = request.hookId := by
            simp only [Bool.and_eq_true, beq_iff_eq] at matching
            exact matching.2
          simp [sameHook, Ne.symm different]
        rw [← others other different, ofHook_eq_find?, ofHook_eq_find?]
        exact FirstMatch.find?_modify_of_false present otherHook otherHook
      · rintro mutation ⟨⟩
        rw [ofHook_eq_find?, FirstMatch.find?_modify_of_found found (keeps request.hookId), present]
        exact ⟨_, rfl, rfl, rfl⟩

/-- A hook with the bytes of its entry before and after it was first attached. -/
structure Hook where
  id : ℕ
  entry : ℕ
  original : List UInt8
  patch : List UInt8
  nonempty : 0 < patch.length
  sameLength : patch.length = original.length

namespace Hook

def installed (hook : Hook) (detached : Bool) : List UInt8 :=
  if detached then hook.original else hook.patch

@[simp]
theorem length_installed (hook : Hook) (detached : Bool) :
    (hook.installed detached).length = hook.patch.length := by
  cases detached
  · rfl
  · exact hook.sameLength.symm

def Apart (left right : Hook) : Prop :=
  left.id ≠ right.id ∧ (left.entry + left.patch.length ≤ right.entry ∨
    right.entry + right.patch.length ≤ left.entry)

end Hook

/-- Hooks whose code does not overlap. -/
structure HookTable where
  hooks : List Hook
  apart : hooks.Pairwise Hook.Apart

instance : Std.Symm Hook.Apart where
  symm _ _ apart := ⟨Ne.symm apart.1, Or.symm apart.2⟩

theorem HookTable.eq_or_apart (table : HookTable) {left right : Hook} (leftMem : left ∈ table.hooks)
    (rightMem : right ∈ table.hooks) : left = right ∨ left.Apart right := by
  by_cases same : left = right
  · exact .inl same
  · exact .inr (table.apart.forall leftMem rightMem same)

/-- Gum reports the entry of the hook and the bytes saved when it was attached. -/
def GumReports (environment : CallEnvironment) (hook : Hook) (request : DetachRequest) : Prop :=
  ∀ context, (environment.interceptors request.interceptor).findContext request.functionAddress
      request.listener = some context →
    context.functionAddress = hook.entry ∧
      context.overwrittenPrologueLen = hook.patch.length ∧
      ∀ prologue, context.overwrittenPrologue = some prologue →
        copyBytes prologue 0 hook.patch.length = hook.original

/-- The request is to switch the hook. -/
structure Requests (environment : CallEnvironment) (hook : Hook) (detached : Bool)
    (request : DetachRequest) : Prop where
  hookId : request.hookId = hook.id
  reports : GumReports environment hook request
  operation : request.operation = if detached then .reattach else .detach

/-- The patch of the hook is recorded. -/
def HasRecord (hook : Hook) (records : List PatchRecord) : Prop :=
  ∃ record, ofHook records hook.id = some record ∧ record.functionAddress = hook.entry ∧
    record.activePatch = hook.patch

/-- Every detached hook has a record. -/
def Recorded (table : HookTable) (detached : ℕ → Bool) (records : List PatchRecord) : Prop :=
  ∀ hook ∈ table.hooks, detached hook.id → HasRecord hook records

/-- The code at the entries is the one of the hooks in their states. -/
def Installed (table : HookTable) (detached : ℕ → Bool) (memory : ℕ → UInt8) : Prop :=
  ∀ hook ∈ table.hooks,
    copyBytes memory hook.entry hook.patch.length = hook.installed (detached hook.id)

section Request

variable {environment : CallEnvironment} {hook : Hook} {detached : Bool} {request : DetachRequest}
  {memory : ℕ → UInt8} {snapshot : GumSnapshot}

section

variable (requests : Requests environment hook detached request)

include requests

theorem Requests.needsContext : request.operation.needsExistingHookContext := by
  rw [requests.operation]
  cases detached <;> rfl

theorem Requests.isDetached (reattach : request.operation = .reattach) : detached := by
  rw [requests.operation] at reattach
  simpa using reattach

section

variable (captured : captureGumSnapshot ⟨environment.interceptors, memory⟩ request = .ok snapshot)

include captured

theorem Requests.canonical : canonicalFunctionAddress request snapshot = hook.entry := by
  rcases captureGumSnapshot_context captured requests.needsContext with ⟨hasContext, nonnull⟩
  rcases captureGumSnapshot_found captured requests.needsContext with
    ⟨context, found, _, address, _⟩
  rw [canonicalFunctionAddress_of_context request hasContext nonnull, address]
  exact (requests.reports context found).1

theorem Requests.patch {patch : GumPatch} (present : snapshot.patch = some patch) :
    patch.originalPrologue = hook.original ∧
      patch.activePatch = copyBytes memory hook.entry hook.patch.length := by
  rcases captureGumSnapshot_found captured requests.needsContext with
    ⟨context, found, _, _, patchOf⟩
  rcases patchOf patch present with ⟨prologue, prologueEq, active, original⟩
  rcases requests.reports context found with ⟨entry, length, saved⟩
  refine ⟨?_, ?_⟩
  · rw [original, length]
    exact saved prologue prologueEq
  · rw [active, entry, length]

end

end

variable {canSingleStep : Bool} {mutation : HeldMutation}

theorem classifyThread_not_missing {thread : ThreadSnapshot}
    (failed : classifyThread request snapshot canSingleStep mutation thread = .error failure) :
    failure.missingPatchRecord = false := by
  simp only [classifyThread, classifyAtPatchEntry, classifyInGum] at failed
  repeat' split at failed
  all_goals
    cases failed
    try rfl

theorem classifyThreads_not_missing {earlier threads : List ThreadSnapshot}
    (failed : classifyThreads request snapshot canSingleStep earlier mutation threads =
      .error failure) : failure.missingPatchRecord = false := by
  induction threads generalizing earlier mutation with
  | nil => cases failed
  | cons _ _ ih =>
    simp only [classifyThreads] at failed
    split at failed
    · cases failed
      rfl
    · split at failed
      next threadFailed =>
        cases failed
        exact classifyThread_not_missing threadFailed
      · exact ih failed

/-- The plan of a hook contains exactly one write, of the bytes that belong to the other
state of the hook. -/
def PlansSwitch (hook : Hook) (detached : Bool) (instructions : List Instruction) : Prop :=
  ∀ address bytes, .writeMemory address bytes ∈ instructions ↔
    address = hook.entry ∧ bytes = hook.installed (!detached)

theorem plansSwitch_append {instructions : List Instruction}
    (noWrite : ∀ instruction ∈ instructions, ¬instruction.IsWrite) {bytes : List UInt8}
    (bytesEq : bytes = hook.installed (!detached)) :
    PlansSwitch hook detached (instructions ++ [.writeMemory hook.entry bytes]) := by
  intro address other
  constructor
  · intro present
    rcases mem_append.mp present with earlier | last
    · exact absurd ⟨address, other, rfl⟩ (noWrite _ earlier)
    · cases mem_singleton.mp last
      exact ⟨rfl, bytesEq⟩
  · rintro ⟨rfl, rfl⟩
    simp [bytesEq]

theorem classifyStoppedThreads_switch (requests : Requests environment hook detached request)
    (captured : captureGumSnapshot ⟨environment.interceptors, memory⟩ request = .ok snapshot)
    (installed : copyBytes memory hook.entry hook.patch.length = hook.installed detached)
    (recorded : detached → HasRecord hook records)
    {threads : List ThreadSnapshot}
    (classified : classifyStoppedThreads request snapshot canSingleStep threads mutation records =
      (result, after)) :
    (∀ other : Hook, other = hook ∨ other.id ≠ hook.id → HasRecord other records →
        HasRecord other after) ∧
      (∀ planned, result = .ok planned →
        PlansSwitch hook detached planned.instructions ∧ HasRecord hook after) ∧
      (∀ failure, result = .error failure → detached →
        failure.missingPatchRecord = false) := by
  simp only [classifyStoppedThreads] at classified
  split at classified
  next failure threadsFailed =>
    cases classified
    refine ⟨fun _ _ has => has, by rintro planned ⟨⟩, ?_⟩
    rintro _ ⟨⟩ _
    exact classifyThreads_not_missing threadsFailed
  next cleared threadsOk =>
    rcases classifyThreads_start threadsOk with ⟨noWrite, _⟩
    cases detached with
    | true =>
      rcases recorded rfl with ⟨record, found, address, patch⟩
      have unusable : ¬(record.activePatch.length = 0 ∨ record.functionAddress ≠ hook.entry) := by
        have nonempty := hook.nonempty
        simp only [patch]
        omega
      have foundRequest : (find records request.hookId).bind (records[·]?) = some record := by
        rw [requests.hookId]
        exact found
      simp only [appendPhysicalPatch, requests.operation, if_true, Prod.mk.injEq,
        requests.canonical captured, appendRecordedPatch, foundRequest, unusable,
        if_false] at classified
      rcases classified with ⟨resultEq, rfl⟩
      refine ⟨fun _ _ has => has, ?_, ?_⟩
      · rintro planned rfl
        split at resultEq
        · cases resultEq
        next appended appendedEq =>
          cases resultEq
          rw [(HeldMutation.appendWrite_some appendedEq).1]
          exact ⟨plansSwitch_append noWrite patch, record, found, address, patch⟩
      · rintro failure rfl _
        split at resultEq
        · cases resultEq
          rfl
        · cases resultEq
    | false =>
      simp only [appendPhysicalPatch, requests.operation, Bool.false_eq_true, if_false,
        requests.canonical captured] at classified
      split at classified
      · cases classified
        exact ⟨fun _ _ has => has, by rintro planned ⟨⟩, by simp⟩
      next patch present =>
        rcases requests.patch captured present with ⟨original, active⟩
        split at classified
        · cases classified
          exact ⟨fun _ _ has => has, by rintro planned ⟨⟩, by simp⟩
        · rcases ofHook_appendDetachPatch classified with ⟨others, dropped, records⟩
          rw [requests.hookId] at others records
          have planned : ∀ planned, result = .ok planned →
              PlansSwitch hook false planned.instructions ∧ HasRecord hook after := by
            rintro planned rfl
            rcases records planned rfl with ⟨record, found, address, patched⟩
            rcases appendOriginalPrologue_ok (appendDetachPatch_ok classified) with ⟨written, _⟩
            rw [written, original]
            exact ⟨plansSwitch_append noWrite rfl, record, found, address,
              patched.trans (active.trans installed)⟩
          refine ⟨?_, planned, by simp⟩
          rintro other (rfl | different) ⟨record, found, recordEq⟩
          · cases result with
            | ok mutation => exact (planned mutation rfl).2
            | error failure => exact ⟨record, (dropped failure rfl _).trans found, recordEq⟩
          · exact ⟨record, (others other.id different).trans found, recordEq⟩

end Request

theorem copyBytes_eq_iff {memory : ℕ → UInt8} {address : ℕ} {bytes : List UInt8} :
    copyBytes memory address bytes.length = bytes ↔
      ∀ offset, offset < bytes.length → memory (address + offset) = bytes.getD offset 0 := by
  constructor
  · intro copied offset bound
    rw [← copied]
    simp [copyBytes, bound]
  · intro same
    apply ext_getElem
    · simp
    · intro offset bound bound'
      have byte := same offset bound'
      simpa [copyBytes, bound'] using byte

/-- The states once the requests are prepared. -/
def switched (detached : ℕ → Bool) (prepared : List DetachRequest) (hookId : ℕ) : Bool :=
  match prepared.find? (·.hookId == hookId) with
  | some request => request.operation == .detach
  | none => detached hookId

/-- The requests switch the states of their hooks, and the instructions are those that
write the bytes of the new states. -/
structure Switches (table : HookTable) (detached : ℕ → Bool) (prepared : List DetachRequest)
    (instructions : List Instruction) : Prop where
  hookOf : ∀ request ∈ prepared, ∃ hook ∈ table.hooks, request.hookId = hook.id ∧
    request.operation = (if detached hook.id then .reattach else .detach) ∧
    .writeMemory hook.entry (hook.installed (!detached hook.id)) ∈ instructions
  origin : ∀ address bytes, .writeMemory address bytes ∈ instructions →
    ∃ hook ∈ table.hooks, (∃ request ∈ prepared, request.hookId = hook.id) ∧
      address = hook.entry ∧ bytes = hook.installed (!detached hook.id)

section Effect

variable {table : HookTable} {detached : ℕ → Bool} {prepared : List DetachRequest}
  {instructions : List Instruction} {memory : ℕ → UInt8}

theorem HookTable.eq_of_id (table : HookTable) {left right : Hook} (leftMem : left ∈ table.hooks)
    (rightMem : right ∈ table.hooks) (sameId : left.id = right.id) : left = right := by
  rcases table.eq_or_apart leftMem rightMem with same | apart
  · exact same
  · exact absurd sameId apart.1

section

variable (switches : Switches table detached prepared instructions)

include switches

theorem Installed.unprepared
    (installed : Installed table detached memory) {hook : Hook} (hookMem : hook ∈ table.hooks)
    (absent : ∀ request ∈ prepared, request.hookId ≠ hook.id) :
    copyBytes (applyWrites memory instructions) hook.entry hook.patch.length =
      hook.installed (detached hook.id) := by
  rw [← installed hook hookMem, copyBytes, copyBytes, map_inj_left]
  intro offset offsetMem
  have bound : offset < hook.patch.length := mem_range.mp offsetMem
  apply applyWrites_outside
  intro address bytes present
  rcases switches.origin address bytes present with
    ⟨other, otherMem, ⟨request, requestMem, sameId⟩, rfl, rfl⟩
  rcases table.eq_or_apart otherMem hookMem with rfl | apart
  · exact absurd sameId (absent request requestMem)
  · rw [Hook.length_installed]
    rcases apart.2 with before | after <;> omega

theorem Switches.installs {hook : Hook} (hookMem : hook ∈ table.hooks)
    (present : .writeMemory hook.entry (hook.installed (!detached hook.id)) ∈ instructions) :
    copyBytes (applyWrites memory instructions) hook.entry hook.patch.length =
      hook.installed (!detached hook.id) := by
  rw [← hook.length_installed (!detached hook.id), copyBytes_eq_iff]
  intro offset bound
  apply applyWrites_covered
  · intro address bytes otherPresent lower upper
    rcases switches.origin address bytes otherPresent with ⟨other, otherMem, _, rfl, rfl⟩
    rcases table.eq_or_apart otherMem hookMem with rfl | apart
    · simp
    · rw [Hook.length_installed] at upper bound
      rcases apart.2 with before | after <;> omega
  · exact .inr ⟨hook.entry, _, present, by omega, by omega⟩

theorem Installed.switch (installed : Installed table detached memory) :
    Installed table (switched detached prepared) (applyWrites memory instructions) := by
  intro hook hookMem
  cases found : prepared.find? (·.hookId == hook.id) with
  | none =>
    rw [switched, found]
    apply installed.unprepared switches hookMem
    intro request requestMem sameId
    simpa [sameId] using find?_eq_none.mp found request requestMem
  | some request =>
    have requestMem := mem_of_find?_eq_some found
    have sameId : request.hookId = hook.id := by simpa using find?_some found
    rcases switches.hookOf request requestMem with
      ⟨other, otherMem, otherId, operation, present⟩
    have sameHook := table.eq_of_id otherMem hookMem (otherId.symm.trans sameId)
    subst sameHook
    have state : switched detached prepared other.id = !detached other.id := by
      simp only [switched, found, operation]
      cases detached other.id <;> rfl
    rw [state]
    exact switches.installs otherMem present

end

theorem Recorded.switch (recorded : Recorded table detached records)
    (kept : ∀ hook ∈ table.hooks, HasRecord hook records → HasRecord hook after)
    (added : ∀ request ∈ prepared, ∃ hook ∈ table.hooks, request.hookId = hook.id ∧
      HasRecord hook after) :
    Recorded table (switched detached prepared) after := by
  intro hook hookMem isDetached
  cases found : prepared.find? (·.hookId == hook.id) with
  | none =>
    rw [switched, found] at isDetached
    exact kept hook hookMem (recorded hook hookMem isDetached)
  | some request =>
    have sameId : request.hookId = hook.id := by simpa using find?_some found
    rcases added request (mem_of_find?_eq_some found) with ⟨other, otherMem, otherId, has⟩
    have sameHook := table.eq_of_id otherMem hookMem (otherId.symm.trans sameId)
    exact sameHook ▸ has

end Effect

namespace BatchCandidate

/-- A candidate of the requests that was not refused for lack of a patch record. -/
structure Sound (requests : List DetachRequest) (candidate : BatchCandidate) : Prop where
  mem : candidate.request ∈ requests
  notMissing : ∀ failure, candidate.failure = some failure → failure.missingPatchRecord = false

variable {requests : List DetachRequest} {candidate : BatchCandidate}

theorem Sound.refuse (sound : candidate.Sound requests)
    (notMissing : failure.missingPatchRecord = false) :
    (candidate.refuse failure).Sound requests := by
  refine ⟨sound.mem, ?_⟩
  rintro other ⟨⟩
  exact notMissing

theorem ofRequest_sound (requestMem : request ∈ requests) : (ofRequest request).Sound requests := by
  have initial : (⟨request, true, none, GumSnapshot.zero⟩ : BatchCandidate).Sound requests :=
    ⟨requestMem, by rintro failure ⟨⟩⟩
  simp only [ofRequest]
  split
  next failed =>
    exact initial.refuse (validateRequest_not_missing failed)
  · split
    all_goals first
      | exact initial
      | exact initial.refuse rfl

theorem capture_sound (gum : GumState) {records : List PatchRecord}
    (sound : candidate.Sound requests)
    (recorded : candidate.request.operation = .reattach →
      ∃ record, ofHook records candidate.request.hookId = some record ∧
        record.activePatch.length ≠ 0) :
    (capture gum records candidate).Sound requests := by
  simp only [capture]
  split
  · exact sound
  · split
    next missing =>
      simp only [Bool.and_eq_true, decide_eq_true_eq] at missing
      rcases recorded missing.1 with ⟨record, found, nonempty⟩
      have patchSize := missing.2
      rw [show (find records candidate.request.hookId).bind (records[·]?) = some record from found]
        at patchSize
      exact absurd patchSize nonempty
    · split
      next failed =>
        exact sound.refuse (captureGumSnapshot_not_missing failed)
      · exact ⟨sound.mem, sound.notMissing⟩

theorem ofRequests_sound (gum : GumState) {records : List PatchRecord}
    (recorded : ∀ request ∈ requests, request.operation = .reattach →
      ∃ record, ofHook records request.hookId = some record ∧ record.activePatch.length ≠ 0) :
    ∀ candidate ∈ ofRequests gum records requests, candidate.Sound requests := by
  refine forall_refuseSameCanonical (Sound requests) (fun _ sound => sound.refuse rfl)
    (forall_mem_map.mpr fun original originalMem => ?_)
  have originalSound := forall_refuseSameHook (Sound requests) (fun _ sound => sound.refuse rfl)
    (forall_mem_map.mpr fun request requestMem =>
      ofRequest_sound (mem_of_mem_take requestMem)) original originalMem
  exact capture_sound gum originalSound (recorded original.request originalSound.mem)

end BatchCandidate

def SwitchesHook (table : HookTable) (environment : CallEnvironment) (detached : ℕ → Bool)
    (request : DetachRequest) : Prop :=
  ∃ hook ∈ table.hooks, Requests environment hook (detached hook.id) request

structure BatchPlan.Switching (table : HookTable) (detached : ℕ → Bool)
    (records : List PatchRecord) (plan : BatchPlan) : Prop where
  accepted : ∀ accepted ∈ plan.accepted, ∃ hook ∈ table.hooks,
    accepted.request.hookId = hook.id ∧
      accepted.request.operation = (if detached hook.id then .reattach else .detach) ∧
      PlansSwitch hook (detached hook.id) accepted.mutation.instructions ∧
      HasRecord hook plan.records
  kept : ∀ hook ∈ table.hooks, HasRecord hook records → HasRecord hook plan.records
  refused : ∀ entry ∈ plan.refused, entry.1.operation = .reattach →
    entry.2.missingPatchRecord = false

section Loop

variable {table : HookTable} {environment : CallEnvironment} {detached : ℕ → Bool}
  {records after : List PatchRecord} {memory : ℕ → UInt8} {plan final : BatchPlan}

theorem BatchPlan.Switching.keep (switching : plan.Switching table detached records)
    (keeps : ∀ hook ∈ table.hooks, HasRecord hook plan.records → HasRecord hook after) :
    { plan with records := after }.Switching table detached records := by
  refine ⟨?_, fun hook hookMem has => keeps hook hookMem (switching.kept hook hookMem has),
    switching.refused⟩
  intro accepted acceptedMem
  rcases switching.accepted accepted acceptedMem with
    ⟨hook, hookMem, sameId, operation, plans, has⟩
  exact ⟨hook, hookMem, sameId, operation, plans, keeps hook hookMem has⟩

theorem classifyBatch_switching (installed : Installed table detached memory)
    (recorded : Recorded table detached records) {canSingleStep : Bool}
    {threads : List ThreadSnapshot}
    (valid : ∀ candidate ∈ candidates, candidate.valid →
      captureGumSnapshot ⟨environment.interceptors, memory⟩ candidate.request =
          .ok candidate.snapshot ∧
        SwitchesHook table environment detached candidate.request)
    (switching : plan.Switching table detached records)
    (ok : classifyBatch canSingleStep threads plan candidates = .ok final) :
    final.Switching table detached records := by
  induction candidates generalizing plan with
  | nil =>
    cases ok
    exact switching
  | cons candidate _ ih =>
    have validRest := fun other member => valid other (mem_cons_of_mem _ member)
    simp only [classifyBatch] at ok
    split at ok
    · exact ih validRest switching ok
    next isValid =>
      rcases valid candidate mem_cons_self (by simpa using isValid) with
        ⟨captured, hook, hookMem, requests⟩
      have hookRecorded : detached hook.id → HasRecord hook plan.records :=
        fun isDetached => switching.kept hook hookMem (recorded hook hookMem isDetached)
      have sameOrApart : ∀ other ∈ table.hooks, other = hook ∨ other.id ≠ hook.id :=
        fun other otherMem => (table.eq_or_apart otherMem hookMem).imp_right And.left
      split at ok
      next failure after classified =>
        rcases classifyStoppedThreads_switch requests captured (installed hook hookMem)
          hookRecorded classified with ⟨kept, _, notMissing⟩
        have moved := switching.keep fun other otherMem => kept other (sameOrApart other otherMem)
        refine ih validRest ?_ ok
        refine ⟨moved.accepted, moved.kept, ?_⟩
        intro entry entryMem reattach
        rcases mem_append.mp entryMem with earlier | last
        · exact switching.refused entry earlier reattach
        · cases mem_singleton.mp last
          exact notMissing failure rfl (requests.isDetached reattach)
      next mutation after classified =>
        rcases classifyStoppedThreads_switch requests captured (installed hook hookMem)
          hookRecorded classified with ⟨kept, planned, _⟩
        have moved := switching.keep fun other otherMem => kept other (sameOrApart other otherMem)
        split at ok
        · cases ok
        · refine ih validRest ?_ ok
          refine ⟨?_, moved.kept, moved.refused⟩
          intro accepted acceptedMem
          rcases mem_append.mp acceptedMem with earlier | last
          · exact moved.accepted accepted earlier
          · cases mem_singleton.mp last
            exact ⟨hook, hookMem, requests.hookId, requests.operation, planned mutation rfl⟩

end Loop

def preparedRequests : ControllerCall → ControllerReply → List DetachRequest
  | .prepare request, .single (.ok ()) => [request]
  | .prepareBatch _, .batch (.ok results) => results.prepared.map (·.request)
  | _, _ => []

def failedRequests : ControllerCall → ControllerReply → List (DetachRequest × PlanFailure)
  | .prepare request, .single (.error failure) => [(request, failure)]
  | .prepareBatch _, .batch (.error failure) => failure.failed
  | .prepareBatch _, .batch (.ok results) => results.failed
  | _, _ => []

/-- The calls on the hooks of a table that only switch their states. -/
def Permitted (table : HookTable) (environment : CallEnvironment) (detached : ℕ → Bool) :
    ControllerCall → Prop
  | .prepare request => SwitchesHook table environment detached request
  | .prepareBatch requests => ∀ request ∈ requests, SwitchesHook table environment detached request
  | .rewriteCode _ => False
  | .finish _ | .finishBatch | .shutdownHelper => True

structure SwitchStep (table : HookTable) (detached : ℕ → Bool) (phase : Phase)
    (call : ControllerCall) (reply : ControllerReply) (controller : Controller) : Prop where
  installed : Installed table (switched detached (preparedRequests call reply)) controller.memory
  recorded : Recorded table (switched detached (preparedRequests call reply)) controller.records
  unchanged : reply.isTrue = false → controller.memory = phase.memory
  notMissing : ∀ entry ∈ failedRequests call reply, entry.1.operation = .reattach →
    entry.2.missingPatchRecord = false

section Calls

variable {table : HookTable} {environment : CallEnvironment} {detached : ℕ → Bool} {phase : Phase}

variable {controller : Controller}

def KeepsCode (phase : Phase) (controller : Controller) : Prop :=
  controller.memory = phase.memory ∧ controller.records = phase.records

theorem At.kept (here : At phase controller) : KeepsCode phase controller :=
  ⟨congrArg Phase.memory here, congrArg Phase.records here⟩

theorem Recorded.ofRequest (recorded : Recorded table detached phase.records)
    (switches : SwitchesHook table environment detached request)
    (reattach : request.operation = .reattach) :
    ∃ record, ofHook phase.records request.hookId = some record ∧
      record.activePatch.length ≠ 0 := by
  rcases switches with ⟨hook, hookMem, requests⟩
  rcases recorded hook hookMem (requests.isDetached reattach) with ⟨record, found, _, patch⟩
  refine ⟨record, requests.hookId ▸ found, ?_⟩
  rw [patch]
  exact Nat.ne_of_gt hook.nonempty

theorem Concludes.kept {α β : Type} {refused : β → Prop} {prepared : α → Phase → Prop} {failure : β}
    (concluded : Concludes phase refused prepared (.error failure) controller) :
    KeepsCode phase controller := by
  rcases concluded.2 with here | here
  · exact here.kept
  · exact here.kept

theorem batchCandidates_sound {requests : List DetachRequest}
    (recorded : Recorded table detached phase.records)
    (switches : ∀ request ∈ requests, SwitchesHook table environment detached request) :
    ∀ candidate ∈ batchCandidates environment phase requests, candidate.Sound requests :=
  BatchCandidate.ofRequests_sound _ fun request requestMem reattach =>
    recorded.ofRequest (switches request requestMem) reattach

open Program

theorem finishHookMutation_keeps {depth : ℕ} {ledger : Ledger}
    (settled : phase.Settled depth ledger) (operationValid : Bool) :
    Triple (At phase) (finishHookMutation environment operationValid)
      (fun _ => KeepsCode phase) := by
  cases held : ledger.held with
  | false =>
    exact triple_post (finishHookMutation_idle (settled.idle held) operationValid)
      fun _ _ here => here.kept
  | true =>
    refine triple_post (finishHookMutation_held (settled.held held) operationValid) ?_
    intro result controller here
    split at here
    · exact here.kept
    · exact here.kept

section

variable (installed : Installed table detached phase.memory)
  (recorded : Recorded table detached phase.records)

include installed recorded

theorem switchStep_unchanged {call : ControllerCall} {reply : ControllerReply}
    (none : preparedRequests call reply = []) (kept : KeepsCode phase controller)
    (notMissing : ∀ entry ∈ failedRequests call reply, entry.1.operation = .reattach →
      entry.2.missingPatchRecord = false) :
    SwitchStep table detached phase call reply controller := by
  refine ⟨?_, ?_, fun _ => kept.1, notMissing⟩
  · rw [none, kept.1]
    exact installed
  · rw [none, kept.2]
    exact recorded

theorem single_switches
    (switches : SwitchesHook table environment detached request) {result : Except PlanFailure Unit}
    (concluded : Concludes phase (SingleRefused environment phase request)
      (SinglePrepared environment phase request) result controller) :
    SwitchStep table detached phase (.prepare request) (.single result) controller := by
  rcases switches with ⟨hook, hookMem, requests⟩
  cases result with
  | error failure =>
    refine switchStep_unchanged installed recorded rfl concluded.kept ?_
    intro entry entryMem reattach
    cases mem_singleton.mp entryMem
    by_contra missing
    rcases concluded.1 (by simpa using missing) with ⟨_, _, _, _, _, captured, failed⟩
    rcases classifyStoppedThreads_switch requests captured (installed hook hookMem)
      (recorded hook hookMem) failed with ⟨_, _, notMissing⟩
    exact missing (notMissing failure rfl (requests.isDetached reattach))
  | ok =>
    rcases concluded with
      ⟨_, mutation, after, _, ⟨_, _, _, _, captured, classified⟩, afterEq⟩
    rcases classifyStoppedThreads_switch requests captured (installed hook hookMem)
      (recorded hook hookMem) classified with ⟨kept, planned, _⟩
    rcases planned mutation rfl with ⟨plans, has⟩
    have switches : Switches table detached [request] mutation.instructions := by
      refine ⟨?_, ?_⟩
      · intro other otherMem
        cases mem_singleton.mp otherMem
        exact ⟨hook, hookMem, requests.hookId, requests.operation, (plans _ _).mpr ⟨rfl, rfl⟩⟩
      · intro address bytes present
        rcases (plans address bytes).mp present with ⟨rfl, rfl⟩
        exact ⟨hook, hookMem, ⟨request, mem_singleton_self _, requests.hookId⟩, rfl, rfl⟩
    refine ⟨?_, ?_, by rintro ⟨⟩, by rintro entry ⟨⟩⟩
    · rw [show controller.memory = applyWrites phase.memory mutation.instructions from
        congrArg Phase.memory afterEq]
      exact installed.switch switches
    · rw [show controller.records = after from congrArg Phase.records afterEq]
      refine recorded.switch ?_ ?_
      · intro other otherMem
        exact kept other ((table.eq_or_apart otherMem hookMem).imp_right And.left)
      · intro other otherMem
        cases mem_singleton.mp otherMem
        exact ⟨hook, hookMem, requests.hookId, has⟩

section Batches

variable {requests : List DetachRequest} {plan : BatchPlan}
  (permitted : ∀ request ∈ requests, SwitchesHook table environment detached request)

include permitted

theorem BatchClassified.switching (classified : BatchClassified environment phase requests plan) :
    plan.Switching table detached phase.records := by
  rcases classified with ⟨_, _, classified⟩
  have valid : ∀ candidate ∈ batchCandidates environment phase requests, candidate.valid →
      captureGumSnapshot ⟨environment.interceptors, phase.memory⟩ candidate.request =
          .ok candidate.snapshot ∧
        SwitchesHook table environment detached candidate.request := by
    intro candidate candidateMem isValid
    have sound := batchCandidates_sound recorded permitted candidate candidateMem
    exact ⟨(BatchCandidate.ofRequests_valid candidateMem isValid).2, permitted _ sound.mem⟩
  exact classifyBatch_switching installed recorded valid ⟨by simp, fun _ _ has => has, by simp⟩
    classified

theorem BatchClassified.switches (classified : BatchClassified environment phase requests plan) :
    Switches table detached (plan.accepted.map (·.request)) plan.aggregate.instructions := by
  have switching := classified.switching installed recorded permitted
  rcases classified with ⟨_, threads, classified⟩
  have cleared : plan.Cleared ⟨environment.interceptors, phase.memory⟩ threads := by
    refine classifyBatch_cleared ?_ ⟨by simp, by simp, ?_, by simp [HeldMutation.zero]⟩ classified
    · intro candidate candidateMem isValid
      exact BatchCandidate.ofRequests_valid candidateMem isValid
    · intro instruction instructionMem
      cases instructionMem
  refine ⟨?_, ?_⟩
  · intro request requestMem
    rcases mem_map.mp requestMem with ⟨accepted, acceptedMem, rfl⟩
    rcases switching.accepted accepted acceptedMem with
      ⟨hook, hookMem, sameId, operation, plans, _⟩
    exact ⟨hook, hookMem, sameId, operation,
      cleared.kept accepted acceptedMem ((plans _ _).mpr ⟨rfl, rfl⟩)⟩
  · intro address bytes present
    rcases cleared.origin _ present with ⟨accepted, acceptedMem, written⟩
    rcases switching.accepted accepted acceptedMem with ⟨hook, hookMem, sameId, _, plans, _⟩
    exact ⟨hook, hookMem, ⟨accepted.request, mem_map_of_mem acceptedMem, sameId⟩,
      (plans address bytes).mp written⟩

theorem BatchRefused.not_missing {failed : List (DetachRequest × PlanFailure)}
    (refused : BatchRefused environment phase requests failed) :
    ∀ entry ∈ failed, entry.1.operation = .reattach → entry.2.missingPatchRecord = false := by
  intro entry entryMem reattach
  by_contra missing
  rcases refused entry entryMem (by simpa using missing) with early | ⟨_, classified, later⟩
  · rcases mem_filterMap.mp early with ⟨candidate, candidateMem, mapped⟩
    rcases Option.map_eq_some_iff.mp mapped with ⟨failure, failureEq, rfl⟩
    have sound := batchCandidates_sound recorded permitted candidate candidateMem
    exact missing (sound.notMissing failure failureEq)
  · have switching := classified.switching installed recorded permitted
    exact missing (switching.refused entry later reattach)

theorem batch_switches {controller : Controller} {result : Except BatchFailure BatchResults}
    (concluded : Concludes phase (BatchFailed environment phase requests)
      (BatchPrepared environment phase requests) result controller) :
    SwitchStep table detached phase (.prepareBatch requests) (.batch result) controller := by
  cases result with
  | error =>
    exact switchStep_unchanged installed recorded rfl concluded.kept
      (BatchRefused.not_missing installed recorded permitted concluded.1)
  | ok =>
    rcases concluded with ⟨refused, _, plan, _, classified, preparedEq, afterEq⟩
    have switching := classified.switching installed recorded permitted
    refine ⟨?_, ?_, by rintro ⟨⟩, refused.not_missing installed recorded permitted⟩
    · rw [preparedRequests, preparedEq,
        show controller.memory = applyWrites phase.memory plan.aggregate.instructions from
          congrArg Phase.memory afterEq]
      exact installed.switch (classified.switches installed recorded permitted)
    · rw [preparedRequests, preparedEq,
        show controller.records = plan.records from congrArg Phase.records afterEq]
      refine recorded.switch switching.kept ?_
      intro request requestMem
      rcases mem_map.mp requestMem with ⟨accepted, acceptedMem, rfl⟩
      rcases switching.accepted accepted acceptedMem with ⟨hook, hookMem, sameId, _, _, has⟩
      exact ⟨hook, hookMem, sameId, has⟩

end Batches

theorem perform_switches {depth : ℕ} {ledger : Ledger} (settled : phase.Settled depth ledger)
    {call : ControllerCall} (permitted : Permitted table environment detached call) :
    Triple (At phase) (call.perform environment) (SwitchStep table detached phase call) := by
  cases call with
  | prepare request =>
    cases held : ledger.held with
    | false =>
      refine triple_bind _ (prepareHookMutation_triple (settled.idle held)) fun result => ?_
      exact triple_pure fun _ concluded => single_switches installed recorded permitted concluded
    | true =>
      refine triple_bind _ (prepareHookMutation_refused (settled.held held).active request)
        fun result => ?_
      refine triple_pure fun _ refused => ?_
      rcases refused.1 with ⟨_, rfl, notMissing⟩
      refine switchStep_unchanged installed recorded rfl refused.2.kept ?_
      intro entry entryMem _
      cases mem_singleton.mp entryMem
      exact notMissing
  | prepareBatch requests =>
    cases held : ledger.held with
    | false =>
      refine triple_bind _ (prepareHookMutationBatch_triple (settled.idle held)) fun result => ?_
      exact triple_pure fun _ concluded => batch_switches installed recorded permitted concluded
    | true =>
      refine triple_bind _
        (prepareHookMutationBatch_refused (settled.held held).active requests) fun result => ?_
      refine triple_pure fun _ refused => ?_
      rcases refused.1 with ⟨_, rfl, notMissing⟩
      exact switchStep_unchanged installed recorded rfl refused.2.kept
        fun entry entryMem _ => notMissing entry entryMem
  | finish operationValid =>
    refine triple_bind _ (finishHookMutation_keeps settled operationValid) fun result => ?_
    exact triple_pure fun _ kept =>
      switchStep_unchanged installed recorded rfl kept (by rintro entry ⟨⟩)
  | finishBatch =>
    refine triple_bind _ (finishHookMutation_keeps settled true) fun result => ?_
    exact triple_pure fun _ kept =>
      switchStep_unchanged installed recorded rfl kept (by rintro entry ⟨⟩)
  | shutdownHelper =>
    cases held : ledger.held with
    | false =>
      refine triple_bind _ (shutdownHelper_triple (settled.idle held)) fun result => ?_
      exact triple_pure fun _ here =>
        switchStep_unchanged installed recorded rfl here.kept (by rintro entry ⟨⟩)
    | true =>
      refine triple_bind _ (shutdownHelper_refused (settled.held held).active) fun result => ?_
      exact triple_pure fun _ refused =>
        switchStep_unchanged installed recorded rfl refused.2.kept (by rintro entry ⟨⟩)
  | rewriteCode => exact permitted.elim

end

end Calls

/-- The hooks whose last successful mutation was a `DETACH`. -/
def detachedAfter (history : List (ControllerCall × Except FatalExit ControllerReply)) : ℕ → Bool :=
  history.foldl
    (fun detached entry =>
      match entry.2 with
      | .ok reply => switched detached (preparedRequests entry.1 reply)
      | .error _ => detached)
    fun _ => false

/-- Every call is permitted in the states it meets. -/
def PermittedRun (table : HookTable) (initial : Controller)
    (events : List (CallEnvironment × ControllerCall)) : Prop :=
  ∀ earlier environment call later, events = earlier ++ (environment, call) :: later →
    Permitted table environment (detachedAfter (history initial earlier)) call

section Run

variable {table : HookTable} {depth : ℕ} {memory : ℕ → UInt8}

theorem switched_run (installed : Installed table (fun _ => false) memory)
    (events : List (CallEnvironment × ControllerCall))
    (permitted : PermittedRun table (initial depth memory) events)
    (controller : Controller)
    (alive : detachController.run (.ok (initial depth memory)) events = .ok controller) :
    Installed table (detachedAfter (history (initial depth memory) events))
        controller.memory ∧
      Recorded table (detachedAfter (history (initial depth memory) events))
        controller.records := by
  induction events using reverseRecOn generalizing controller with
  | nil =>
    cases alive
    exact ⟨installed, by rintro hook _ ⟨⟩⟩
  | append_singleton events event ih =>
    rw [Machine.run_append] at alive
    rcases call_alive alive with ⟨before, reply, beforeEq, performed, replyEq⟩
    have permittedBefore : PermittedRun table (initial depth memory) events := by
      intro earlier environment call later split
      exact permitted earlier environment call (later ++ [event]) (by simp [split])
    rcases ih permittedBefore before beforeEq with ⟨installedBefore, recordedBefore⟩
    have settled := settled_run depth memory events before beforeEq
    have stepped := perform_switches installedBefore recordedBefore settled
      (permitted events event.1 event.2 [] rfl) before reply controller rfl performed
    rw [history_append, replyEq, detachedAfter, foldl_append]
    exact ⟨stepped.installed, stepped.recorded⟩

end Run

theorem hooks_round_trip (table : HookTable) (depth : ℕ) (memory : ℕ → UInt8)
    (attached : Installed table (fun _ => false) memory)
    (events : List (CallEnvironment × ControllerCall))
    (permitted : PermittedRun table (initial depth memory) events)
    (controller : Controller)
    (alive : detachController.run (.ok (initial depth memory)) events = .ok controller) :
    (∀ hook ∈ table.hooks, copyBytes controller.memory hook.entry hook.patch.length =
      if detachedAfter (history (initial depth memory) events) hook.id then
        hook.original else hook.patch) ∧
    ∀ environment call reply after,
      Permitted table environment
        (detachedAfter (history (initial depth memory) events)) call →
      detachController.call (.ok controller) (environment, call) = (.ok reply, .ok after) →
      (reply.isTrue = false → ∀ hook ∈ table.hooks,
        copyBytes after.memory hook.entry hook.patch.length =
          copyBytes controller.memory hook.entry hook.patch.length) ∧
      ∀ entry ∈ failedRequests call reply, entry.1.operation = .reattach →
        entry.2.missingPatchRecord = false := by
  rcases switched_run attached events permitted controller alive with ⟨installed, recorded⟩
  refine ⟨installed, ?_⟩
  intro environment call reply after permittedCall called
  have settled := settled_run depth memory events controller alive
  have stepped := perform_switches installed recorded settled permittedCall controller reply after
    rfl (performed_of_call called)
  refine ⟨?_, stepped.notMissing⟩
  intro refused hook _
  rw [stepped.unchanged refused]
  rfl

/-- The context of a hook whose entry was `0x90 0x90`. -/
def hookedContext (entry : ℕ) (nonnull : entry ≠ 0) : GumFunctionContext :=
  { patchedContext entry nonnull with
    overwrittenPrologue := some fun _ => 0x90
    overwrittenPrologueLen := 2 }

def hookAt (id entry : ℕ) : Hook :=
  ⟨id, entry, [0x90, 0x90], [0xcc, 0xcc], by decide, rfl⟩

def twoHooks : HookTable where
  hooks := [hookAt 1 0x3000, hookAt 2 0x5000]
  apart := pairwise_pair.mpr ⟨by decide, .inl (by decide)⟩

def hookedEnvironment : CallEnvironment :=
  { signalEnvironment with
    interceptors := fun _ => [(0x3000, hookedContext 0x3000 (by decide)),
      (0x5000, hookedContext 0x5000 (by decide))] }

/-- The first hook is detached, and reattached by the batch which detaches the second one. -/
def switchEvents : List (CallEnvironment × ControllerCall) :=
  [.prepare ⟨1, 0x3000, 1, 1, .detach, 0, 0⟩, .finish true,
    .prepareBatch [⟨1, 0x3000, 1, 1, .reattach, 0, 0⟩, ⟨2, 0x5000, 1, 1, .detach, 0, 0⟩],
    .finishBatch].map (hookedEnvironment, ·)

theorem requests_hookAt {id entry : ℕ} {nonnull : entry ≠ 0} {detached : Bool}
    {operation : DetachOperation}
    (found : (hookedEnvironment.interceptors 1).findContext entry 1 =
      some (hookedContext entry nonnull))
    (isOperation : operation = if detached then .reattach else .detach) :
    Requests hookedEnvironment (hookAt id entry) detached ⟨id, entry, 1, 1, operation, 0, 0⟩ := by
  refine ⟨rfl, ?_, isOperation⟩
  intro context isContext
  cases found.symm.trans isContext
  exact ⟨rfl, rfl, by rintro prologue ⟨⟩; rfl⟩

theorem switchEvents_permitted :
    PermittedRun twoHooks (initial 0 fun _ => 0xcc) switchEvents := by
  intro earlier environment call later eventsEq
  rcases earlier with _ | ⟨_, _ | ⟨_, _ | ⟨_, _ | ⟨_, _⟩⟩⟩⟩
  · cases eventsEq
    exact ⟨_, mem_cons_self, requests_hookAt rfl rfl⟩
  · cases eventsEq
    trivial
  · cases eventsEq
    refine forall_mem_cons.mpr ⟨?_, forall_mem_singleton.mpr ?_⟩
    · exact ⟨_, mem_cons_self, requests_hookAt rfl (by decide +kernel)⟩
    · exact ⟨_, mem_cons_of_mem _ mem_cons_self, requests_hookAt rfl (by decide +kernel)⟩
  · cases eventsEq
    trivial
  · have tooLong := congrArg length eventsEq
    simp [switchEvents] at tooLong

theorem hooks_round_trip_switched : ∃ controller,
    detachController.run (.ok (initial 0 fun _ => 0xcc)) switchEvents = .ok controller ∧
      copyBytes controller.memory 0x3000 2 = [0xcc, 0xcc] ∧
      copyBytes controller.memory 0x5000 2 = [0x90, 0x90] := by
  have survives : (detachController.run (.ok (initial 0 fun _ => 0xcc))
      switchEvents).isOk = true := by
    decide +kernel
  have detached : [1, 2].map (detachedAfter
      (history (initial 0 fun _ => 0xcc) switchEvents)) = [false, true] := by
    decide +kernel
  cases alive : detachController.run (.ok (initial 0 fun _ => 0xcc)) switchEvents with
  | error =>
    rw [alive] at survives
    cases survives
  | ok controller =>
    have attached : Installed twoHooks (fun _ => false) fun _ => 0xcc := by
      simp only [Installed, twoHooks, forall_mem_cons]
      exact ⟨rfl, rfl, by simp⟩
    have entries := (hooks_round_trip twoHooks 0 (fun _ => 0xcc) attached switchEvents
      switchEvents_permitted controller alive).1
    simp only [map_cons, map_nil, cons.injEq] at detached
    simp only [twoHooks, hookAt, forall_mem_cons, detached] at entries
    exact ⟨controller, rfl, entries.1, entries.2.1⟩

end Peak
