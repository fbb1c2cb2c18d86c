import Mathlib.Algebra.Group.Nat.Defs
import Mathlib.Data.Nat.Basic

/-!
# Data of the detach controller

The types of `include/detach_controller.h`, `include/detach_helper_protocol.h` and
`cmake/peak-gum/frida-gum-peak-api.h` which the planning of a code mutation reads. Addresses and
sizes are natural numbers, the null pointer is `0`, and sums on `uintptr_t` are taken modulo
`2 ^ 64`. A patch is the list of its bytes, which has the size stored next to a buffer as its
length.
-/

namespace Peak

def maxThreads : ℕ := 4096

def maxInstructions : ℕ := maxThreads + 64

def maxPatchBytes : ℕ := 32

def maxPrologueSize : ℕ := 32

def maxBatchRequests : ℕ := 64

inductive DetachOperation where
  | attach
  | detach
  | reattach
  | shutdown
  | replace
  | revert
deriving DecidableEq

inductive DetachStatus where
  | safe
  | compatibilityAllowed
  | disabled
  | unsupported
  | missingGumApi
  | permissionDenied
  | timeout
  | classifyFailed
  | error
  | filesystemStatBusy
deriving DecidableEq

inductive HoldBackend where
  | none
  | helper
  | signal
deriving DecidableEq

/-- `PeakDetachRequest`, without the symbol name, which is only printed. -/
structure DetachRequest where
  hookId : ℕ
  functionAddress : ℕ
  interceptor : ℕ
  listener : ℕ
  operation : DetachOperation
  blockedPcStart : ℕ
  blockedPcSize : ℕ

structure FailureDetail where
  reason : String
  tid : ℤ
  pc : ℕ
  aux : ℕ

/-- The result of a failed planning step: `*status_out`, and the failure detail if one
is noted. -/
structure PlanFailure where
  status : DetachStatus
  detail : Option FailureDetail

inductive Instruction where
  | setPc (tid : ℤ) (pc : ℕ)
  | writeMemory (address : ℕ) (bytes : List UInt8)
  | singleStepOutOfRange (tid : ℤ) (address size : ℕ)
deriving DecidableEq

inductive ThreadStatus where
  | ok
  | attachFailed
  | waitFailed
  | getRegsFailed
deriving DecidableEq

structure ThreadSnapshot where
  tid : ℤ
  status : ThreadStatus
  pc : ℕ
deriving DecidableEq

structure HeldMutation where
  active : Bool
  usesPhysicalPatch : Bool
  mutatesEntryBytes : Bool
  mutatesGumMetadata : Bool
  freesListenerState : Bool
  requiresTargetEntryIdle : Bool
  operation : DetachOperation
  backend : HoldBackend
  instructions : List Instruction

def HeldMutation.zero : HeldMutation where
  active := false
  usesPhysicalPatch := false
  mutatesEntryBytes := false
  mutatesGumMetadata := false
  freesListenerState := false
  requiresTargetEntryIdle := false
  operation := .attach
  backend := .none
  instructions := []

structure PatchRecord where
  used : Bool
  hookId : ℕ
  functionAddress : ℕ
  activePatch : List UInt8

def PatchRecord.zero : PatchRecord where
  used := false
  hookId := 0
  functionAddress := 0
  activePatch := []

/-- `PEAK_DETACH_MAX_PHYSICAL_PATCH_RECORDS`. -/
def maxPatchRecords : ℕ := 8192

inductive PcState where
  | safe
  | atPatchEntry
  | inEnterTrampoline
  | inInvokeTrampoline
  | inLeaveTrampoline
  | inDispatch
  | unknown
deriving DecidableEq

structure CodeRange where
  start : ℕ
  size : ℕ

structure PcDiagnostics where
  functionAddress : ℕ
  overwrittenPrologueLen : ℕ
  trampolineSlice : CodeRange
  onEnterTrampoline : ℕ
  onLeaveTrampoline : ℕ
  onInvokeTrampoline : ℕ
  enterThunk : CodeRange
  leaveThunk : CodeRange
  fastOverlayDispatch : CodeRange
  fastListenerDispatch : CodeRange

def PcDiagnostics.zero : PcDiagnostics where
  functionAddress := 0
  overwrittenPrologueLen := 0
  trampolineSlice := ⟨0, 0⟩
  onEnterTrampoline := 0
  onLeaveTrampoline := 0
  onInvokeTrampoline := 0
  enterThunk := ⟨0, 0⟩
  leaveThunk := ⟨0, 0⟩
  fastOverlayDispatch := ⟨0, 0⟩
  fastListenerDispatch := ⟨0, 0⟩

/-- The active patch and the original prologue of a function, of one length. -/
structure GumPatch where
  activePatch : List UInt8
  originalPrologue : List UInt8
  sameLength : activePatch.length = originalPrologue.length

/-- `PeakDetachGumSnapshot`; `patch` is present iff `has_patch` is set. -/
structure GumSnapshot where
  hasContext : Bool
  diagnostics : PcDiagnostics
  patch : Option GumPatch

def GumSnapshot.zero : GumSnapshot where
  hasContext := false
  diagnostics := PcDiagnostics.zero
  patch := none

/-- The part of a Gum function context that the inspection functions read. Its function is not null.
-/
structure GumFunctionContext where
  functionAddress : ℕ
  functionAddress_ne_null : functionAddress ≠ 0
  destroyed : Bool
  activated : Bool
  listeners : List ℕ
  overwrittenPrologue : Option (ℕ → UInt8)
  overwrittenPrologueLen : ℕ
  trampolineSlice : Option CodeRange
  onEnterTrampoline : ℕ
  onLeaveTrampoline : ℕ
  onInvokeTrampoline : ℕ
  enterThunk : CodeRange
  leaveThunk : CodeRange
  fastOverlayDispatch : CodeRange
  fastListenerDispatch : Option CodeRange

/-- The function contexts of an interceptor, in the order of their hash table. -/
abbrev GumInterceptor := List (ℕ × GumFunctionContext)

namespace GumInterceptor

/-- `peak_gum_context_is_usable` and `peak_gum_context_has_listener`. -/
def serves (context : GumFunctionContext) (listener : ℕ) : Bool :=
  !context.destroyed && context.activated && (listener == 0 || context.listeners.contains listener)

/-- `peak_gum_find_context_by_listener`: the only usable context of the listener. -/
def findContextByListener (interceptor : GumInterceptor) (listener : ℕ) :
    Option GumFunctionContext :=
  if listener = 0 then
    none
  else
    match (interceptor.map Prod.snd).filter (serves · listener) with
    | [context] => some context
    | _ => none

def findContext (interceptor : GumInterceptor) (functionAddress listener : ℕ) :
    Option GumFunctionContext :=
  if functionAddress = 0 then
    none
  else
    match interceptor.lookup functionAddress with
    | some context =>
      if serves context listener then some context
      else findContextByListener interceptor listener
    | none => findContextByListener interceptor listener

def peakGetPcDiagnostics (interceptor : GumInterceptor) (functionAddress listener : ℕ) :
    Option PcDiagnostics :=
  (findContext interceptor functionAddress listener).map fun context =>
    { functionAddress := context.functionAddress
      overwrittenPrologueLen := context.overwrittenPrologueLen
      trampolineSlice := context.trampolineSlice.getD ⟨0, 0⟩
      onEnterTrampoline := context.onEnterTrampoline
      onLeaveTrampoline := context.onLeaveTrampoline
      onInvokeTrampoline := context.onInvokeTrampoline
      enterThunk := context.enterThunk
      leaveThunk := context.leaveThunk
      fastOverlayDispatch := context.fastOverlayDispatch
      fastListenerDispatch := context.fastListenerDispatch.getD ⟨0, 0⟩ }

end GumInterceptor

/-- The bytes copied by `memcpy` from a memory region. -/
def copyBytes (memory : ℕ → UInt8) (address size : ℕ) : List UInt8 :=
  (List.range size).map fun offset => memory (address + offset)

@[simp]
theorem length_copyBytes (memory : ℕ → UInt8) (address size : ℕ) :
    (copyBytes memory address size).length = size := by
  simp [copyBytes]

/-- `gum_interceptor_peak_get_function_patch`, reading the active patch from the code. -/
def GumInterceptor.peakGetFunctionPatch (interceptor : GumInterceptor)
    (memory : ℕ → UInt8) (functionAddress listener : ℕ) : Option GumPatch :=
  match findContext interceptor functionAddress listener with
  | none => none
  | some context =>
    if context.overwrittenPrologueLen = 0 ∨ maxPrologueSize < context.overwrittenPrologueLen then
      none
    else
      match context.overwrittenPrologue with
      | none => none
      | some prologue =>
        some
          { activePatch :=
              copyBytes memory context.functionAddress context.overwrittenPrologueLen
            originalPrologue := copyBytes prologue 0 context.overwrittenPrologueLen
            sameLength := by simp }

end Peak
