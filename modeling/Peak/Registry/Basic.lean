import Peak.Common.CircularWindow
import Peak.Common.Machine

/-!
# The pthread slot registry

The registry of `src/pthread_slot_registry.c` hands out per-thread slots. Every public function
holds its mutex from the first read to the last write, so it is one transition. The fixed arrays are
total functions which are only read below the capacity. Thread identifiers form an arbitrary type
with decidable equality (`pthread_equal`), and `memset` assigns default values. Generations are
64-bit counters; the other counters are bounded by the capacity.
-/

namespace Peak

universe u

def maxCapacity : ℕ := 4096

/-- `PeakPthreadSlotToken`: a slot together with the generation it was issued under. -/
structure SlotToken where
  slot : ℕ
  generation : ℕ
deriving DecidableEq

structure DetachedCandidate where
  token : SlotToken
  kernelTid : ℤ
deriving DecidableEq

/-- `PeakPthreadSlotRegistryEntry`. -/
structure SlotEntry (Tid : Type u) where
  tid : Tid
  token : SlotToken
  kernelTid : ℤ
  occupied : Bool
  detached : Bool
  finalDestructorPass : Bool
  exitPending : Bool
  retiring : Bool

/-- `PeakPthreadSlotRegistry`, without its mutex. -/
structure SlotRegistry (Tid : Type u) where
  entries : ℕ → SlotEntry Tid
  reusable : ℕ → ℕ
  reusableHead : ℕ
  reusableCount : ℕ
  nextSlot : ℕ
  capacity : ℕ
  reclaimCursor : ℕ
  exitPendingCount : ℕ
  maxExitPendingCount : ℕ
  nextGeneration : ℕ
  initialized : Bool

inductive RegistryCall (Tid : Type u) where
  | reserveInsert (tid : Tid)
  | compareRemove (tid : Tid) (generation : ℕ) (reusable : Bool)
  | compareRemoveToken (token : SlotToken) (reusable : Bool)
  | beginRetire (token : SlotToken)
  | completeRetire (token : SlotToken) (reusable : Bool)
  | deferRetire (token : SlotToken)
  | markKernelTid (token : SlotToken) (kernelTid : ℤ)
  | markDetached (tid : Tid) (generation : ℕ)
  | markFinalDestructor (token : SlotToken)
  | snapshotExitPending (budget : ℕ)
  | quarantine (tid : Tid)

inductive RegistryReply where
  | reserved (token : Option SlotToken)
  | done (ok : Bool)
  | marked (ok becameExitPending : Bool)
  | candidates (found : List DetachedCandidate) (examined : ℕ)
deriving DecidableEq

namespace SlotEntry

variable {Tid : Type u} [Inhabited Tid]

def zero : SlotEntry Tid where
  tid := default
  token := ⟨0, 0⟩
  kernelTid := 0
  occupied := false
  detached := false
  finalDestructorPass := false
  exitPending := false
  retiring := false

end SlotEntry

namespace SlotRegistry

variable {Tid : Type u} [DecidableEq Tid]

/-- The slots waiting in the reusable ring, next to be handed out first. -/
def reusableWindow (registry : SlotRegistry Tid) : List ℕ :=
  circularWindow registry.reusable registry.reusableHead registry.reusableCount registry.capacity

def setEntry (registry : SlotRegistry Tid) (index : ℕ) (entry : SlotEntry Tid) :
    SlotRegistry Tid :=
  { registry with entries := Function.update registry.entries index entry }

/-- `find_unlocked`: the first occupied entry of a thread. -/
def findUnlocked (registry : SlotRegistry Tid) (tid : Tid) : Option ℕ :=
  (List.range registry.capacity).find? fun index =>
    (registry.entries index).occupied && decide ((registry.entries index).tid = tid)

/-- `find_token_unlocked`: the entry of a slot, if it is still of the token's generation. -/
def findTokenUnlocked (registry : SlotRegistry Tid) (token : SlotToken) : Option ℕ :=
  if registry.capacity ≤ token.slot then
    none
  else if !(registry.entries token.slot).occupied ||
      (registry.entries token.slot).token.generation != token.generation then
    none
  else
    some token.slot

def discardUnlocked (registry : SlotRegistry Tid) (index : ℕ) : SlotRegistry Tid :=
  let entry := registry.entries index
  let counted :=
    if entry.exitPending && registry.exitPendingCount != 0 then
      { registry with exitPendingCount := registry.exitPendingCount - 1 }
    else
      registry
  counted.setEntry index
    { entry with
      occupied := false, detached := false, finalDestructorPass := false,
      exitPending := false, retiring := false, kernelTid := 0 }

def updateExitPendingUnlocked (registry : SlotRegistry Tid) (index : ℕ) : Bool × SlotRegistry Tid :=
  let entry := registry.entries index
  if entry.exitPending || entry.retiring || !entry.detached ||
      !entry.finalDestructorPass || entry.kernelTid ≤ 0 then
    (false, registry)
  else
    let pending := registry.setEntry index { entry with exitPending := true }
    (true,
      { pending with
        exitPendingCount := registry.exitPendingCount + 1
        maxExitPendingCount := max registry.maxExitPendingCount (registry.exitPendingCount + 1) })

def enqueueReusableUnlocked (registry : SlotRegistry Tid) (slot : ℕ) : SlotRegistry Tid :=
  let reusableTail := (registry.reusableHead + registry.reusableCount) % registry.capacity
  { registry with
    reusable := Function.update registry.reusable reusableTail slot
    reusableCount := registry.reusableCount + 1 }

def empty [Inhabited Tid] (capacity : ℕ) : SlotRegistry Tid where
  entries := fun _ => SlotEntry.zero
  reusable := fun _ => 0
  reusableHead := 0
  reusableCount := 0
  nextSlot := 0
  capacity := capacity
  reclaimCursor := 0
  exitPendingCount := 0
  maxExitPendingCount := 0
  nextGeneration := 0
  initialized := true

/-- `init`. The mutex initialisation may fail. -/
def init [Inhabited Tid] (capacity : ℕ) (mutexReady : Bool) : Option (SlotRegistry Tid) :=
  if maxCapacity < capacity || !mutexReady then none else some (empty capacity)

/-- The slot selection of `reserve_insert`: the ring before the bump allocator. -/
def takeSlot (registry : SlotRegistry Tid) : Option (ℕ × SlotRegistry Tid) :=
  if registry.reusableCount ≠ 0 then
    some
      (registry.reusable registry.reusableHead,
        { registry with
          reusableHead := (registry.reusableHead + 1) % registry.capacity
          reusableCount := registry.reusableCount - 1 })
  else if registry.nextSlot < registry.capacity then
    some (registry.nextSlot, { registry with nextSlot := registry.nextSlot + 1 })
  else
    none

/-- The generation following `generation`, skipping zero on 64-bit overflow. -/
def issueGeneration (generation : ℕ) : ℕ :=
  let issued := (generation + 1) % 2 ^ 64
  if issued = 0 then (issued + 1) % 2 ^ 64 else issued

def discardOld (registry : SlotRegistry Tid) : Option ℕ → SlotRegistry Tid
  | some index => registry.discardUnlocked index
  | none => registry

/-- The initialisation of a freshly taken entry by `reserve_insert`. -/
def occupy [Inhabited Tid] (registry : SlotRegistry Tid) (slot : ℕ) (tid : Tid) :
    SlotRegistry Tid :=
  let generation := issueGeneration registry.nextGeneration
  { registry.setEntry slot
      { (SlotEntry.zero : SlotEntry Tid) with
        tid := tid, token := ⟨slot, generation⟩, occupied := true } with
    nextGeneration := generation }

/-- `reserve_insert`. A new thread may carry the identifier of one that was not joined; the
ambiguous mapping is dropped, never recycled. -/
def reserveInsert [Inhabited Tid] (registry : SlotRegistry Tid) (tid : Tid) :
    Option SlotToken × SlotRegistry Tid :=
  if !registry.initialized then
    (none, registry)
  else
    let oldEntry := registry.findUnlocked tid
    match registry.takeSlot with
    | none => (none, registry.discardOld oldEntry)
    | some (slot, taken) =>
      let occupied := (taken.discardOld oldEntry).occupy slot tid
      (some (occupied.entries slot).token, occupied)

def capture (registry : SlotRegistry Tid) (tid : Tid) : Option SlotToken :=
  if !registry.initialized then
    none
  else
    match registry.findUnlocked tid with
    | some index =>
      if (registry.entries index).retiring then none
      else some (registry.entries index).token
    | none => none

/-- The common tail of the removals: recycle the slot if allowed, then discard. -/
def removeEntry (registry : SlotRegistry Tid) (index : ℕ) (reusable : Bool) :
    SlotRegistry Tid :=
  if reusable then
    (registry.enqueueReusableUnlocked (registry.entries index).token.slot).discardUnlocked index
  else
    registry.discardUnlocked index

def compareRemove (registry : SlotRegistry Tid) (tid : Tid) (generation : ℕ)
    (reusable : Bool) : Bool × SlotRegistry Tid :=
  if !registry.initialized then
    (false, registry)
  else
    match registry.findUnlocked tid with
    | none => (false, registry)
    | some index =>
      if (registry.entries index).retiring ||
          (registry.entries index).token.generation != generation then
        (false, registry)
      else
        (true, registry.removeEntry index reusable)

def compareRemoveToken (registry : SlotRegistry Tid) (token : SlotToken)
    (reusable : Bool) : Bool × SlotRegistry Tid :=
  if !registry.initialized then
    (false, registry)
  else
    match registry.findTokenUnlocked token with
    | none => (false, registry)
    | some index =>
      if (registry.entries index).retiring then (false, registry)
      else (true, registry.removeEntry index reusable)

def beginRetire (registry : SlotRegistry Tid) (token : SlotToken) : Bool × SlotRegistry Tid :=
  if !registry.initialized then
    (false, registry)
  else
    match registry.findTokenUnlocked token with
    | none => (false, registry)
    | some index =>
      if (registry.entries index).retiring then (false, registry)
      else (true, registry.setEntry index { registry.entries index with retiring := true })

def completeRetire (registry : SlotRegistry Tid) (token : SlotToken)
    (reusable : Bool) : Bool × SlotRegistry Tid :=
  if !registry.initialized then
    (false, registry)
  else
    match registry.findTokenUnlocked token with
    | none => (false, registry)
    | some index =>
      if !(registry.entries index).retiring then (false, registry)
      else (true, registry.removeEntry index reusable)

def deferRetire (registry : SlotRegistry Tid) (token : SlotToken) : Bool × SlotRegistry Tid :=
  if !registry.initialized then
    (false, registry)
  else
    match registry.findTokenUnlocked token with
    | none => (false, registry)
    | some index =>
      if !(registry.entries index).retiring then (false, registry)
      else (true, registry.setEntry index { registry.entries index with retiring := false })

def markKernelTid (registry : SlotRegistry Tid) (token : SlotToken) (kernelTid : ℤ) :
    Bool × SlotRegistry Tid :=
  if !registry.initialized || kernelTid ≤ 0 then
    (false, registry)
  else
    match registry.findTokenUnlocked token with
    | none => (false, registry)
    | some index =>
      (true,
        ((registry.setEntry index
          { registry.entries index with kernelTid := kernelTid }).updateExitPendingUnlocked
            index).2)

/-- `mark_detached`, with `*became_exit_pending`. -/
def markDetached (registry : SlotRegistry Tid) (tid : Tid) (generation : ℕ) :
    Bool × Bool × SlotRegistry Tid :=
  if !registry.initialized then
    (false, false, registry)
  else
    match registry.findUnlocked tid with
    | none => (false, false, registry)
    | some index =>
      if (registry.entries index).token.generation != generation then
        (false, false, registry)
      else
        (true,
          (registry.setEntry index
            { registry.entries index with detached := true }).updateExitPendingUnlocked index)

/-- `mark_final_destructor`, with `*became_exit_pending`. -/
def markFinalDestructor (registry : SlotRegistry Tid) (token : SlotToken) :
    Bool × Bool × SlotRegistry Tid :=
  if !registry.initialized then
    (false, false, registry)
  else
    match registry.findTokenUnlocked token with
    | none => (false, false, registry)
    | some index =>
      (true,
        (registry.setEntry index
          { registry.entries index with
            finalDestructorPass := true }).updateExitPendingUnlocked index)

/-- `snapshot_exit_pending`: scan at most `budget` entries from the reclaim cursor. -/
def snapshotExitPending (registry : SlotRegistry Tid) (budget : ℕ) :
    (List DetachedCandidate × ℕ) × SlotRegistry Tid :=
  if !registry.initialized || budget == 0 || registry.capacity == 0 then
    (([], 0), registry)
  else
    let limit := min budget registry.capacity
    let found := (List.range limit).filterMap fun examined =>
      let entry := registry.entries ((registry.reclaimCursor + examined) % registry.capacity)
      if entry.occupied && entry.exitPending && !entry.retiring then
        some ⟨entry.token, entry.kernelTid⟩
      else
        none
    ((found, limit),
      { registry with
        reclaimCursor := (registry.reclaimCursor + limit) % registry.capacity })

def quarantine (registry : SlotRegistry Tid) (tid : Tid) : Bool × SlotRegistry Tid :=
  if !registry.initialized then
    (false, registry)
  else
    match registry.findUnlocked tid with
    | none => (false, registry)
    | some index => (true, registry.discardUnlocked index)

/-- The registry as an object answering `RegistryCall`s. -/
def machine [Inhabited Tid] : Machine (SlotRegistry Tid) (RegistryCall Tid) RegistryReply where
  call registry
    | .reserveInsert tid =>
      let (token, after) := registry.reserveInsert tid
      (.reserved token, after)
    | .compareRemove tid generation reusable =>
      let (ok, after) := registry.compareRemove tid generation reusable
      (.done ok, after)
    | .compareRemoveToken token reusable =>
      let (ok, after) := registry.compareRemoveToken token reusable
      (.done ok, after)
    | .beginRetire token =>
      let (ok, after) := registry.beginRetire token
      (.done ok, after)
    | .completeRetire token reusable =>
      let (ok, after) := registry.completeRetire token reusable
      (.done ok, after)
    | .deferRetire token =>
      let (ok, after) := registry.deferRetire token
      (.done ok, after)
    | .markKernelTid token kernelTid =>
      let (ok, after) := registry.markKernelTid token kernelTid
      (.done ok, after)
    | .markDetached tid generation =>
      let (ok, becameExitPending, after) := registry.markDetached tid generation
      (.marked ok becameExitPending, after)
    | .markFinalDestructor token =>
      let (ok, becameExitPending, after) := registry.markFinalDestructor token
      (.marked ok becameExitPending, after)
    | .snapshotExitPending budget =>
      let ((found, examined), after) := registry.snapshotExitPending budget
      (.candidates found examined, after)
    | .quarantine tid =>
      let (ok, after) := registry.quarantine tid
      (.done ok, after)

end SlotRegistry

end Peak
