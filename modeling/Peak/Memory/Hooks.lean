import Peak.Memory.Tracking

/-!
# The allocation hooks

The hooks of `src/malloc_interceptor.c` call the original functions. What the allocator answers is
part of a call. The blocks in use are kept beside the tracking state, each with the fact whether the
application wanted it to be tracked.
-/

namespace Peak.Memory

def enomem : ℕ := 12

inductive HookEntry where
  | recursive
  | tracking
  | forwarding
deriving DecidableEq

inductive ReallocOutcome where
  | moved (pointer : ℕ)
  | failed
  | released

def ReallocOutcome.result : ReallocOutcome → ℕ
  | .moved pointer => pointer
  | .failed => 0
  | .released => 0

/-- A call of a hook with the answer of the allocator. The pointer `0` is `NULL`. -/
inductive AllocationCall where
  | malloc (size result : ℕ)
  | calloc (count size result : ℕ)
  | alignedAlloc (alignment size result : ℕ)
  | posixMemalign (alignment size status result : ℕ)
  | realloc (pointer size : ℕ) (outcome : ReallocOutcome) (errno : ℕ)
  | free (pointer : ℕ)

namespace Tracking

variable (tracking : Tracking) (env : HookEnv)

def mallocHookEnter : HookEntry :=
  if env.inHook then .recursive
  else if tracking.cleanup then .forwarding
  else .tracking

def trackResult (size result : ℕ) : Tracking :=
  if tracking.mallocHookEnter env ≠ .tracking then tracking
  else if result = 0 then tracking
  else tracking.addTrackingEntry env result size

def customMalloc (size result : ℕ) : Tracking :=
  tracking.trackResult env size result

def customCalloc (count size result : ℕ) : Tracking :=
  if tracking.mallocHookEnter env ≠ .tracking then tracking
  else if size ≠ 0 ∧ sizeMax / size < count then tracking
  else tracking.trackResult env (count * size % wordValues) result

def customAlignedAlloc (_alignment size result : ℕ) : Tracking :=
  tracking.trackResult env size result

def customPosixMemalign (_alignment size status result : ℕ) : Tracking :=
  if status ≠ 0 then tracking else tracking.trackResult env size result

def customFree (pointer : ℕ) : Tracking :=
  if pointer = 0 then
    tracking
  else if tracking.mallocHookEnter env ≠ .tracking then
    tracking
  else
    match tracking.detachTrackingEntry env pointer with
    | (tracking, none) => tracking
    | (tracking, some (size, transition)) => tracking.publishRemovedEntry env size transition

/-- The part of `custom_realloc` after the allocator has succeeded. -/
def finishRealloc (tracked : Option (ℕ × Transition)) (size result : ℕ) : Tracking :=
  match tracked with
  | none => if result = 0 then tracking else tracking.addTrackingEntry env result size
  | some (oldSize, removeTransition) =>
    let tracking := tracking.publishRemovedEntry env oldSize removeTransition
    if result = 0 then
      tracking
    else
      match tracking.commitReallocatedEntry env result size with
      | (tracking, none) => tracking
      | (tracking, some addTransition) =>
        tracking.publish env .add (sizeToEventDelta size) addTransition

/-- The last arguments are the returned pointer and `errno` after the original function. -/
def customRealloc (pointer size result errno : ℕ) : Tracking :=
  if tracking.mallocHookEnter env ≠ .tracking then
    tracking
  else if pointer = 0 then
    tracking.trackResult env size result
  else
    let detached := tracking.detachTrackingEntry env pointer
    if result = 0 ∧ (size ≠ 0 ∨ errno = enomem) then
      match detached.2 with
      | none => detached.1
      | some (oldSize, _) => detached.1.restoreTrackingEntry env pointer oldSize
    else
      detached.1.finishRealloc env detached.2 size result

def hook : AllocationCall → Tracking
  | .malloc size result => tracking.customMalloc env size result
  | .calloc count size result => tracking.customCalloc env count size result
  | .alignedAlloc alignment size result => tracking.customAlignedAlloc env alignment size result
  | .posixMemalign alignment size status result =>
    tracking.customPosixMemalign env alignment size status result
  | .realloc pointer size outcome errno =>
    tracking.customRealloc env pointer size outcome.result errno
  | .free pointer => tracking.customFree env pointer

end Tracking

/-- A block of the application, tracked or not. -/
structure Block where
  pointer : ℕ
  size : ℕ
  tracked : Bool
deriving DecidableEq

def eraseBlock (pointer : ℕ) (blocks : List Block) : List Block :=
  blocks.filter fun block => block.pointer ≠ pointer

def addBlock (size result : ℕ) (tracked : Bool) (blocks : List Block) : List Block :=
  if result = 0 then blocks else ⟨result, size, tracked⟩ :: blocks

def isTracked (pointer : ℕ) (blocks : List Block) : Bool :=
  blocks.any fun block => block.pointer = pointer ∧ block.tracked

/-- The blocks in use after a call. A block which replaces a tracked one is tracked. -/
def blocksAfter (selected : Bool) (blocks : List Block) : AllocationCall → List Block
  | .malloc size result => addBlock size result selected blocks
  | .calloc count size result =>
    if size ≠ 0 ∧ sizeMax / size < count then blocks
    else addBlock (count * size) result selected blocks
  | .alignedAlloc _ size result => addBlock size result selected blocks
  | .posixMemalign _ size status result =>
    if status ≠ 0 then blocks else addBlock size result selected blocks
  | .realloc pointer size outcome _ =>
    match outcome with
    | .moved result =>
      addBlock size result (isTracked pointer blocks || selected) (eraseBlock pointer blocks)
    | .failed => blocks
    | .released => eraseBlock pointer blocks
  | .free pointer => eraseBlock pointer blocks

def Block.Apart (first second : Block) : Prop :=
  first.pointer ≠ second.pointer ∧
    (first.pointer + first.size ≤ second.pointer ∨ second.pointer + second.size ≤ first.pointer)
deriving Decidable

def Block.Addressable (block : Block) : Prop :=
  block.pointer ≠ 0 ∧ block.pointer + block.size < wordValues
deriving Decidable

/-- The allocator returned `NULL`, or a block which overlaps no block that is in use. -/
def Fresh (blocks : List Block) (size result : ℕ) : Prop :=
  result = 0 ∨ ((⟨result, size, false⟩ : Block).Addressable ∧
    ∀ block ∈ blocks, (⟨result, size, false⟩ : Block).Apart block)
deriving Decidable

/-- What is expected of the allocator. A size of zero releases the block, fails with `ENOMEM`, or
returns a block; without a block to release it may return `NULL` with any `errno`. Pointers are
words. -/
def WellBehaved (blocks : List Block) : AllocationCall → Prop
  | .malloc size result => Fresh blocks size result
  | .calloc count size result => Fresh blocks (count * size) result
  | .alignedAlloc _ size result => Fresh blocks size result
  | .posixMemalign _ size status result => status = 0 → Fresh blocks size result
  | .realloc pointer size outcome errno =>
    pointer < wordValues ∧
      match outcome with
      | .moved result => result ≠ 0 ∧ Fresh (eraseBlock pointer blocks) size result
      | .failed => pointer ≠ 0 → size = 0 → errno = enomem
      | .released => pointer ≠ 0 ∧ size = 0 ∧ errno ≠ enomem
  | .free pointer => pointer < wordValues

instance (blocks : List Block) (call : AllocationCall) : Decidable (WellBehaved blocks call) := by
  unfold WellBehaved
  split <;> (try split) <;> infer_instance

/-- The profiler and the blocks of the application. -/
structure Process where
  tracking : Tracking
  blocks : List Block

namespace Process

def step (process : Process) (call : HookEnv × AllocationCall) : Process :=
  ⟨process.tracking.hook call.1 call.2, blocksAfter call.1.selected process.blocks call.2⟩

def run (process : Process) (calls : List (HookEnv × AllocationCall)) : Process :=
  calls.foldl step process

/-- The application makes the calls while the hooks are installed; the allocator is well behaved and
there are always nodes. -/
def Behaves (process : Process) : List (HookEnv × AllocationCall) → Prop
  | [] => True
  | call :: calls =>
    (call.1.inHook = false ∧ ∀ level, call.1.available level) ∧
      WellBehaved process.blocks call.2 ∧ (process.step call).Behaves calls

/-- The hooks are installed with empty tables, and with a log that was opened before. -/
def attach (log : MemLog) (blocks : List Block) : Process :=
  { tracking :=
      { tablesActive := true
        cleanup := false
        root := .inner fun _ => .absent
        shards := fun _ => ⟨0, 0⟩
        fallback := 0
        maximum := 0
        log := log }
    blocks := blocks }

end Process

end Peak.Memory
