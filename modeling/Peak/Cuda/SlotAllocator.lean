import Mathlib.Algebra.BigOperators.Group.Finset.Basic
import Peak.Common.LinkedStack
import Peak.Common.Probing

/-!
# The allocator of CUDA event slots

A slot is handed out for a context and a shard, from the free list of the two, which is linked
through the slots, or from a counter. A generation is counted in every slot, so that a lease that is
returned twice is recognised.

The operations of `src/cuda_profiler_state.cpp` are executed one after the other. The count of
leases in the middle of a release is zero between two of them.
-/

namespace Peak.Cuda

open Function

def shardCount : ℕ := 256

/-- `kInvalidSlotIndex`, which is not a slot. -/
def invalidSlotIndex : ℕ := 2 ^ 32 - 1

def wordCount : ℕ := 2 ^ 64

def increment (count : ℕ) : ℕ := (count + 1) % wordCount

def decrement (count : ℕ) : ℕ := (count + (wordCount - 1)) % wordCount

inductive SlotState where
  | unassigned
  | leased
  | free
deriving DecidableEq

/-- A slot in the hands of a client. -/
structure SlotLease where
  index : ℕ
  generation : ℕ
  context : ℕ
  shard : ℕ
deriving DecidableEq

structure Slot where
  nextFree : Option ℕ
  generation : ℕ
  context : ℕ
  shard : ℕ
  state : SlotState

/-- The head of a free list, with its ABA tag. -/
structure FreeHead where
  index : Option ℕ
  tag : ℕ

structure CounterShard where
  active : ℕ
  highWater : ℕ

/-- `PeakCudaSlotAllocator`. The free lists are numbered by context and shard. -/
structure SlotAllocator where
  capacity : ℕ
  contextCapacity : ℕ
  nextUnassigned : ℕ
  assignedSlots : ℕ
  contextCount : ℕ
  generationSeed : ℕ
  slots : ℕ → Slot
  contexts : ℕ → ℕ
  freeHeads : ℕ → ℕ → FreeHead
  counters : ℕ → CounterShard

namespace SlotAllocator

variable (hash : ℕ → ℕ) (pool : SlotAllocator)

/-- The state after `reset`, where the seed is the one before. -/
def fresh (seed capacity : ℕ) : SlotAllocator :=
  let capacity := if invalidSlotIndex ≤ capacity then invalidSlotIndex - 1 else capacity
  let seed := (seed + 2 ^ 32) % wordCount
  { capacity := capacity
    contextCapacity := min capacity shardCount
    nextUnassigned := 0
    assignedSlots := 0
    contextCount := 0
    generationSeed := seed
    slots := fun _ => ⟨none, seed, 0, 0, .unassigned⟩
    contexts := fun _ => 0
    freeHeads := fun _ _ => ⟨none, 0⟩
    counters := fun _ => ⟨0, 0⟩ }

def reset (capacity : ℕ) : SlotAllocator :=
  fresh pool.generationSeed capacity

def create (capacity : ℕ) : SlotAllocator :=
  fresh 0 capacity

def probeOrder (context : ℕ) : List ℕ :=
  (List.range pool.contextCapacity).map fun offset =>
    (hash context % pool.contextCapacity + offset) % pool.contextCapacity

def findOrClaimContext (context : ℕ) : SlotAllocator × Option ℕ :=
  match Probing.claim 0 pool.contexts context (pool.probeOrder hash context) with
  | none => (pool, none)
  | some index =>
    if pool.contexts index = context then
      (pool, some index)
    else
      ({ pool with
          contexts := update pool.contexts index context
          contextCount := increment pool.contextCount },
        some index)

def contextIndex (context : ℕ) : Option ℕ :=
  if context = 0 then none
  else Probing.find 0 pool.contexts context (pool.probeOrder hash context)

def updateSlot (index : ℕ) (change : Slot → Slot) : SlotAllocator :=
  { pool with slots := update pool.slots index (change (pool.slots index)) }

def setHead (bucket shard : ℕ) (head : Option ℕ) : SlotAllocator :=
  { pool with
    freeHeads := update pool.freeHeads bucket
      (update (pool.freeHeads bucket) shard
        ⟨head, ((pool.freeHeads bucket shard).tag + 1) % 2 ^ 32⟩) }

def recordActiveAcquire (shard : ℕ) : SlotAllocator :=
  let active := increment (pool.counters shard).active
  { pool with
    counters := update pool.counters shard
      ⟨active, max (pool.counters shard).highWater active⟩ }

def recordRelease (shard : ℕ) : SlotAllocator :=
  { pool with
    counters := update pool.counters shard
      { pool.counters shard with active := decrement (pool.counters shard).active } }

def popFree (bucket shard : ℕ) : SlotAllocator × Option SlotLease :=
  match (pool.freeHeads bucket shard).index with
  | none => (pool, none)
  | some index =>
    let pool := pool.setHead bucket shard (pool.slots index).nextFree
    if (pool.slots index).state ≠ .free then
      (pool, none)
    else
      let pool := pool.updateSlot index fun slot =>
        { slot with
          state := .leased
          generation := increment slot.generation }
      let slot := pool.slots index
      (pool.recordActiveAcquire slot.shard, some ⟨index, slot.generation, slot.context, slot.shard⟩)

def pushFree (bucket shard index : ℕ) : SlotAllocator :=
  (pool.updateSlot index fun slot =>
    { slot with nextFree := (pool.freeHeads bucket shard).index }).setHead bucket shard (some index)

def reserveUnassigned (context shard : ℕ) : SlotAllocator × Option SlotLease :=
  let index := pool.nextUnassigned
  if pool.capacity ≤ index then
    (pool, none)
  else
    let pool := { pool with nextUnassigned := index + 1 }
    let pool := pool.updateSlot index fun slot =>
      { slot with
        context := context
        shard := shard
        generation := increment slot.generation
        state := .leased }
    let pool := { pool with assignedSlots := increment pool.assignedSlots }
    (pool.recordActiveAcquire shard, some ⟨index, (pool.slots index).generation, context, shard⟩)

/-- The last loop of `acquire`: the other shards are searched in turn. -/
def popOther (bucket shard : ℕ) : List ℕ → SlotAllocator → SlotAllocator × Option SlotLease
  | [], pool => (pool, none)
  | offset :: offsets, pool =>
    match pool.popFree bucket ((shard + offset) % shardCount) with
    | (pool, some lease) => (pool, some lease)
    | (pool, none) => popOther bucket shard offsets pool

/-- The part of `acquire` after the context was found. -/
def acquireIn (bucket context shard : ℕ) : SlotAllocator × Option SlotLease :=
  match pool.popFree bucket shard with
  | (pool, some lease) => (pool, some lease)
  | (pool, none) =>
    match pool.reserveUnassigned context shard with
    | (pool, some lease) => (pool, some lease)
    | (pool, none) => popOther bucket shard ((List.range (shardCount - 1)).map (· + 1)) pool

def acquire (context shard : ℕ) : SlotAllocator × Option SlotLease :=
  if context = 0 ∨ pool.contextCapacity = 0 then
    (pool, none)
  else
    match pool.findOrClaimContext hash context with
    | (pool, none) => (pool, none)
    | (pool, some bucket) => pool.acquireIn bucket context (shard % shardCount)

def release (lease : SlotLease) : SlotAllocator × Bool :=
  if pool.capacity ≤ lease.index then
    (pool, false)
  else
    let slot := pool.slots lease.index
    if slot.context ≠ lease.context ∨ slot.shard ≠ lease.shard ∨
        slot.generation ≠ lease.generation then
      (pool, false)
    else if slot.state ≠ .leased then
      (pool, false)
    else
      match pool.contextIndex hash lease.context with
      | none => (pool, false)
      | some bucket =>
        let pool := pool.updateSlot lease.index fun slot => { slot with state := .free }
        ((pool.recordRelease lease.shard).pushFree bucket lease.shard lease.index, true)

/-- `acquire_if_accepting`, where the flags are what `accepting` is found to be. The last result is
`admission_closed`. -/
def acquireIfAccepting (context shard : ℕ) (before after : Bool) :
    SlotAllocator × Option SlotLease × Bool :=
  if !before then
    (pool, none, true)
  else
    match pool.acquire hash context shard with
    | (pool, none) => (pool, none, false)
    | (pool, some lease) =>
      if after then (pool, some lease, false) else ((pool.release hash lease).1, none, true)

def activeCount : ℕ :=
  ∑ shard ∈ Finset.range shardCount, (pool.counters shard).active

end SlotAllocator

end Peak.Cuda
