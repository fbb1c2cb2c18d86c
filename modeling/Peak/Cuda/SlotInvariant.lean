import Mathlib.Algebra.Order.BigOperators.Group.Finset
import Peak.Cuda.SlotAllocator

/-!
# Slots are unassigned, leased or on one free list

The invariant of the allocator relates the heads and the links to lists. A list has
exactly the free slots of one context and one shard, each once.
-/

namespace Peak.Cuda

open LinkedStack Function List Nat

namespace SlotAllocator

variable {hash : ℕ → ℕ} {pool after : SlotAllocator} {lists : ℕ → ℕ → List ℕ}
  {context shard bucket index : ℕ} {lease : SlotLease} (slots : ℕ → Slot)

/-- The slots leased from a shard. -/
def leasedSlots (slots : ℕ → Slot) (capacity shard : ℕ) : Finset ℕ :=
  (Finset.range capacity).filter fun index =>
    (slots index).state = .leased ∧ (slots index).shard = shard

/-- The free lists, contexts and counters agree with the slots. -/
structure Sound (hash : ℕ → ℕ) (lists : ℕ → ℕ → List ℕ) (pool : SlotAllocator) : Prop where
  small : pool.capacity < invalidSlotIndex
  next_le : pool.nextUnassigned ≤ pool.capacity
  unassigned : ∀ index, (pool.slots index).state = .unassigned ↔ pool.nextUnassigned ≤ index
  linked : ∀ bucket shard, Linked (fun index => (pool.slots index).nextFree)
    (pool.freeHeads bucket shard).index (lists bucket shard)
  nodup : ∀ bucket shard, (lists bucket shard).Nodup
  listed : ∀ bucket shard index, index ∈ lists bucket shard ↔
    (pool.slots index).state = .free ∧ (pool.slots index).shard = shard ∧
      pool.contextIndex hash (pool.slots index).context = some bucket
  assigned : ∀ index < pool.nextUnassigned, (pool.slots index).shard < shardCount ∧
    ∃ bucket, pool.contextIndex hash (pool.slots index).context = some bucket
  active : ∀ shard < shardCount, (pool.counters shard).active =
    (leasedSlots pool.slots pool.capacity shard).card

theorem update_update_apply {α : Type} (table : ℕ → ℕ → α) (row column : ℕ) (value : α)
    (otherRow otherColumn : ℕ) :
    update table row (update (table row) column value) otherRow otherColumn =
      if otherRow = row ∧ otherColumn = column then value else table otherRow otherColumn := by
  by_cases sameRow : otherRow = row
  · subst sameRow
    by_cases sameColumn : otherColumn = column
    · subst sameColumn
      simp
    · simp [sameColumn]
  · simp [sameRow]

variable {slot : Slot}

theorem card_leasedSlots_lease {capacity : ℕ} (below : index < capacity)
    (idle : (slots index).state ≠ .leased) (isLeased : slot.state = .leased) (shard : ℕ) :
    (leasedSlots (update slots index slot) capacity shard).card =
      (leasedSlots slots capacity shard).card + if slot.shard = shard then 1 else 0 := by
  by_cases same : slot.shard = shard
  · have inserted : leasedSlots (update slots index slot) capacity shard =
        insert index (leasedSlots slots capacity shard) := by
      ext other
      by_cases isIndex : other = index
      · subst isIndex
        simp [leasedSlots, below, isLeased, same]
      · simp [leasedSlots, isIndex]
    rw [inserted, Finset.card_insert_of_notMem, if_pos same]
    simp [leasedSlots, idle]
  · have unchanged : leasedSlots (update slots index slot) capacity shard =
        leasedSlots slots capacity shard := by
      ext other
      by_cases isIndex : other = index
      · subst isIndex
        simp [leasedSlots, idle, same]
      · simp [leasedSlots, isIndex]
    rw [unchanged, if_neg same, add_zero]

theorem card_leasedSlots_release {capacity : ℕ} (below : index < capacity)
    (wasLeased : (slots index).state = .leased) (idle : slot.state ≠ .leased) (shard : ℕ) :
    (leasedSlots (update slots index slot) capacity shard).card +
      (if (slots index).shard = shard then 1 else 0) = (leasedSlots slots capacity shard).card := by
  have again := card_leasedSlots_lease (update slots index slot) below
    (by rwa [update_self]) wasLeased shard
  rw [update_idem, update_eq_self] at again
  exact again.symm

theorem decrement_succ {count : ℕ} (small : count < wordCount) : decrement (count + 1) = count := by
  unfold decrement
  have total : count + 1 + (wordCount - 1) = count + wordCount := by
    omega
  rw [total, add_mod_right, mod_eq_of_lt small]

theorem Sound.index_lt (sound : Sound hash lists pool)
    (used : (pool.slots index).state ≠ .unassigned) : index < pool.nextUnassigned :=
  Nat.lt_of_not_le fun later => used ((sound.unassigned index).mpr later)

theorem Sound.card_lt (sound : Sound hash lists pool) (shard : ℕ) :
    (leasedSlots pool.slots pool.capacity shard).card + 1 < wordCount := by
  have le : (leasedSlots pool.slots pool.capacity shard).card ≤ pool.capacity :=
    (Finset.card_filter_le _ _).trans (Finset.card_range _).le
  have small := sound.small
  unfold invalidSlotIndex at small
  unfold wordCount
  omega

theorem mem_probeOrder (nonempty : pool.contextCapacity ≠ 0) :
    index ∈ pool.probeOrder hash context ↔ index < pool.contextCapacity := by
  simp only [probeOrder, mem_map, mem_range]
  constructor
  · rintro ⟨_, _, rfl⟩
    exact mod_lt _ (pos_of_ne_zero nonempty)
  · intro below
    have positive := pos_of_ne_zero nonempty
    have start := mod_lt (hash context) positive
    -- the offset which leads from the start to the place
    refine ⟨(index + (pool.contextCapacity - hash context % pool.contextCapacity)) %
      pool.contextCapacity, mod_lt _ positive, ?_⟩
    rw [add_mod_mod]
    have total : hash context % pool.contextCapacity +
        (index + (pool.contextCapacity - hash context % pool.contextCapacity)) =
        index + pool.contextCapacity := by omega
    rw [total, add_mod_right, mod_eq_of_lt below]

theorem contexts_of_contextIndex (isBucket : pool.contextIndex hash context = some bucket) :
    pool.contexts bucket = context ∧ context ≠ 0 := by
  unfold contextIndex at isBucket
  split at isBucket
  · cases isBucket
  next nonzero => exact ⟨(Probing.eq_of_find isBucket).2, nonzero⟩

theorem findOrClaimContext_spec (nonzero : context ≠ 0)
    (found : pool.findOrClaimContext hash context = (after, some bucket)) :
    after.contextIndex hash context = some bucket ∧
      (∀ other place, pool.contextIndex hash other = some place →
        after.contextIndex hash other = some place) ∧
      ∃ contexts contextCount,
        after = { pool with
          contexts := contexts
          contextCount := contextCount } := by
  unfold findOrClaimContext at found
  split at found
  · cases found
  next index isClaimed =>
    have stored := Probing.find_update_of_claim isClaimed
    split at found
    next already =>
      cases found
      rw [← already, update_eq_self, already] at stored
      exact ⟨by rw [contextIndex, if_neg nonzero, stored], fun _ _ same => same,
        pool.contexts, pool.contextCount, rfl⟩
    next different =>
      have free : pool.contexts index = 0 :=
        (Probing.eq_of_claim isClaimed).2.resolve_left different
      cases found
      refine ⟨?_, ?_, _, _, rfl⟩
      · rw [contextIndex, if_neg nonzero]
        exact stored
      · intro other place isPlace
        unfold contextIndex at isPlace ⊢
        split at isPlace
        · cases isPlace
        next otherNonzero =>
          rw [if_neg otherNonzero]
          exact Probing.find_update free otherNonzero isPlace

theorem findOrClaimContext_full (nonempty : pool.contextCapacity ≠ 0)
    (full : pool.findOrClaimContext hash context = (after, none)) :
    after = pool ∧ ∀ place < pool.contextCapacity, pool.contexts place ≠ context ∧
      pool.contexts place ≠ 0 := by
  unfold findOrClaimContext at full
  split at full
  next isFull =>
    cases full
    refine ⟨rfl, fun place below => ?_⟩
    exact Probing.full_of_claim isFull place ((mem_probeOrder nonempty).mpr below)
  next =>
    split at full <;> cases full

theorem Sound.claim (sound : Sound hash lists pool) (nonzero : context ≠ 0)
    (found : pool.findOrClaimContext hash context = (after, some bucket)) :
    Sound hash lists after := by
  rcases findOrClaimContext_spec nonzero found with ⟨_, kept, _, _, rfl⟩
  refine ⟨sound.small, sound.next_le, sound.unassigned, sound.linked, sound.nodup, ?_, ?_,
    sound.active⟩
  · intro bucket shard index
    rw [sound.listed]
    refine and_congr_right fun isFree => and_congr_right fun _ => ⟨kept _ _, ?_⟩
    intro isBucket
    have used : index < pool.nextUnassigned := sound.index_lt (by rw [isFree]; decide)
    rcases (sound.assigned index used).2 with ⟨_, isOld⟩
    cases (kept _ _ isOld).symm.trans isBucket
    exact isOld
  · intro index used
    rcases sound.assigned index used with ⟨isShard, bucket, isBucket⟩
    exact ⟨isShard, bucket, kept _ _ isBucket⟩

/-- The slot of the lease is taken, and no other changes. -/
structure Granted (pool : SlotAllocator) (lease : SlotLease) (after : SlotAllocator) : Prop where
  capacity : after.capacity = pool.capacity
  seed : after.generationSeed = pool.generationSeed
  below : lease.index < pool.capacity
  idle : (pool.slots lease.index).state ≠ .leased
  generation : lease.generation = increment (pool.slots lease.index).generation
  leased : after.slots lease.index = ⟨(pool.slots lease.index).nextFree, lease.generation,
    lease.context, lease.shard, .leased⟩
  others : ∀ other, other ≠ lease.index → after.slots other = pool.slots other

def popped (pool : SlotAllocator) (bucket shard index : ℕ) : SlotAllocator :=
  ((pool.setHead bucket shard (pool.slots index).nextFree).updateSlot index fun slot =>
    { slot with
      state := .leased
      generation := increment slot.generation }).recordActiveAcquire (pool.slots index).shard

section

variable (sound : Sound hash lists pool)

include sound

theorem popFree_nil (empty : lists bucket shard = []) :
    pool.popFree bucket shard = (pool, none) := by
  have linked := sound.linked bucket shard
  rw [empty] at linked
  rw [popFree, show (pool.freeHeads bucket shard).index = none from linked]

theorem popFree_cons {rest : List ℕ}
    (top : lists bucket shard = index :: rest) :
    pool.popFree bucket shard = (pool.popped bucket shard index,
      some ⟨index, increment (pool.slots index).generation, (pool.slots index).context,
        (pool.slots index).shard⟩) := by
  have linked := sound.linked bucket shard
  rw [top] at linked
  have isFree : (pool.slots index).state = .free :=
    ((sound.listed bucket shard index).mp (by rw [top]; exact mem_cons_self)).1
  rw [popFree, linked.1]
  simp [setHead, updateSlot, popped, isFree]

theorem granted_popped (isFree : (pool.slots index).state = .free) :
    Granted pool ⟨index, increment (pool.slots index).generation, (pool.slots index).context,
      (pool.slots index).shard⟩ (pool.popped bucket shard index) := by
  have used : index < pool.nextUnassigned := sound.index_lt (by rw [isFree]; decide)
  refine ⟨rfl, rfl, used.trans_le sound.next_le, by rw [isFree]; decide, rfl, ?_, ?_⟩
  · exact update_self index _ _
  · intro other different
    exact update_of_ne different _ _

theorem Sound.active_lease (below : index < pool.capacity)
    (idle : (pool.slots index).state ≠ .leased) (isLeased : slot.state = .leased)
    {counters : ℕ → CounterShard} {highWater : ℕ}
    (isCounters : counters = update pool.counters slot.shard
      ⟨increment (pool.counters slot.shard).active, highWater⟩) :
    ∀ shard < shardCount, (counters shard).active =
      (leasedSlots (update pool.slots index slot) pool.capacity shard).card := by
  intro shard isShard
  rw [card_leasedSlots_lease pool.slots below idle isLeased, isCounters]
  by_cases same : slot.shard = shard
  · subst same
    rw [update_self, if_pos rfl]
    rw [sound.active _ isShard, increment, mod_eq_of_lt (sound.card_lt _)]
  · rw [update_of_ne (Ne.symm same), if_neg same, sound.active _ isShard, add_zero]

theorem Sound.popped {rest : List ℕ}
    (top : lists bucket shard = index :: rest) :
    Sound hash (update lists bucket (update (lists bucket) shard rest))
      (pool.popped bucket shard index) := by
  have isListed := (sound.listed bucket shard index).mp (by rw [top]; exact mem_cons_self)
  rcases isListed with ⟨isFree, isShard, isBucket⟩
  have used : index < pool.nextUnassigned := sound.index_lt (by rw [isFree]; decide)
  have below := used.trans_le sound.next_le
  have nodup := sound.nodup bucket shard
  rw [top, nodup_cons] at nodup
  have isSlot : (pool.popped bucket shard index).slots index =
      { pool.slots index with
        state := .leased
        generation := increment (pool.slots index).generation } :=
    update_self index _ _
  have isOther : ∀ other, other ≠ index →
      (pool.popped bucket shard index).slots other = pool.slots other :=
    fun other different => update_of_ne different _ _
  have links : (fun other => ((pool.popped bucket shard index).slots other).nextFree) =
      fun other => (pool.slots other).nextFree := by
    funext other
    by_cases same : other = index
    · rw [same, isSlot]
    · rw [isOther other same]
  refine ⟨sound.small, sound.next_le, ?_, ?_, ?_, ?_, ?_, ?_⟩
  · intro other
    change _ ↔ pool.nextUnassigned ≤ other
    by_cases same : other = index
    · subst same
      rw [isSlot]
      simpa using used
    · rw [isOther other same]
      exact sound.unassigned other
  · intro otherBucket otherShard
    rw [links, update_update_apply]
    change Linked _ (update pool.freeHeads bucket _ otherBucket otherShard).index _
    rw [update_update_apply]
    split
    · have linked := sound.linked bucket shard
      rw [top] at linked
      exact linked.2
    · exact sound.linked otherBucket otherShard
  · intro otherBucket otherShard
    rw [update_update_apply]
    split
    · exact nodup.2
    · exact sound.nodup otherBucket otherShard
  · intro otherBucket otherShard other
    rw [update_update_apply]
    change _ ↔ _ ∧ _ ∧ pool.contextIndex hash _ = _
    by_cases same : other = index
    · subst same
      rw [isSlot]
      simp only [reduceCtorEq, false_and, iff_false]
      split
      · exact nodup.1
      next elsewhere =>
        intro isMember
        rcases (sound.listed otherBucket otherShard other).mp isMember with
          ⟨_, sameShard, sameBucket⟩
        exact elsewhere ⟨Option.some.inj (sameBucket.symm.trans isBucket),
          sameShard.symm.trans isShard⟩
    · rw [isOther other same, ← sound.listed]
      split
      next here =>
        rcases here with ⟨rfl, rfl⟩
        simp [top, same]
      next => rfl
  · intro other isUsed
    by_cases same : other = index
    · subst same
      rw [isSlot]
      exact sound.assigned other isUsed
    · rw [isOther other same]
      exact sound.assigned other isUsed
  · exact sound.active_lease below (by rw [isFree]; decide) rfl rfl

end

def reserved (pool : SlotAllocator) (context shard : ℕ) : SlotAllocator :=
  { pool with
    nextUnassigned := pool.nextUnassigned + 1
    assignedSlots := increment pool.assignedSlots
    slots := update pool.slots pool.nextUnassigned
      ⟨(pool.slots pool.nextUnassigned).nextFree,
        increment (pool.slots pool.nextUnassigned).generation, context, shard, .leased⟩
    counters := update pool.counters shard
      ⟨increment (pool.counters shard).active,
        max (pool.counters shard).highWater (increment (pool.counters shard).active)⟩ }

theorem reserveUnassigned_of_lt (room : pool.nextUnassigned < pool.capacity) :
    pool.reserveUnassigned context shard = (pool.reserved context shard,
      some ⟨pool.nextUnassigned, increment (pool.slots pool.nextUnassigned).generation, context,
        shard⟩) := by
  rw [reserveUnassigned, if_neg (Nat.not_le_of_lt room)]
  simp [updateSlot, recordActiveAcquire, reserved]

theorem granted_reserved (sound : Sound hash lists pool)
    (room : pool.nextUnassigned < pool.capacity) :
    Granted pool ⟨pool.nextUnassigned, increment (pool.slots pool.nextUnassigned).generation,
      context, shard⟩ (pool.reserved context shard) := by
  have idle := (sound.unassigned pool.nextUnassigned).mpr (le_refl _)
  refine ⟨rfl, rfl, room, by rw [idle]; decide, rfl, ?_, ?_⟩
  · exact update_self pool.nextUnassigned _ _
  · intro other different
    exact update_of_ne different _ _

theorem Sound.reserved (sound : Sound hash lists pool)
    (room : pool.nextUnassigned < pool.capacity) (isShard : shard < shardCount)
    (isBucket : pool.contextIndex hash context = some bucket) :
    Sound hash lists (pool.reserved context shard) := by
  have idle := (sound.unassigned pool.nextUnassigned).mpr (le_refl _)
  have notListed : ∀ otherBucket otherShard,
      pool.nextUnassigned ∉ lists otherBucket otherShard := by
    intro otherBucket otherShard isMember
    have isFree := ((sound.listed _ _ _).mp isMember).1
    rw [idle] at isFree
    cases isFree
  have isSlot : (pool.reserved context shard).slots pool.nextUnassigned =
      ⟨(pool.slots pool.nextUnassigned).nextFree,
        increment (pool.slots pool.nextUnassigned).generation, context, shard, .leased⟩ :=
    update_self pool.nextUnassigned _ _
  have isOther : ∀ other, other ≠ pool.nextUnassigned →
      (pool.reserved context shard).slots other = pool.slots other :=
    fun other different => update_of_ne different _ _
  refine ⟨sound.small, room, ?_, ?_, sound.nodup, ?_, ?_, ?_⟩
  · intro other
    change _ ↔ pool.nextUnassigned + 1 ≤ other
    by_cases same : other = pool.nextUnassigned
    · subst same
      rw [isSlot]
      simp
    · rw [isOther other same, sound.unassigned]
      omega
  · intro otherBucket otherShard
    apply (sound.linked otherBucket otherShard).congr
    intro member isMember
    apply congrArg Slot.nextFree
    apply isOther
    rintro rfl
    exact notListed _ _ isMember
  · intro otherBucket otherShard other
    by_cases same : other = pool.nextUnassigned
    · subst same
      rw [isSlot]
      simpa using notListed otherBucket otherShard
    · rw [isOther other same]
      exact sound.listed otherBucket otherShard other
  · intro other isUsed
    by_cases same : other = pool.nextUnassigned
    · subst same
      rw [isSlot]
      exact ⟨isShard, bucket, isBucket⟩
    · rw [isOther other same]
      apply sound.assigned
      change other < pool.nextUnassigned + 1 at isUsed
      omega
  · exact sound.active_lease room (by rw [idle]; decide) rfl rfl

/-- A leased slot becomes free, and nothing else changes but its link. -/
structure Returned (pool : SlotAllocator) (lease : SlotLease) (after : SlotAllocator) : Prop where
  capacity : after.capacity = pool.capacity
  seed : after.generationSeed = pool.generationSeed
  below : lease.index < pool.capacity
  held : ∃ nextFree, pool.slots lease.index =
    ⟨nextFree, lease.generation, lease.context, lease.shard, .leased⟩
  returned : ∃ nextFree, after.slots lease.index =
    ⟨nextFree, lease.generation, lease.context, lease.shard, .free⟩
  others : ∀ other, other ≠ lease.index → after.slots other = pool.slots other

def pushed (pool : SlotAllocator) (bucket : ℕ) (lease : SlotLease) : SlotAllocator :=
  ((pool.updateSlot lease.index fun slot => { slot with state := .free }).recordRelease
    lease.shard).pushFree bucket lease.shard lease.index

theorem slots_pushed_self (pool : SlotAllocator) (bucket : ℕ) (lease : SlotLease) :
    (pool.pushed bucket lease).slots lease.index =
      { pool.slots lease.index with
        state := .free
        nextFree := (pool.freeHeads bucket lease.shard).index } := by
  simp [pushed, pushFree, setHead, updateSlot, recordRelease]

theorem slots_pushed_of_ne (pool : SlotAllocator) (bucket : ℕ) (lease : SlotLease) {other : ℕ}
    (different : other ≠ lease.index) :
    (pool.pushed bucket lease).slots other = pool.slots other := by
  simp [pushed, pushFree, setHead, updateSlot, recordRelease, different]

theorem slots_pushed (pool : SlotAllocator) (bucket : ℕ) (lease : SlotLease) :
    (pool.pushed bucket lease).slots = update pool.slots lease.index
      { pool.slots lease.index with
        state := .free
        nextFree := (pool.freeHeads bucket lease.shard).index } := by
  funext other
  by_cases same : other = lease.index
  · rw [same, slots_pushed_self, update_self]
  · rw [slots_pushed_of_ne pool bucket lease same, update_of_ne same]

theorem freeHeads_pushed (pool : SlotAllocator) (bucket : ℕ) (lease : SlotLease)
    (otherBucket otherShard : ℕ) :
    ((pool.pushed bucket lease).freeHeads otherBucket otherShard).index =
      if otherBucket = bucket ∧ otherShard = lease.shard then some lease.index
      else (pool.freeHeads otherBucket otherShard).index := by
  change (update pool.freeHeads bucket (update (pool.freeHeads bucket)
    lease.shard _) otherBucket otherShard).index = _
  rw [update_update_apply]
  split <;> rfl

/-- The slot is leased as the lease says. -/
def Holds (pool : SlotAllocator) (lease : SlotLease) : Prop :=
  lease.index < pool.capacity ∧ ∃ nextFree, pool.slots lease.index =
    ⟨nextFree, lease.generation, lease.context, lease.shard, .leased⟩

theorem release_of_holds (sound : Sound hash lists pool) (holds : Holds pool lease) :
    ∃ bucket, pool.contextIndex hash lease.context = some bucket ∧
      pool.release hash lease = (pool.pushed bucket lease, true) := by
  rcases holds with ⟨below, _, isSlot⟩
  have used : lease.index < pool.nextUnassigned := sound.index_lt (by rw [isSlot]; simp)
  rcases (sound.assigned lease.index used).2 with ⟨bucket, isBucket⟩
  rw [isSlot] at isBucket
  refine ⟨bucket, isBucket, ?_⟩
  rw [release, if_neg (Nat.not_le_of_lt below)]
  simp [isSlot, isBucket, pushed]

theorem release_of_not_holds (notHeld : ¬ Holds pool lease) :
    pool.release hash lease = (pool, false) := by
  unfold release
  split
  · rfl
  next below =>
    simp only []
    split
    · rfl
    next same =>
      split
      · rfl
      next isLeased =>
        rw [not_or, not_or, not_not, not_not, not_not] at same
        rw [not_not] at isLeased
        refine absurd ⟨Nat.lt_of_not_le below, (pool.slots lease.index).nextFree, ?_⟩ notHeld
        rw [← same.1, ← same.2.1, ← same.2.2, ← isLeased]

theorem returned_pushed (holds : Holds pool lease) :
    Returned pool lease (pool.pushed bucket lease) := by
  rcases holds with ⟨below, nextFree, isSlot⟩
  refine ⟨rfl, rfl, below, ⟨nextFree, isSlot⟩, ?_, ?_⟩
  · rw [slots_pushed_self, isSlot]
    exact ⟨_, rfl⟩
  · intro other different
    exact slots_pushed_of_ne pool bucket lease different

theorem Sound.active_release (bucket : ℕ) (sound : Sound hash lists pool)
    (holds : Holds pool lease) :
    ∀ shard < shardCount, ((pool.pushed bucket lease).counters shard).active =
      (leasedSlots (pool.pushed bucket lease).slots pool.capacity shard).card := by
  intro shard isShard
  rcases holds with ⟨below, _, isSlot⟩
  have count : (leasedSlots (pool.pushed bucket lease).slots pool.capacity shard).card +
      (if (pool.slots lease.index).shard = shard then 1 else 0) =
      (leasedSlots pool.slots pool.capacity shard).card := by
    rw [slots_pushed]
    exact card_leasedSlots_release pool.slots below (by rw [isSlot]) (by simp) shard
  rw [← sound.active shard isShard, isSlot] at count
  change (update pool.counters lease.shard _ shard).active = _
  by_cases same : lease.shard = shard
  · subst same
    rw [if_pos rfl] at count
    rw [update_self]
    change decrement (pool.counters lease.shard).active = _
    have small := sound.card_lt lease.shard
    rw [← sound.active _ isShard] at small
    rw [← count, decrement_succ (by omega)]
  · rw [update_of_ne (Ne.symm same)]
    rw [if_neg same, add_zero] at count
    exact count.symm

theorem Sound.pushed (sound : Sound hash lists pool) (holds : Holds pool lease)
    (isBucket : pool.contextIndex hash lease.context = some bucket) :
    Sound hash (update lists bucket (update (lists bucket) lease.shard
      (lease.index :: lists bucket lease.shard))) (pool.pushed bucket lease) := by
  have activeRelease := sound.active_release bucket holds
  rcases holds with ⟨_, _, isSlot⟩
  have notListed : ∀ otherBucket otherShard, lease.index ∉ lists otherBucket otherShard := by
    intro otherBucket otherShard isMember
    have isFree := ((sound.listed _ _ _).mp isMember).1
    rw [isSlot] at isFree
    cases isFree
  have isPushed := slots_pushed_self pool bucket lease
  rw [isSlot] at isPushed
  have isOther : ∀ other, other ≠ lease.index →
      (pool.pushed bucket lease).slots other = pool.slots other :=
    fun other different => slots_pushed_of_ne pool bucket lease different
  have used : lease.index < pool.nextUnassigned := sound.index_lt (by rw [isSlot]; simp)
  refine ⟨sound.small, sound.next_le, ?_, ?_, ?_, ?_, ?_, activeRelease⟩
  · intro other
    change _ ↔ pool.nextUnassigned ≤ other
    by_cases same : other = lease.index
    · rw [same, isPushed]
      simpa using used
    · rw [isOther other same]
      exact sound.unassigned other
  · intro otherBucket otherShard
    have links : (fun other => ((pool.pushed bucket lease).slots other).nextFree) =
        update (fun other => (pool.slots other).nextFree) lease.index
          (pool.freeHeads bucket lease.shard).index := by
      funext other
      by_cases same : other = lease.index
      · rw [same, isPushed, update_self]
      · rw [isOther other same, update_of_ne same]
    rw [links, update_update_apply, freeHeads_pushed]
    split
    · exact (sound.linked bucket lease.shard).push (notListed _ _)
    · exact (sound.linked otherBucket otherShard).update (notListed _ _) _
  · intro otherBucket otherShard
    rw [update_update_apply]
    split
    · exact nodup_cons.mpr ⟨notListed _ _, sound.nodup bucket lease.shard⟩
    · exact sound.nodup otherBucket otherShard
  · intro otherBucket otherShard other
    rw [update_update_apply]
    change _ ↔ _ ∧ _ ∧ pool.contextIndex hash _ = _
    by_cases same : other = lease.index
    · rw [same, isPushed]
      split
      next here => simp [here, isBucket]
      next elsewhere =>
        simp only [notListed, true_and, false_iff, not_and]
        intro sameShard sameBucket
        exact elsewhere ⟨Option.some.inj (sameBucket.symm.trans isBucket), sameShard.symm⟩
    · rw [isOther other same, ← sound.listed]
      split
      next here =>
        rcases here with ⟨rfl, rfl⟩
        simp [same]
      next => rfl
  · intro other isUsed
    by_cases same : other = lease.index
    · have assigned := sound.assigned lease.index used
      rw [isSlot] at assigned
      rw [same, isPushed]
      exact assigned
    · rw [isOther other same]
      exact sound.assigned other isUsed

theorem Sound.release (sound : Sound hash lists pool) (lease : SlotLease) :
    (∃ lists' after, Holds pool lease ∧ pool.release hash lease = (after, true) ∧
      Returned pool lease after ∧ Sound hash lists' after) ∨
      ¬ Holds pool lease ∧ pool.release hash lease = (pool, false) := by
  by_cases holds : Holds pool lease
  · rcases release_of_holds sound holds with ⟨_, isBucket, released⟩
    exact .inl ⟨_, _, holds, released, returned_pushed holds, sound.pushed holds isBucket⟩
  · exact .inr ⟨holds, release_of_not_holds holds⟩

/-- A new lease for the context. -/
def Leases (hash : ℕ → ℕ) (pool : SlotAllocator) (context : ℕ) (lease : SlotLease)
    (after : SlotAllocator) : Prop :=
  lease.context = context ∧ Granted pool lease after ∧ ∃ lists, Sound hash lists after

/-- No slot is left for the context. -/
def Exhausted (pool : SlotAllocator) (context : ℕ) : Prop :=
  ∀ index < pool.capacity, (pool.slots index).state ≠ .unassigned ∧
    ((pool.slots index).state = .free → (pool.slots index).context ≠ context)

theorem shard_searched {other : ℕ} (isShard : shard < shardCount) (isOther : other < shardCount)
    (different : other ≠ shard) :
    ∃ offset ∈ (range (shardCount - 1)).map (· + 1), (shard + offset) % shardCount = other := by
  refine ⟨(other + (shardCount - shard)) % shardCount, ?_, ?_⟩
  · simp only [mem_map, mem_range, shardCount] at *
    exact ⟨(other + (256 - shard)) % 256 - 1, by omega, by omega⟩
  · unfold shardCount at *
    omega

section

variable (sound : Sound hash lists pool)

include sound

section

variable (isBucket : pool.contextIndex hash context = some bucket)

include isBucket

theorem Sound.popFree (shard : ℕ) :
    (lists bucket shard = [] ∧ pool.popFree bucket shard = (pool, none)) ∨
      ∃ after lease, pool.popFree bucket shard = (after, some lease) ∧
        Leases hash pool context lease after := by
  rcases top : lists bucket shard with _ | ⟨index, _⟩
  · exact .inl ⟨rfl, popFree_nil sound top⟩
  · have isListed := (sound.listed bucket shard index).mp (by rw [top]; exact mem_cons_self)
    rcases isListed with ⟨isFree, _, sameBucket⟩
    refine .inr ⟨_, _, popFree_cons sound top, ?_, granted_popped sound isFree, _, sound.popped top⟩
    exact (contexts_of_contextIndex sameBucket).1.symm.trans (contexts_of_contextIndex isBucket).1

theorem Sound.popOther (shard : ℕ) (offsets : List ℕ) :
    ((∀ offset ∈ offsets, lists bucket ((shard + offset) % shardCount) = []) ∧
        popOther bucket shard offsets pool = (pool, none)) ∨
      ∃ after lease, popOther bucket shard offsets pool = (after, some lease) ∧
        Leases hash pool context lease after := by
  induction offsets with
  | nil => exact .inl ⟨by simp, rfl⟩
  | cons offset _ searched =>
    unfold SlotAllocator.popOther
    rcases sound.popFree isBucket ((shard + offset) % shardCount) with
      ⟨empty, failed⟩ | ⟨after, lease, taken, leases⟩
    · simpa only [failed, forall_mem_cons, empty, true_and] using searched
    · rw [taken]
      exact .inr ⟨after, lease, rfl, leases⟩

theorem Sound.exhausted (full : pool.capacity ≤ pool.nextUnassigned)
    (empty : ∀ shard < shardCount, lists bucket shard = []) : Exhausted pool context := by
  intro index below
  have used : index < pool.nextUnassigned := below.trans_le full
  constructor
  · intro unassigned
    exact Nat.not_le_of_lt used ((sound.unassigned index).mp unassigned)
  · rintro isFree rfl
    have isListed := (sound.listed bucket (pool.slots index).shard index).mpr
      ⟨isFree, rfl, isBucket⟩
    rw [empty _ (sound.assigned index used).1] at isListed
    cases isListed

theorem Sound.acquireIn (isShard : shard < shardCount) :
    (Exhausted pool context ∧ pool.acquireIn bucket context shard = (pool, none)) ∨
      ∃ after lease, pool.acquireIn bucket context shard = (after, some lease) ∧
        Leases hash pool context lease after := by
  unfold SlotAllocator.acquireIn
  rcases sound.popFree isBucket shard with ⟨empty, failed⟩ | ⟨after, lease, taken, leases⟩
  · rw [failed]
    by_cases room : pool.nextUnassigned < pool.capacity
    · simp only [reserveUnassigned_of_lt room]
      exact .inr ⟨_, _, rfl, rfl, granted_reserved sound room, _,
        sound.reserved room isShard isBucket⟩
    · simp only [reserveUnassigned, if_pos (Nat.le_of_not_lt room)]
      rcases sound.popOther isBucket shard ((range (shardCount - 1)).map (· + 1)) with
        ⟨others, failed⟩ | found
      · refine .inl ⟨sound.exhausted isBucket (Nat.le_of_not_lt room) ?_, failed⟩
        intro other isOther
        by_cases same : other = shard
        · rw [same, empty]
        · rcases shard_searched isShard isOther same with ⟨offset, isOffset, rfl⟩
          exact others offset isOffset
      · exact .inr found
  · rw [taken]
    exact .inr ⟨after, lease, rfl, leases⟩

end

/-- The context has no place in the table and cannot get one. -/
def TableFull (pool : SlotAllocator) (context : ℕ) : Prop :=
  ∀ place < pool.contextCapacity, pool.contexts place ≠ context ∧ pool.contexts place ≠ 0

theorem Sound.acquire (context shard : ℕ) :
    (∃ after, pool.acquire hash context shard = (after, none) ∧ Sound hash lists after ∧
        (after.capacity = pool.capacity ∧ after.generationSeed = pool.generationSeed ∧
          after.slots = pool.slots) ∧
        (context = 0 ∨ TableFull pool context ∨ Exhausted pool context)) ∨
      ∃ after lease, pool.acquire hash context shard = (after, some lease) ∧
        Leases hash pool context lease after := by
  unfold SlotAllocator.acquire
  split
  next refused =>
    refine .inl ⟨pool, rfl, sound, ⟨rfl, rfl, rfl⟩, ?_⟩
    rcases refused with isZero | empty
    · exact .inl isZero
    · refine .inr (.inl fun place below => ?_)
      rw [empty] at below
      cases below
  next accepted =>
    rw [not_or] at accepted
    rcases found : pool.findOrClaimContext hash context with ⟨claimed, _ | _⟩
    · rcases findOrClaimContext_full accepted.2 found with ⟨rfl, full⟩
      exact .inl ⟨claimed, rfl, sound, ⟨rfl, rfl, rfl⟩, .inr (.inl full)⟩
    · have sound := sound.claim accepted.1 found
      rcases findOrClaimContext_spec accepted.1 found with ⟨isBucket, _, _, _, rfl⟩
      have isShard : shard % shardCount < shardCount := mod_lt _ (by decide)
      rcases sound.acquireIn isBucket isShard with
        ⟨exhausted, failed⟩ | ⟨after, lease, taken, leases⟩
      · exact .inl ⟨_, failed, sound, ⟨rfl, rfl, rfl⟩, .inr (.inr exhausted)⟩
      · rcases leases with ⟨same, granted, sound⟩
        exact .inr ⟨after, lease, taken, same, { granted with }, sound⟩

theorem Sound.activeCount : pool.activeCount = ((Finset.range pool.capacity).filter fun index =>
      (pool.slots index).state = .leased).card := by
  have isShard : ∀ index ∈ (Finset.range pool.capacity).filter fun index =>
      (pool.slots index).state = .leased, (pool.slots index).shard ∈ Finset.range shardCount := by
    intro index isLeased
    simp only [Finset.mem_filter] at isLeased
    have used : index < pool.nextUnassigned := sound.index_lt (by rw [isLeased.2]; decide)
    exact Finset.mem_range.mpr (sound.assigned index used).1
  rw [Finset.card_eq_sum_card_fiberwise isShard, SlotAllocator.activeCount]
  apply Finset.sum_congr rfl
  intro shard below
  rw [sound.active shard (Finset.mem_range.mp below), Finset.filter_filter]
  rfl

end

theorem sound_fresh (hash : ℕ → ℕ) (seed capacity : ℕ) :
    Sound hash (fun _ _ => []) (fresh seed capacity) := by
  refine ⟨?_, zero_le _, ?_, fun _ _ => rfl, fun _ _ => nodup_nil, ?_, ?_, ?_⟩
  · change (if invalidSlotIndex ≤ capacity then invalidSlotIndex - 1 else capacity) < _
    split
    · decide
    next below => exact Nat.lt_of_not_le below
  · intro index
    simp [fresh]
  · intro bucket shard index
    simp [fresh]
  · intro index used
    cases used
  · intro shard isShard
    simp [fresh, leasedSlots]

end SlotAllocator

end Peak.Cuda
