import Peak.Cuda.SlotInvariant

/-!
# The leases that were given out

The ledger keeps the leases which are in use, those which were returned or made void by a reset, and
how often every slot was leased since the last reset. This number is the generation of the slot, on
top of a seed which every reset raises by `2 ^ 32`.
-/

namespace Peak.Cuda

open SlotAllocator List

/-- A lease and the context it was acquired for. -/
structure Grant where
  lease : SlotLease
  requested : ℕ

/-- The allocator with the history of its leases. -/
structure SlotLedger where
  pool : SlotAllocator
  live : List Grant
  ended : List SlotLease
  acquired : ℕ → ℕ
  resets : ℕ

inductive SlotOperation where
  | acquire (context shard : ℕ)
  | acquireIfAccepting (context shard : ℕ) (before after : Bool)
  | release (lease : SlotLease)
  | reset (capacity : ℕ)

namespace SlotLedger

variable (hash : ℕ → ℕ) (ledger : SlotLedger)

def create (capacity : ℕ) : SlotLedger :=
  ⟨.create capacity, [], [], fun _ => 0, 0⟩

def grant (after : SlotAllocator) (lease : SlotLease) (context : ℕ) : SlotLedger :=
  { ledger with
    pool := after
    live := ⟨lease, context⟩ :: ledger.live
    acquired := Function.update ledger.acquired lease.index (ledger.acquired lease.index + 1) }

def acquire (context shard : ℕ) : SlotLedger :=
  match ledger.pool.acquire hash context shard with
  | (pool, none) => { ledger with pool := pool }
  | (pool, some lease) => ledger.grant pool lease context

def release (lease : SlotLease) : SlotLedger :=
  match ledger.pool.release hash lease with
  | (pool, false) => { ledger with pool := pool }
  | (pool, true) =>
    { ledger with
      pool := pool
      live := ledger.live.filter fun grant => grant.lease ≠ lease
      ended := lease :: ledger.ended }

def acquireIfAccepting (context shard : ℕ) (before after : Bool) : SlotLedger :=
  if !before then
    ledger
  else
    match ledger.pool.acquire hash context shard with
    | (pool, none) => { ledger with pool := pool }
    | (pool, some lease) =>
      if after then ledger.grant pool lease context
      else (ledger.grant pool lease context).release hash lease

def reset (capacity : ℕ) : SlotLedger :=
  { pool := ledger.pool.reset capacity
    live := []
    ended := ledger.live.map Grant.lease ++ ledger.ended
    acquired := fun _ => 0
    resets := ledger.resets + 1 }

def step : SlotOperation → SlotLedger
  | .acquire context shard => ledger.acquire hash context shard
  | .acquireIfAccepting context shard before after =>
    ledger.acquireIfAccepting hash context shard before after
  | .release lease => ledger.release hash lease
  | .reset capacity => ledger.reset capacity

def run (ledger : SlotLedger) (operations : List SlotOperation) : SlotLedger :=
  operations.foldl (step hash) ledger

end SlotLedger

def SlotAllocator.step (hash : ℕ → ℕ) (pool : SlotAllocator) : SlotOperation → SlotAllocator
  | .acquire context shard => (pool.acquire hash context shard).1
  | .acquireIfAccepting context shard before after =>
    (pool.acquireIfAccepting hash context shard before after).1
  | .release lease => (pool.release hash lease).1
  | .reset capacity => pool.reset capacity

namespace SlotLedger

variable {hash : ℕ → ℕ} {ledger : SlotLedger} {most : ℕ} {after : SlotAllocator}
  {lease : SlotLease} {context shard : ℕ}

theorem pool_release : (ledger.release hash lease).pool = (ledger.pool.release hash lease).1 := by
  unfold release
  rcases ledger.pool.release hash lease with ⟨pool, _ | _⟩ <;> rfl

theorem pool_step (operation : SlotOperation) :
    (ledger.step hash operation).pool = ledger.pool.step hash operation := by
  cases operation with
  | acquire context shard =>
    simp only [step, SlotAllocator.step, acquire]
    rcases ledger.pool.acquire hash context shard with ⟨pool, _ | lease⟩ <;> rfl
  | acquireIfAccepting context shard _ later =>
    simp only [step, SlotAllocator.step, acquireIfAccepting, SlotAllocator.acquireIfAccepting]
    split
    · rfl
    · rcases ledger.pool.acquire hash context shard with ⟨_, _ | _⟩
      · rfl
      · cases later
        · exact pool_release
        · rfl
  | release => exact pool_release
  | reset => rfl

/-- A lease which has ended has the generation of an earlier lease of its slot. -/
def Past (most : ℕ) (ledger : SlotLedger) (lease : SlotLease) : Prop :=
  ∃ epoch count, epoch ≤ ledger.resets ∧ 1 ≤ count ∧ count ≤ most ∧
    lease.generation = ((epoch + 1) * 2 ^ 32 + count) % wordCount ∧
    (epoch = ledger.resets → count ≤ ledger.acquired lease.index ∧
      (count = ledger.acquired lease.index → ¬ Holds ledger.pool lease))

/-- No slot was leased more than `most` times between two resets. -/
structure Good (hash : ℕ → ℕ) (most : ℕ) (ledger : SlotLedger) : Prop where
  sound : ∃ lists, Sound hash lists ledger.pool
  bounded : ∀ index, ledger.acquired index ≤ most
  distinct : (ledger.live.map fun grant => grant.lease.index).Nodup
  held : ∀ grant ∈ ledger.live, Holds ledger.pool grant.lease
  requested : ∀ grant ∈ ledger.live, grant.lease.context = grant.requested
  live : ∀ index, (ledger.pool.slots index).state = .leased →
    ∃ grant ∈ ledger.live, grant.lease.index = index
  unused : ∀ index, (ledger.pool.slots index).state = .unassigned ↔ ledger.acquired index = 0
  seed : ledger.pool.generationSeed = (ledger.resets + 1) * 2 ^ 32 % wordCount
  generation : ∀ index, (ledger.pool.slots index).generation =
    (ledger.pool.generationSeed + ledger.acquired index) % wordCount
  ended : ∀ lease ∈ ledger.ended, Past most ledger lease

theorem good_create (hash : ℕ → ℕ) (most capacity : ℕ) : Good hash most (create capacity) where
  sound := ⟨_, sound_fresh hash 0 capacity⟩
  bounded := fun _ => Nat.zero_le most
  distinct := nodup_nil
  held := by simp [create]
  requested := by simp [create]
  live := by simp [create, SlotAllocator.create, fresh]
  unused := by simp [create, SlotAllocator.create, fresh]
  seed := by simp [create, SlotAllocator.create, fresh]
  generation := by simp [create, SlotAllocator.create, fresh]
  ended := by simp [create]

theorem Good.generation_of_holds (good : Good hash most ledger) (holds : Holds ledger.pool lease) :
    lease.generation =
      ((ledger.resets + 1) * 2 ^ 32 + ledger.acquired lease.index) % wordCount := by
  rcases holds with ⟨_, _, isSlot⟩
  have isGeneration := good.generation lease.index
  rw [isSlot, good.seed, Nat.mod_add_mod] at isGeneration
  exact isGeneration

theorem Good.acquired_pos (good : Good hash most ledger) (holds : Holds ledger.pool lease) :
    1 ≤ ledger.acquired lease.index := by
  rcases holds with ⟨_, _, isSlot⟩
  have used := good.unused lease.index
  rw [isSlot] at used
  apply Nat.one_le_iff_ne_zero.mpr
  intro never
  cases used.mpr never

theorem holds_congr {pool : SlotAllocator} (capacity : after.capacity = pool.capacity)
    (same : after.slots lease.index = pool.slots lease.index) :
    Holds after lease ↔ Holds pool lease := by
  rw [Holds, Holds, capacity, same]

theorem Past.mono {later : SlotLedger} (past : Past most ledger lease)
    (resets : later.resets = ledger.resets)
    (mono : ledger.acquired lease.index < later.acquired lease.index ∨
      later.acquired lease.index = ledger.acquired lease.index ∧
        (Holds later.pool lease → Holds ledger.pool lease)) : Past most later lease := by
  rcases past with ⟨epoch, count, isEpoch, positive, le, isGeneration, now⟩
  rw [← resets] at isEpoch now
  refine ⟨epoch, count, isEpoch, positive, le, isGeneration, fun isNow => ?_⟩
  rcases now isNow with ⟨most, notHeld⟩
  rcases mono with more | ⟨same, held⟩
  · exact ⟨by omega, fun isLast => absurd isLast (by omega)⟩
  · rw [same]
    exact ⟨most, fun isLast holds => notHeld isLast (held holds)⟩

variable {lists : ℕ → ℕ → List ℕ}

theorem Good.refused (good : Good hash most ledger) (sound : Sound hash lists after)
    (sameCapacity : after.capacity = ledger.pool.capacity)
    (sameSeed : after.generationSeed = ledger.pool.generationSeed)
    (same : after.slots = ledger.pool.slots) : Good hash most { ledger with pool := after } := by
  have sameHolds : ∀ lease, Holds after lease ↔ Holds ledger.pool lease :=
    fun lease => holds_congr sameCapacity (by rw [same])
  constructor
  case sound => exact ⟨lists, sound⟩
  case bounded => exact good.bounded
  case distinct => exact good.distinct
  case held =>
    intro grant isLive
    exact (sameHolds _).mpr (good.held grant isLive)
  case requested => exact good.requested
  case live => simpa only [same] using good.live
  case unused => simpa only [same] using good.unused
  case seed => simpa only [sameSeed] using good.seed
  case generation => simpa only [same, sameSeed] using good.generation
  case ended =>
    intro lease isEnded
    exact (good.ended lease isEnded).mono rfl (.inr ⟨rfl, (sameHolds lease).mp⟩)

section

variable (good : Good hash most ledger)

include good

theorem Good.grant (sound : Sound hash lists after)
    (granted : Granted ledger.pool lease after) (same : lease.context = context)
    (room : ledger.acquired lease.index + 1 ≤ most) :
    Good hash most (ledger.grant after lease context) := by
  have notLive : ∀ grant ∈ ledger.live, grant.lease.index ≠ lease.index := by
    intro grant isLive sameIndex
    rcases good.held grant isLive with ⟨_, _, isSlot⟩
    apply granted.idle
    rw [← sameIndex, isSlot]
  constructor
  case sound => exact ⟨lists, sound⟩
  case bounded =>
    intro index
    by_cases isIndex : index = lease.index
    · rw [isIndex]
      simpa [SlotLedger.grant] using room
    · simpa [SlotLedger.grant, isIndex] using good.bounded index
  case distinct =>
    refine nodup_cons.mpr ⟨?_, good.distinct⟩
    intro isMember
    rcases mem_map.mp isMember with ⟨grant, isLive, sameIndex⟩
    exact notLive grant isLive sameIndex
  case held =>
    rw [SlotLedger.grant, forall_mem_cons]
    refine ⟨⟨by rw [granted.capacity]; exact granted.below, _, granted.leased⟩, ?_⟩
    intro grant isLive
    have others := granted.others _ (notLive grant isLive)
    exact (holds_congr granted.capacity others).mpr (good.held grant isLive)
  case requested =>
    rw [SlotLedger.grant, forall_mem_cons]
    exact ⟨same, good.requested⟩
  case live =>
    intro index isLeased
    by_cases isIndex : index = lease.index
    · exact ⟨⟨lease, context⟩, mem_cons_self, isIndex.symm⟩
    · change (after.slots index).state = _ at isLeased
      rw [granted.others index isIndex] at isLeased
      rcases good.live index isLeased with ⟨grant, isLive, sameIndex⟩
      exact ⟨grant, mem_cons_of_mem _ isLive, sameIndex⟩
  case unused =>
    intro index
    change (after.slots index).state = _ ↔ _
    by_cases isIndex : index = lease.index
    · rw [isIndex, granted.leased]
      simp [SlotLedger.grant]
    · rw [granted.others index isIndex]
      simpa [SlotLedger.grant, isIndex] using good.unused index
  case seed =>
    rw [SlotLedger.grant, granted.seed]
    exact good.seed
  case generation =>
    intro index
    change (after.slots index).generation = (after.generationSeed + _) % _
    rw [granted.seed]
    by_cases isIndex : index = lease.index
    · rw [isIndex, granted.leased]
      rw [granted.generation, good.generation, increment]
      simp [SlotLedger.grant, Nat.add_assoc]
    · rw [granted.others index isIndex]
      simpa [SlotLedger.grant, isIndex] using good.generation index
  case ended =>
    intro past isEnded
    refine (good.ended past isEnded).mono rfl ?_
    by_cases isIndex : past.index = lease.index
    · left
      simp [SlotLedger.grant, isIndex]
    · right
      exact ⟨Function.update_of_ne isIndex _ _,
        (holds_congr granted.capacity (granted.others _ isIndex)).mp⟩

theorem Good.returned (sound : Sound hash lists after)
    (holds : Holds ledger.pool lease) (returned : Returned ledger.pool lease after) :
    Good hash most { ledger with
      pool := after
      live := ledger.live.filter fun grant => grant.lease ≠ lease
      ended := lease :: ledger.ended } := by
  rcases returned.returned with ⟨link, isReturned⟩
  have notHeld : ∀ other : SlotLease, other.index = lease.index → ¬ Holds after other := by
    rintro other sameIndex ⟨_, _, isSlot⟩
    rw [sameIndex, isReturned] at isSlot
    injection isSlot with _ _ _ _ sameState
    cases sameState
  have generation : (after.slots lease.index).generation =
      (ledger.pool.slots lease.index).generation := by
    rcases returned.held with ⟨_, isHeld⟩
    rw [isReturned, isHeld]
  constructor
  case sound => exact ⟨lists, sound⟩
  case bounded => exact good.bounded
  case distinct =>
    exact good.distinct.sublist (Sublist.map _ filter_sublist)
  case held =>
    intro grant isMember
    simp only [mem_filter, decide_eq_true_eq] at isMember
    rcases isMember with ⟨isLive, different⟩
    have isOther : grant.lease.index ≠ lease.index := by
      intro sameIndex
      rcases good.held grant isLive with ⟨_, _, isSlot⟩
      rcases returned.held with ⟨_, isHeld⟩
      rw [sameIndex, isHeld] at isSlot
      rcases grant with ⟨⟨_, _, _, _⟩, _⟩
      cases sameIndex
      cases isSlot
      exact different rfl
    exact (holds_congr returned.capacity (returned.others _ isOther)).mpr (good.held grant isLive)
  case requested =>
    intro grant isMember
    exact good.requested grant (mem_filter.mp isMember).1
  case live =>
    intro index isLeased
    by_cases isIndex : index = lease.index
    · rw [isIndex, isReturned] at isLeased
      cases isLeased
    · rw [returned.others index isIndex] at isLeased
      rcases good.live index isLeased with ⟨grant, isLive, sameIndex⟩
      refine ⟨grant, mem_filter.mpr ⟨isLive, ?_⟩, sameIndex⟩
      simp only [decide_eq_true_eq]
      rintro rfl
      exact isIndex sameIndex.symm
  case unused =>
    intro index
    by_cases isIndex : index = lease.index
    · have positive := good.acquired_pos holds
      rw [isIndex, isReturned]
      simp only [reduceCtorEq, false_iff]
      omega
    · rw [returned.others index isIndex]
      exact good.unused index
  case seed => simpa only [returned.seed] using good.seed
  case generation =>
    intro index
    rw [returned.seed, ← good.generation index]
    by_cases isIndex : index = lease.index
    · rw [isIndex, generation]
    · rw [returned.others index isIndex]
  case ended =>
    rw [forall_mem_cons]
    constructor
    · refine ⟨ledger.resets, ledger.acquired lease.index, Nat.le_refl _, good.acquired_pos holds,
        good.bounded _, good.generation_of_holds holds, fun _ => ⟨Nat.le_refl _, fun _ => ?_⟩⟩
      exact notHeld lease rfl
    · intro past isEnded
      refine (good.ended past isEnded).mono rfl (.inr ⟨rfl, fun isHeld => ?_⟩)
      by_cases isIndex : past.index = lease.index
      · exact absurd isHeld (notHeld past isIndex)
      · exact (holds_congr returned.capacity (returned.others _ isIndex)).mp isHeld

theorem Good.release (lease : SlotLease) : Good hash most (ledger.release hash lease) := by
  rcases good.sound with ⟨_, sound⟩
  unfold SlotLedger.release
  rcases sound.release lease with ⟨_, _, holds, released, returned, sound'⟩ | ⟨_, failed⟩
  · rw [released]
    exact good.returned sound' holds returned
  · rw [failed]
    exact good

theorem Good.reset (capacity : ℕ) :
    Good hash most (ledger.reset capacity) where
  sound := ⟨_, sound_fresh hash _ capacity⟩
  bounded := fun _ => Nat.zero_le most
  distinct := nodup_nil
  held := by simp [SlotLedger.reset]
  requested := by simp [SlotLedger.reset]
  live := by simp [SlotLedger.reset, SlotAllocator.reset, fresh]
  unused := by simp [SlotLedger.reset, SlotAllocator.reset, fresh]
  seed := by
    change (ledger.pool.generationSeed + 2 ^ 32) % wordCount = _
    rw [good.seed, Nat.mod_add_mod, SlotLedger.reset, ← Nat.succ_mul]
  generation := by simp [SlotLedger.reset, SlotAllocator.reset, fresh]
  ended := by
    intro lease isEnded
    have earlier : ∀ epoch, epoch ≤ ledger.resets → epoch ≠ (ledger.reset capacity).resets := by
      intro epoch isEpoch
      change epoch ≠ ledger.resets + 1
      omega
    rcases mem_append.mp isEnded with isLive | isEnded
    · rcases mem_map.mp isLive with ⟨grant, isGrant, rfl⟩
      have holds := good.held grant isGrant
      exact ⟨ledger.resets, ledger.acquired grant.lease.index, Nat.le_succ _,
        good.acquired_pos holds, good.bounded _, good.generation_of_holds holds,
        fun isNow => absurd isNow (earlier _ (Nat.le_refl _))⟩
    · rcases good.ended lease isEnded with ⟨epoch, count, isEpoch, positive, le, isGeneration, _⟩
      exact ⟨epoch, count, Nat.le_succ_of_le isEpoch, positive, le, isGeneration,
        fun isNow => absurd isNow (earlier _ isEpoch)⟩

end

theorem acquired_release : (ledger.release hash lease).acquired = ledger.acquired := by
  unfold release
  rcases ledger.pool.release hash lease with ⟨pool, _ | _⟩ <;> rfl

theorem Good.leases (good : Good hash most ledger)
    (leases : Leases hash ledger.pool context lease after)
    (bounded : ∀ index, (ledger.grant after lease context).acquired index ≤ most) :
    Good hash most (ledger.grant after lease context) := by
  rcases leases with ⟨same, granted, _, sound⟩
  have room := bounded lease.index
  simp only [SlotLedger.grant, Function.update_self] at room
  exact good.grant sound granted same room

theorem Good.step (good : Good hash most ledger) (operation : SlotOperation)
    (bounded : ∀ index, (ledger.step hash operation).acquired index ≤ most) :
    Good hash most (ledger.step hash operation) := by
  rcases good.sound with ⟨_, sound⟩
  cases operation with
  | acquire context shard =>
    simp only [SlotLedger.step, SlotLedger.acquire] at bounded ⊢
    rcases sound.acquire context shard with
      ⟨after, failed, sound', same, _⟩ | ⟨after, lease, taken, leases⟩
    · rw [failed]
      exact good.refused sound' same.1 same.2.1 same.2.2
    · rw [taken] at bounded ⊢
      exact good.leases leases bounded
  | acquireIfAccepting context shard before later =>
    simp only [SlotLedger.step, SlotLedger.acquireIfAccepting] at bounded ⊢
    cases before with
    | false => exact good
    | true =>
      rcases sound.acquire context shard with
        ⟨after, failed, sound', same, _⟩ | ⟨after, lease, taken, leases⟩
      · rw [failed]
        exact good.refused sound' same.1 same.2.1 same.2.2
      · rw [taken] at bounded ⊢
        cases later with
        | true => exact good.leases leases bounded
        | false =>
          -- the lease is returned at once
          have bounded : ∀ index,
              ((ledger.grant after lease context).release hash lease).acquired index ≤ most :=
            bounded
          rw [acquired_release] at bounded
          exact (good.leases leases bounded).release lease
  | release lease => exact good.release lease
  | reset capacity => exact good.reset capacity

end SlotLedger

end Peak.Cuda
