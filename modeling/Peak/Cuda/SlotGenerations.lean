import Peak.Cuda.SlotLedger

/-!
# Leases that have ended are refused

A lease that has ended is recognised by its generation, a word that a reset raises by `2 ^ 32` only.
The bounds below are sharp: as soon as one of them is passed there is a history after which an ended
lease is accepted a second time.
-/

namespace Peak.Cuda

open SlotAllocator List Nat

namespace SlotLedger

variable {hash : ℕ → ℕ} {ledger : SlotLedger} {most generation count : ℕ}

/-- The states reached with at most `resets` resets, between which no slot was leased more than
`most` times. -/
inductive Reachable (hash : ℕ → ℕ) (most resets : ℕ) : SlotLedger → Prop where
  | create (capacity : ℕ) : Reachable hash most resets (create capacity)
  | step {ledger : SlotLedger} (operation : SlotOperation)
      (before : Reachable hash most resets ledger)
      (bounded : ∀ index, (ledger.step hash operation).acquired index ≤ most)
      (fewResets : (ledger.step hash operation).resets ≤ resets) :
      Reachable hash most resets (ledger.step hash operation)

theorem Reachable.good {resets : ℕ} (reachable : Reachable hash most resets ledger) :
    Good hash most ledger ∧ ledger.resets ≤ resets := by
  induction reachable with
  | create capacity => exact ⟨good_create hash most capacity, zero_le _⟩
  | step operation _ bounded fewResets induction =>
    exact ⟨induction.1.step operation bounded, fewResets⟩

/-- Everything the allocator promises. -/
structure Safe (hash : ℕ → ℕ) (ledger : SlotLedger) : Prop where
  classes : ∃ lists, Sound hash lists ledger.pool
  unassigned : ∀ index < ledger.pool.capacity,
    (ledger.pool.slots index).state = .unassigned ↔ ledger.acquired index = 0
  leased : ∀ index < ledger.pool.capacity,
    (ledger.pool.slots index).state = .leased ↔ ∃ grant ∈ ledger.live, grant.lease.index = index
  distinct : (ledger.live.map fun grant => grant.lease.index).Nodup
  held : ∀ grant ∈ ledger.live,
    Holds ledger.pool grant.lease ∧ grant.lease.context = grant.requested
  acquires : ∀ context shard, (ledger.pool.acquire hash context shard).2 = none →
    context = 0 ∨ TableFull ledger.pool context ∨ Exhausted ledger.pool context
  active : ledger.pool.activeCount = ((Finset.range ledger.pool.capacity).filter fun index =>
    (ledger.pool.slots index).state = .leased).card
  stale : ∀ lease, (ledger.pool.slots lease.index).generation ≠ lease.generation →
    ledger.pool.release hash lease = (ledger.pool, false)
  ended : ∀ lease ∈ ledger.ended, ledger.pool.release hash lease = (ledger.pool, false)

theorem Good.safe (good : Good hash most ledger)
    (ended : ∀ lease ∈ ledger.ended, ¬ Holds ledger.pool lease) : Safe hash ledger := by
  rcases good.sound with ⟨lists, sound⟩
  constructor
  case classes => exact ⟨lists, sound⟩
  case unassigned => exact fun index _ => good.unused index
  case leased =>
    refine fun index _ => ⟨good.live index, ?_⟩
    rintro ⟨grant, isLive, rfl⟩
    rcases good.held grant isLive with ⟨_, _, isSlot⟩
    rw [isSlot]
  case distinct => exact good.distinct
  case held => exact fun grant isLive => ⟨good.held grant isLive, good.requested grant isLive⟩
  case acquires =>
    intro context shard failed
    rcases sound.acquire context shard with ⟨_, _, _, _, reason⟩ | ⟨_, _, taken, _⟩
    · exact reason
    · rw [taken] at failed
      cases failed
  case active => exact sound.activeCount
  case stale =>
    intro lease different
    apply release_of_not_holds
    rintro ⟨_, _, isSlot⟩
    exact different (by rw [isSlot])
  case ended => exact fun lease isEnded => release_of_not_holds (ended lease isEnded)

/-- The bounds within which no generation comes back. -/
def Unambiguous (most resets : ℕ) : Prop :=
  most = 0 ∨ (resets = 0 ∧ most ≤ 2 ^ 64) ∨ (most ≤ 2 ^ 32 ∧ resets < 2 ^ 32)

variable {bound : ℕ}

theorem generation_ne {epoch resets acquired : ℕ} (unambiguous : Unambiguous most bound)
    (few : resets ≤ bound) (isEpoch : epoch ≤ resets) (positive : 1 ≤ count) (le : count ≤ most)
    (used : 1 ≤ acquired) (isAcquired : acquired ≤ most) (now : epoch = resets → count < acquired) :
    ((epoch + 1) * 2 ^ 32 + count) % 2 ^ 64 ≠ ((resets + 1) * 2 ^ 32 + acquired) % 2 ^ 64 := by
  rcases unambiguous with never | ⟨_, small⟩ | ⟨small, _⟩
  · omega
  · omega
  · by_cases same : epoch = resets
    · omega
    · omega

theorem Good.not_holds (good : Good hash most ledger) (unambiguous : Unambiguous most bound)
    (few : ledger.resets ≤ bound) {lease : SlotLease} (isEnded : lease ∈ ledger.ended) :
    ¬ Holds ledger.pool lease := by
  intro holds
  rcases good.ended lease isEnded with ⟨_, _, isEpoch, positive, le, isGeneration, now⟩
  refine generation_ne unambiguous few isEpoch positive le (good.acquired_pos holds)
    (good.bounded lease.index) ?_ (isGeneration.symm.trans (good.generation_of_holds holds))
  intro isNow
  rcases now isNow with ⟨atMost, notHeld⟩
  exact lt_of_le_of_ne atMost fun same => notHeld same holds

/-- The only slot can be leased. -/
def Ready (generation : ℕ) (pool : SlotAllocator) : Prop :=
  pool.capacity = 1 ∧ pool.contextCapacity = 1 ∧
    ((pool.nextUnassigned = 0 ∧ pool.contexts 0 = 0 ∧ (pool.freeHeads 0 0).index = none ∧
        pool.slots 0 = ⟨none, generation, 0, 0, .unassigned⟩) ∨
      (pool.nextUnassigned = 1 ∧ pool.contexts 0 = 1 ∧ (pool.freeHeads 0 0).index = some 0 ∧
        pool.slots 0 = ⟨none, generation, 1, 0, .free⟩))

/-- The only slot is leased. -/
def Taken (generation : ℕ) (pool : SlotAllocator) : Prop :=
  pool.capacity = 1 ∧ pool.contextCapacity = 1 ∧ pool.nextUnassigned = 1 ∧ pool.contexts 0 = 1 ∧
    (pool.freeHeads 0 0).index = none ∧ pool.slots 0 = ⟨none, generation, 1, 0, .leased⟩

def onlyLease (generation : ℕ) : SlotLease := ⟨0, generation, 1, 0⟩

variable {pool : SlotAllocator}

theorem probeOrder_one (one : pool.contextCapacity = 1) (context : ℕ) :
    pool.probeOrder hash context = [0] := by
  simp [probeOrder, one, mod_one]

theorem acquire_of_ready (hash : ℕ → ℕ) (ready : Ready generation pool) :
    ∃ after, pool.acquire hash 1 0 = (after, some (onlyLease (increment generation))) ∧
      Taken (increment generation) after := by
  rcases ready with ⟨capacity, contextCapacity,
    ⟨next, contexts, head, slot⟩ | ⟨next, contexts, head, slot⟩⟩
  · simp [SlotAllocator.acquire, findOrClaimContext, probeOrder_one contextCapacity, Probing.claim,
      contextCapacity, contexts, acquireIn, popFree, head, reserveUnassigned, capacity, next,
      updateSlot, recordActiveAcquire, slot, onlyLease, Taken]
  · simp [SlotAllocator.acquire, findOrClaimContext, probeOrder_one contextCapacity, Probing.claim,
      contextCapacity, contexts, acquireIn, popFree, head, capacity, next, setHead,
      updateSlot, recordActiveAcquire, slot, onlyLease, Taken]

theorem release_of_taken (hash : ℕ → ℕ) (taken : Taken generation pool) :
    ∃ after, pool.release hash (onlyLease generation) = (after, true) ∧ Ready generation after := by
  rcases taken with ⟨capacity, contextCapacity, next, contexts, head, slot⟩
  simp [SlotAllocator.release, onlyLease, capacity, slot, contextIndex,
    probeOrder_one contextCapacity, Probing.find, contexts, pushFree, setHead, updateSlot,
    recordRelease, Ready, contextCapacity, next, head]

structure Resting (generation count : ℕ) (ledger : SlotLedger) : Prop where
  ready : Ready generation ledger.pool
  acquired : ∀ index, ledger.acquired index = if index = 0 then count else 0

theorem Resting.acquire (hash : ℕ → ℕ) (resting : Resting generation count ledger) :
    Taken (increment generation) (ledger.step hash (.acquire 1 0)).pool ∧
      (∀ index, (ledger.step hash (.acquire 1 0)).acquired index =
        if index = 0 then count + 1 else 0) ∧
      (ledger.step hash (.acquire 1 0)).ended = ledger.ended ∧
      (ledger.step hash (.acquire 1 0)).resets = ledger.resets := by
  rcases acquire_of_ready hash resting.ready with ⟨_, succeeded, taken⟩
  simp only [step, SlotLedger.acquire, succeeded, grant]
  refine ⟨taken, fun index => ?_, trivial, trivial⟩
  by_cases isOnly : index = 0
  · simp [isOnly, onlyLease, resting.acquired]
  · simp [isOnly, onlyLease, resting.acquired]

theorem resting_release (hash : ℕ → ℕ) (taken : Taken generation ledger.pool)
    (acquired : ∀ index, ledger.acquired index = if index = 0 then count else 0) :
    Resting generation count (ledger.step hash (.release (onlyLease generation))) ∧
      (ledger.step hash (.release (onlyLease generation))).ended =
        onlyLease generation :: ledger.ended ∧
      (ledger.step hash (.release (onlyLease generation))).resets = ledger.resets := by
  rcases release_of_taken hash taken with ⟨_, succeeded, ready⟩
  simp only [step, release, succeeded]
  exact ⟨⟨ready, acquired⟩, trivial, trivial⟩

/-- The only slot is leased and released repeatedly. -/
def leaseRounds : ℕ → ℕ → List SlotOperation
  | _, 0 => []
  | generation, count + 1 =>
    .acquire 1 0 :: .release (onlyLease (increment generation)) ::
      leaseRounds (increment generation) count

theorem Resting.leaseRounds {resets : ℕ} (more : ℕ) (reachable : Reachable hash most resets ledger)
    (resting : Resting generation count ledger) (word : generation < wordCount)
    (room : count + more ≤ most) :
    Reachable hash most resets (ledger.run hash (leaseRounds generation more)) ∧
      Resting ((generation + more) % wordCount) (count + more)
        (ledger.run hash (leaseRounds generation more)) ∧
      (ledger.run hash (leaseRounds generation more)).resets = ledger.resets ∧
      (∀ lease ∈ ledger.ended, lease ∈ (ledger.run hash (leaseRounds generation more)).ended) ∧
      ∀ number < more, onlyLease ((generation + number + 1) % wordCount) ∈
        (ledger.run hash (leaseRounds generation more)).ended := by
  induction more generalizing ledger generation count with
  | zero =>
    rw [add_zero, mod_eq_of_lt word]
    exact ⟨reachable, resting, rfl, fun _ isEnded => isEnded, by simp⟩
  | succ more rounds =>
    have few := reachable.good.2
    rcases resting.acquire hash with ⟨taken, acquired, sameEnded, sameResets⟩
    have reachable := reachable.step (.acquire 1 0)
      (by intro index; rw [acquired]; split <;> omega) (by omega)
    rcases resting_release hash taken acquired with ⟨resting, isEnded, sameResets'⟩
    have reachable := reachable.step (.release (onlyLease (increment generation)))
      (by intro index; rw [resting.acquired]; split <;> omega) (by omega)
    have final := rounds reachable resting (mod_lt _ (by decide)) (by omega)
    have isRun : ledger.run hash (leaseRounds generation (more + 1)) =
        ((ledger.step hash (.acquire 1 0)).step hash
          (.release (onlyLease (increment generation)))).run hash
            (leaseRounds (increment generation) more) := rfl
    rw [← isRun, sameResets', sameResets, isEnded, sameEnded] at final
    rcases final with ⟨reachable, resting, sameResets, kept, ended⟩
    have sum : (increment generation + more) % wordCount =
        (generation + (more + 1)) % wordCount := by
      rw [increment, mod_add_mod]
      congr 1
      omega
    rw [sum, show count + 1 + more = count + (more + 1) by omega] at resting
    refine ⟨reachable, resting, sameResets, ?_, ?_⟩
    · exact fun lease wasEnded => kept lease (mem_cons_of_mem _ wasEnded)
    · intro number isNumber
      rcases number with _ | number
      · exact kept _ mem_cons_self
      · have isEnded := ended number (by omega)
        rw [increment, add_assoc, mod_add_mod] at isEnded
        rw [show generation + (number + 1) + 1 = generation + 1 + (number + 1) by omega]
        exact isEnded

theorem run_append (first second : List SlotOperation) :
    ledger.run hash (first ++ second) = (ledger.run hash first).run hash second :=
  foldl_append

theorem run_resets (more : ℕ) : ledger.run hash (replicate (more + 1) (.reset 1)) =
    (ledger.run hash (replicate more (.reset 1))).reset 1 := by
  rw [replicate_succ', run_append]
  rfl

theorem Reachable.resets {resets : ℕ} (reachable : Reachable hash most resets ledger) (more : ℕ)
    (few : ledger.resets + more ≤ resets) :
    Reachable hash most resets (ledger.run hash (replicate more (.reset 1))) ∧
      (ledger.run hash (replicate more (.reset 1))).resets = ledger.resets + more ∧
      ∀ lease ∈ ledger.ended, lease ∈ (ledger.run hash (replicate more (.reset 1))).ended := by
  induction more with
  | zero => exact ⟨reachable, rfl, fun _ isEnded => isEnded⟩
  | succ _ resets =>
    rcases resets (by omega) with ⟨reachable, _, kept⟩
    rw [run_resets]
    refine ⟨reachable.step (.reset 1) (fun _ => zero_le _) ?_, ?_, ?_⟩
    · change (ledger.run hash _).resets + 1 ≤ _
      omega
    · change (ledger.run hash _).resets + 1 = _
      omega
    · intro lease isEnded
      exact mem_append_right _ (kept lease isEnded)

theorem resting_reset (ledger : SlotLedger) :
    Resting ((ledger.pool.generationSeed + 2 ^ 32) % wordCount) 0 (ledger.reset 1) :=
  ⟨⟨rfl, rfl, .inl ⟨rfl, rfl, rfl, rfl⟩⟩, fun _ => by simp [reset]⟩

/-- The slot is leased and returned, the allocator is reset, and the slot is leased again. -/
def history (rounds resets : ℕ) : List SlotOperation :=
  leaseRounds (2 ^ 32) rounds ++ replicate resets (.reset 1) ++ [.acquire 1 0]

def sinceReset (rounds resets : ℕ) : ℕ :=
  if resets = 0 then rounds else 0

theorem resting_create : Resting (2 ^ 32) 0 (create 1) :=
  ⟨⟨rfl, rfl, .inl ⟨rfl, rfl, rfl, rfl⟩⟩, fun _ => by simp [create]⟩

theorem resting_history (hash : ℕ → ℕ) {rounds resets : ℕ} (fewRounds : rounds ≤ most)
    (fewResets : resets ≤ bound) :
    ∃ ledger, ledger = (create 1).run hash
        (leaseRounds (2 ^ 32) rounds ++ replicate resets (.reset 1)) ∧
      Reachable hash most bound ledger ∧ ledger.resets = resets ∧
      Resting (((resets + 1) * 2 ^ 32 + sinceReset rounds resets) % wordCount)
        (sinceReset rounds resets) ledger ∧
      ∀ number < rounds, onlyLease ((2 ^ 32 + number + 1) % wordCount) ∈ ledger.ended := by
  have start : Reachable hash most bound (create 1) := .create 1
  rcases resting_create.leaseRounds rounds start (by decide) (by omega) with
    ⟨reachable, resting, noReset, _, ended⟩
  change _ = 0 at noReset
  rcases resets with _ | resets
  · refine ⟨_, rfl, ?_⟩
    rw [replicate_zero, append_nil]
    exact ⟨reachable, noReset, by simpa [sinceReset] using resting, ended⟩
  · rcases reachable.resets resets (by omega) with ⟨reachable, isCount, kept⟩
    rw [noReset, zero_add] at isCount
    refine ⟨_, rfl, ?_⟩
    rw [run_append, run_resets]
    generalize ((create 1).run hash (leaseRounds (2 ^ 32) rounds)).run hash
      (replicate resets (.reset 1)) = before at *
    refine ⟨reachable.step (.reset 1) (fun _ => zero_le _) ?_, ?_, ?_, ?_⟩
    · change before.resets + 1 ≤ _
      omega
    · change before.resets + 1 = _
      omega
    · have resting := resting_reset before
      rw [reachable.good.1.seed, isCount, mod_add_mod, ← succ_mul] at resting
      rw [show sinceReset rounds (resets + 1) = 0 from rfl, add_zero]
      exact resting
    · intro number isNumber
      exact mem_append_right _ (kept _ (ended number isNumber))

theorem not_safe_history (hash : ℕ → ℕ) {rounds resets number : ℕ} (fewRounds : rounds ≤ most)
    (fewResets : resets ≤ bound) (isNumber : number < rounds)
    (last : sinceReset rounds resets + 1 ≤ most) (same : (2 ^ 32 + number + 1) % wordCount =
      ((resets + 1) * 2 ^ 32 + sinceReset rounds resets + 1) % wordCount) :
    Reachable hash most bound ((create 1).run hash (history rounds resets)) ∧
      ¬ Safe hash ((create 1).run hash (history rounds resets)) := by
  rcases resting_history hash fewRounds fewResets with
    ⟨ledger, isLedger, reachable, _, resting, ended⟩
  have isRun : (create 1).run hash (history rounds resets) = ledger.step hash (.acquire 1 0) := by
    rw [isLedger, history, run_append]
    rfl
  rw [isRun]
  rcases resting.acquire hash with ⟨taken, acquired, sameEnded, _⟩
  constructor
  · refine reachable.step _ (fun index => ?_) (by omega)
    rw [acquired]
    split <;> omega
  · intro safe
    have isEnded := ended number isNumber
    rw [same, ← sameEnded] at isEnded
    rw [increment, mod_add_mod] at taken
    rcases release_of_taken hash taken with ⟨_, released, _⟩
    rw [safe.ended _ isEnded] at released
    cases released

/-- The promises are kept if and only if no slot is leased too often between two resets, and the
resets are few. -/
theorem safe_iff_unambiguous (hash : ℕ → ℕ) (most resets : ℕ) :
    (∀ ledger, Reachable hash most resets ledger → Safe hash ledger) ↔
      Unambiguous most resets := by
  constructor
  · intro safe
    by_contra ambiguous
    simp only [Unambiguous, not_or, not_and, not_le, not_lt] at ambiguous
    rcases ambiguous with ⟨used, noReset, withResets⟩
    have unsafeHistory : ∃ rounds count number, rounds ≤ most ∧ count ≤ resets ∧ number < rounds ∧
        sinceReset rounds count + 1 ≤ most ∧ (2 ^ 32 + number + 1) % wordCount =
          ((count + 1) * 2 ^ 32 + sinceReset rounds count + 1) % wordCount := by
      rcases Nat.eq_zero_or_pos resets with never | some
      · -- the generation of the slot comes back without a reset
        have many := noReset never
        exact ⟨2 ^ 64, 0, 0, many.le, zero_le _, by decide, many, by decide⟩
      · by_cases often : 2 ^ 32 < most
        · -- the generations of one slot reach those after the reset
          exact ⟨2 ^ 32 + 1, 1, 2 ^ 32, often, some, by decide, pos_of_ne_zero used, by decide⟩
        · -- the seed comes back
          exact ⟨1, 2 ^ 32, 0, pos_of_ne_zero used, withResets (by omega), by decide,
            pos_of_ne_zero used, by decide⟩
    rcases unsafeHistory with ⟨_, _, _, fewRounds, fewResets, isNumber, last, same⟩
    have notSafe := not_safe_history hash fewRounds fewResets isNumber last same
    exact notSafe.2 (safe _ notSafe.1)
  · intro unambiguous ledger reachable
    rcases reachable.good with ⟨good, few⟩
    exact good.safe fun lease isEnded => good.not_holds unambiguous few isEnded

/-- A lease from before a reset is accepted in place of the one after it. -/
theorem reset_restores_generation :
    ¬ Safe (fun context => context)
      ((create 1).run (fun context => context) (history (2 ^ 32 + 1) 1)) := by
  have bounds := not_safe_history (fun context => context) (le_refl (2 ^ 32 + 1))
    (le_refl 1) (lt_succ_self (2 ^ 32)) (by decide) (by decide)
  exact bounds.2

end SlotLedger

end Peak.Cuda
