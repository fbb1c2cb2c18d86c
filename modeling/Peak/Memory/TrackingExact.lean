import Mathlib.Algebra.GroupWithZero.Nat
import Mathlib.Algebra.Ring.Int.Defs
import Mathlib.Order.Interval.Finset.Nat
import Peak.Memory.Hooks
import Peak.Memory.LogCapacity

/-!
# The tracking tables describe the blocks in use

The radix map has exactly the tracked blocks with their sizes. The byte counts, or the
events of the log, add up to these sizes. In the middle of a `realloc` an event is still
missing, so that the invariant has the size of the missing events as a parameter.
-/

namespace Peak.Memory

open RadixMap MemLog Tracking List Nat Process

variable {root : Node rootLevel} {tracking : Tracking} {blocks : List Block} {env : HookEnv}
  {pointer size key : ℕ} {pending : ℤ} {state : MemLogState}

theorem radixIndex_eq (level key : ℕ) : radixIndex level key = key / 1024 ^ level % 1024 := by
  have mask := Nat.and_two_pow_sub_one_eq_mod (key >>> (level * 10)) 10
  have power : (2 : ℕ) ^ (level * 10) = 1024 ^ level := by
    rw [Nat.mul_comm, Nat.pow_mul]
  rw [radixIndex, show (1023 : ℕ) = 2 ^ 10 - 1 from rfl, mask, shiftRight_eq_div_pow, power]

theorem mod_eq_of_agree {level first second : ℕ} (agree : Agree radixIndex level first second) :
    first % 1024 ^ (level + 1) = second % 1024 ^ (level + 1) := by
  induction level with
  | zero =>
    have top := agree_zero.mp agree
    simpa [radixIndex_eq] using top
  | succ _ below =>
    rcases agree_succ.mp agree with ⟨top, rest⟩
    rw [radixIndex_eq, radixIndex_eq] at top
    rw [mod_pow_succ, below rest, top, ← mod_pow_succ]

theorem agree_iff {first second : ℕ} (firstWord : first < wordValues)
    (secondWord : second < wordValues) :
    Agree radixIndex rootLevel first second ↔ first = second := by
  constructor
  · intro agree
    have same := mod_eq_of_agree agree
    have bound : wordValues < 1024 ^ (rootLevel + 1) := by decide
    rwa [mod_eq_of_lt (firstWord.trans bound), mod_eq_of_lt (secondWord.trans bound)] at same
  · rintro rfl lower _
    rfl

def entry (root : Node rootLevel) (key : ℕ) : ℕ :=
  value radixIndex root key

theorem entry_store {old : ℕ} (new : ℕ)
    (isPlace : slot radixIndex pointer rootLevel root = some old)
    (isPointer : pointer < wordValues) (isKey : key < wordValues) :
    entry (store radixIndex new pointer rootLevel root) key =
      if key = pointer then new else entry root key := by
  classical
  rw [entry, value_store new root isPlace key]
  simp only [agree_iff isKey isPointer]
  rfl

theorem trackingRadixInsert_spec {available : ℕ → Bool} (all : ∀ level, available level)
    (isPointer : pointer < wordValues) (isSize : size < sizeMax) (absent : entry root pointer = 0) :
    ∃ after, trackingRadixInsert available root pointer size = (after, true) ∧
      ∀ key < wordValues, entry after key = if key = pointer then size + 1 else entry root key := by
  have place : (reach radixIndex available pointer rootLevel root).2 ∧ _ :=
    slot_reach all root pointer
  rcases place with ⟨reached, isPlace⟩
  have kept : ∀ other,
      value radixIndex (reach radixIndex available pointer rootLevel root).1 other =
      value radixIndex root other := value_reach root pointer
  rw [show value radixIndex root pointer = 0 from absent] at isPlace
  rcases isReached : reach radixIndex available pointer rootLevel root with ⟨node, _⟩
  rw [isReached] at reached isPlace kept
  simp only at reached isPlace kept
  refine ⟨store radixIndex (size + 1) pointer rootLevel node, ?_, ?_⟩
  · simp [trackingRadixInsert, isSize.ne, isReached, reached, isPlace]
  · intro key isKey
    rw [entry_store _ isPlace isPointer isKey]
    split
    · rfl
    · exact kept key

theorem trackingRadixRemove_spec (root : Node rootLevel) (isPointer : pointer < wordValues) :
    ∃ after, trackingRadixRemove root pointer =
        (after, if entry root pointer = 0 then none else some (entry root pointer - 1)) ∧
      ∀ key < wordValues, entry after key = if key = pointer then 0 else entry root key := by
  unfold trackingRadixRemove
  rcases isPlace : slot radixIndex pointer rootLevel root with _ | encoded
  · have absent : entry root pointer = 0 := by simp [entry, value, isPlace]
    refine ⟨root, by simp [absent], fun key _ => ?_⟩
    split
    next same => rw [same, absent]
    next => rfl
  · have isEntry : entry root pointer = encoded := by simp [entry, value, isPlace]
    rw [isEntry]
    exact ⟨_, rfl, fun key isKey => entry_store 0 isPlace isPointer isKey⟩

/-- The bytes in the selected blocks. -/
def sumSizes (selects : Block → Bool) (blocks : List Block) : ℕ :=
  ((blocks.filter selects).map Block.size).sum

/-- The tracked blocks, those of a shard, and those whose size is that of an event. -/
def tracked (block : Block) : Bool :=
  block.tracked

def trackedIn (shard : ℕ) (block : Block) : Bool :=
  block.tracked && accountingShardFor block.pointer = shard

def trackedSmall (block : Block) : Bool :=
  block.tracked && block.size ≤ int64Max

variable {selects : Block → Bool} {block : Block}

theorem sumSizes_cons (selects : Block → Bool) (block : Block) (blocks : List Block) :
    sumSizes selects (block :: blocks) =
      (if selects block then block.size else 0) + sumSizes selects blocks := by
  unfold sumSizes
  rw [filter_cons]
  split <;> simp

theorem sumSizes_eq_zero (none : ∀ block ∈ blocks, selects block = false) :
    sumSizes selects blocks = 0 := by
  rw [sumSizes, filter_eq_nil_iff.mpr (by simpa using none)]
  rfl

/-- Blocks as an allocator may place them. -/
structure Layout (blocks : List Block) : Prop where
  apart : blocks.Pairwise Block.Apart
  addressable : ∀ block ∈ blocks, block.Addressable

theorem layout_cons : Layout (block :: blocks) ↔
    block.Addressable ∧ (∀ other ∈ blocks, block.Apart other) ∧ Layout blocks := by
  constructor
  · intro layout
    have apart := pairwise_cons.mp layout.apart
    have addressable := forall_mem_cons.mp layout.addressable
    exact ⟨addressable.1, apart.1, apart.2, addressable.2⟩
  · rintro ⟨addressable, apart, layout⟩
    exact ⟨pairwise_cons.mpr ⟨apart, layout.apart⟩,
      forall_mem_cons.mpr ⟨addressable, layout.addressable⟩⟩

theorem layout_erase (layout : Layout blocks) (pointer : ℕ) : Layout (eraseBlock pointer blocks) :=
  ⟨layout.apart.sublist filter_sublist,
    fun block isBlock => layout.addressable block (mem_filter.mp isBlock).1⟩

def covered : List Block → Finset ℕ
  | [] => ∅
  | block :: blocks => Finset.Ico block.pointer (block.pointer + block.size) ∪ covered blocks

theorem mem_covered {byte : ℕ} : byte ∈ covered blocks ↔
    ∃ block ∈ blocks, block.pointer ≤ byte ∧ byte < block.pointer + block.size := by
  induction blocks with
  | nil => simp [covered]
  | cons _ _ rest => simp [covered, rest]

theorem card_covered (layout : Layout blocks) :
    (covered blocks).card = sumSizes (fun _ => true) blocks := by
  induction blocks with
  | nil => rfl
  | cons _ _ rest =>
    rcases layout_cons.mp layout with ⟨_, apart, layout⟩
    rw [covered, Finset.card_union_of_disjoint, rest layout, sumSizes_cons, card_Ico]
    · simp
    · rw [Finset.disjoint_left]
      intro byte isFirst isOther
      rw [Finset.mem_Ico] at isFirst
      rcases mem_covered.mp isOther with ⟨other, isMember, _⟩
      rcases (apart other isMember).2 with before | after <;> omega

theorem sumSizes_lt (layout : Layout blocks) (selects : Block → Bool) :
    sumSizes selects blocks < sizeMax := by
  have le : sumSizes selects blocks ≤ sumSizes (fun _ => true) blocks := by
    clear layout
    induction blocks with
    | nil => exact le_refl _
    | cons =>
      rw [sumSizes_cons, sumSizes_cons]
      simp only [if_true]
      split <;> omega
  have subset : covered blocks ⊆ Finset.Ico 1 sizeMax := by
    intro byte isByte
    rcases mem_covered.mp isByte with ⟨block, isBlock, _⟩
    rcases layout.addressable block isBlock with ⟨_, below⟩
    rw [Finset.mem_Ico]
    unfold wordValues at below
    unfold sizeMax
    omega
  have card := Finset.card_le_card subset
  rw [card_covered layout, card_Ico] at card
  unfold sizeMax at *
  omega

theorem sumSizes_erase (layout : Layout blocks) (isBlock : block ∈ blocks)
    (selects : Block → Bool) :
    sumSizes selects (eraseBlock block.pointer blocks) +
      (if selects block then block.size else 0) = sumSizes selects blocks := by
  induction blocks with
  | nil => cases isBlock
  | cons _ blocks rest =>
    rcases layout_cons.mp layout with ⟨_, apart, layout⟩
    rcases mem_cons.mp isBlock with rfl | isRest
    · have same : eraseBlock block.pointer (block :: blocks) = blocks := by
        rw [eraseBlock, filter_cons_of_neg (by simp), filter_eq_self]
        intro other isOther
        simpa using (apart other isOther).1.symm
      rw [same, sumSizes_cons, add_comm]
    · have different := (apart block isRest).1
      rw [eraseBlock, filter_cons_of_pos (by simpa using different), ← eraseBlock,
        sumSizes_cons, sumSizes_cons, ← rest layout isRest]
      omega

theorem sumSizes_erase_of_not (none : ∀ block ∈ blocks, block.pointer = pointer →
    selects block = false) :
    sumSizes selects (eraseBlock pointer blocks) = sumSizes selects blocks := by
  unfold sumSizes eraseBlock
  rw [filter_filter]
  congr 2
  apply filter_congr
  intro block isBlock
  by_cases same : block.pointer = pointer
  · simp [none block isBlock same]
  · simp [same]

/-- What the map should have at an address. -/
def encoded (blocks : List Block) (key : ℕ) : ℕ :=
  sumSizes (fun block => block.tracked && block.pointer = key) blocks +
    if isTracked key blocks then 1 else 0

/-- The sum of the deltas in the written log. -/
def writtenDelta (log : MemLog) : ℤ :=
  (log.compactCommitted.map MemEvent.delta).sum

def eventSize (size : ℕ) : ℤ :=
  (sizeToEventDelta size).getD 0

/-- The tracking state describes the blocks, while events of the given size are not written yet. -/
structure Exact (state : MemLogState) (pending : ℤ) (tracking : Tracking) (blocks : List Block) :
    Prop where
  installed : tracking.tablesActive ∧ tracking.cleanup = false ∧ tracking.log.state = state
  layout : Layout blocks
  map : ∀ key < wordValues, entry tracking.root key = encoded blocks key
  shards : tracking.log.state ≠ .active → ∀ shard,
    (tracking.shards shard).currentBytes = sumSizes (trackedIn shard) blocks
  fallback : tracking.log.state ≠ .active →
    tracking.fallback = sumSizes tracked blocks ∧ tracking.fallback ≤ tracking.maximum
  log : tracking.log.state = .active → ∃ threads handed, LogSound threads tracking.log handed
  events : tracking.log.state = .active → tracking.log.dropped = 0 →
    writtenDelta tracking.log = sumSizes trackedSmall blocks + pending

theorem Exact.not_stopped (exact : Exact state pending tracking blocks) :
    ¬ (!tracking.tablesActive || tracking.cleanup) = true := by
  simp [exact.installed.1, exact.installed.2.1]

theorem isTracked_iff : isTracked pointer blocks ↔
    ∃ block ∈ blocks, block.pointer = pointer ∧ block.tracked := by
  simp [isTracked]

theorem isTracked_eq_false : isTracked pointer blocks = false ↔
    ∀ block ∈ blocks, block.pointer = pointer → block.tracked = false := by
  simp [isTracked]

theorem encoded_of_not (untracked : isTracked key blocks = false) : encoded blocks key = 0 := by
  rw [encoded, sumSizes_eq_zero, untracked]
  · rfl
  · intro block isBlock
    have notTracked := isTracked_eq_false.mp untracked block isBlock
    grind

theorem isTracked_erase (pointer key : ℕ) (blocks : List Block) :
    isTracked key (eraseBlock pointer blocks) =
      if key = pointer then false else isTracked key blocks := by
  rw [Bool.eq_iff_iff, isTracked_iff]
  simp only [eraseBlock, mem_filter, decide_eq_true_eq]
  split
  next same =>
    subst same
    simp only [Bool.false_eq_true, iff_false]
    rintro ⟨_, ⟨_, different⟩, same, _⟩
    exact different same
  next different =>
    rw [isTracked_iff]
    constructor
    · rintro ⟨block, ⟨isBlock, _⟩, isKey⟩
      exact ⟨block, isBlock, isKey⟩
    · rintro ⟨block, isBlock, rfl, isKey⟩
      exact ⟨block, ⟨isBlock, different⟩, rfl, isKey⟩

theorem encoded_erase (pointer key : ℕ) (blocks : List Block) :
    encoded (eraseBlock pointer blocks) key = if key = pointer then 0 else encoded blocks key := by
  split
  next same => exact encoded_of_not (by rw [isTracked_erase, if_pos same])
  next different =>
    rw [encoded, encoded, isTracked_erase, if_neg different, sumSizes_erase_of_not]
    rintro block _ rfl
    simp [Ne.symm different]

theorem encoded_of_mem (layout : Layout blocks) (isBlock : block ∈ blocks)
    (selected : block.tracked) : encoded blocks block.pointer = block.size + 1 := by
  have sum := sumSizes_erase layout isBlock
    fun other => other.tracked && other.pointer = block.pointer
  have isTracked := isTracked_iff.mpr ⟨block, isBlock, rfl, selected⟩
  have rest := encoded_erase block.pointer block.pointer blocks
  rw [if_pos rfl, encoded] at rest
  rw [encoded, isTracked, ← sum]
  simp only [selected, decide_true, Bool.and_self, if_true]
  omega

theorem encoded_cons (block : Block) (blocks : List Block)
    (fresh : block.tracked → isTracked block.pointer blocks = false) (key : ℕ) :
    encoded (block :: blocks) key =
      if block.tracked ∧ key = block.pointer then block.size + 1 else encoded blocks key := by
  rw [encoded, sumSizes_cons, isTracked, any_cons]
  by_cases same : block.tracked ∧ key = block.pointer
  · rcases same with ⟨selected, rfl⟩
    have none := encoded_of_not (fresh selected)
    rw [encoded] at none
    simp only [selected, decide_true, Bool.and_self, if_true, true_and, Bool.true_or]
    omega
  · have other : (block.tracked && decide (block.pointer = key)) = false := by
      rw [Bool.eq_false_iff]
      intro both
      simp only [Bool.and_eq_true, decide_eq_true_eq] at both
      exact same ⟨both.1, both.2.symm⟩
    have other' : decide (block.pointer = key ∧ block.tracked) = false := by
      rw [decide_eq_false_iff_not]
      rintro ⟨isKey, selected⟩
      exact same ⟨selected, isKey.symm⟩
    rw [other, other', if_neg same, Bool.false_or, encoded, isTracked]
    simp

theorem writtenDelta_logEvent {log : MemLog} (sound : ∃ threads handed, LogSound threads log handed)
    (active : log.state = .active) (thread : ℕ) (event : MemEvent) :
    ∃ after result, log.logEvent thread event = (after, result) ∧ after.state = .active ∧
      (∃ threads handed, LogSound threads after handed) ∧
      ((after.dropped = log.dropped ∧ writtenDelta after = writtenDelta log + event.delta) ∨
        after.dropped = log.dropped + 1) := by
  rcases sound with ⟨threads, handed, sound⟩
  have sound' : LogSound (insert thread threads) log handed :=
    ⟨sound.blocks.mono (Finset.subset_insert _ _), sound.stored⟩
  rcases sound'.logEvent active (Finset.mem_insert_self _ _) event with
    ⟨after, index, isStored, later, same, _, dropped, events⟩ |
    ⟨after, isDropped, later, same, _, dropped, _, _⟩
  · refine ⟨after, _, isStored, same.1.trans active, ⟨_, _, later⟩, .inl ⟨dropped, ?_⟩⟩
    have fresh : index ∉ handed := (nodup_cons.mp later.blocks.distinct).1
    have rest : handed.filterMap after.events = handed.filterMap log.events := by
      apply filterMap_congr
      intro other isHanded
      rw [events, Function.update_of_ne]
      rintro rfl
      exact fresh isHanded
    have compact := later.compact
    rw [filterMap_cons_some (by rw [events, Function.update_self]), rest] at compact
    rw [writtenDelta, (compact.map _).sum_eq, map_cons, sum_cons, writtenDelta,
      (sound.compact.map _).sum_eq, Int.add_comm]
  · exact ⟨after, _, isDropped, same.1.trans active, ⟨_, _, later⟩, .inr dropped⟩

theorem Exact.publish (exact : Exact state pending tracking blocks) (env : HookEnv) (op : MemOp)
    (delta : Option ℤ) (transition : Transition) :
    Exact state (pending + delta.getD 0) (tracking.publish env op delta transition) blocks := by
  rcases delta with _ | delta
  · simpa [Tracking.publish] using exact
  · unfold Tracking.publish
    by_cases active : tracking.log.state = .active
    · rcases writtenDelta_logEvent (exact.log active) active env.thread
        ⟨transition.timestamp, delta, 0, transition.sequence, env.tid, transition.shard, op⟩ with
        ⟨after, _, isLog, isActive, sound, count⟩
      simp only [isLog]
      have sameState := isActive.trans (active.symm.trans exact.installed.2.2)
      refine ⟨⟨exact.installed.1, exact.installed.2.1, sameState⟩, exact.layout, exact.map, ?_, ?_,
        fun _ => sound, ?_⟩
      · exact fun inactive => absurd isActive inactive
      · exact fun inactive => absurd isActive inactive
      · intro _ noneDropped
        rcases count with ⟨same, _⟩ | dropped
        · have events := exact.events active (same.symm.trans noneDropped)
          simp only [Option.getD_some] at *
          omega
        · change after.dropped = 0 at noneDropped
          omega
    · have refused : ∀ event, tracking.log.logEvent env.thread event = (tracking.log, .inactive) :=
        fun event => if_pos active
      simp only [refused]
      exact ⟨exact.installed, exact.layout, exact.map, exact.shards, exact.fallback, exact.log,
        fun isActive => absurd isActive active⟩

def SameTables (before after : Tracking) : Prop :=
  after.tablesActive = before.tablesActive ∧ after.cleanup = before.cleanup ∧
    after.root = before.root ∧ after.log = before.log

theorem trackingAccountRemove_spec (tracking : Tracking) (shard size timestamp : ℕ) :
    ∃ after stamp, tracking.trackingAccountRemove shard size timestamp = (after, stamp) ∧
      SameTables tracking after ∧ after.maximum = tracking.maximum ∧
      (tracking.log.state = .active → after.fallback = tracking.fallback ∧
        ∀ other, (after.shards other).currentBytes = (tracking.shards other).currentBytes) ∧
      (tracking.log.state ≠ .active →
        after.fallback = (tracking.fallback + wordValues - size) % wordValues ∧
        ∀ other, (after.shards other).currentBytes =
          if other = shard then
            ((tracking.shards shard).currentBytes + wordValues - size) % wordValues
          else (tracking.shards other).currentBytes) := by
  unfold trackingAccountRemove transition
  by_cases active : tracking.log.state = .active
  · simp only [active]
    refine ⟨_, _, rfl, ⟨rfl, rfl, rfl, rfl⟩, rfl, fun _ => ⟨rfl, fun other => ?_⟩,
      fun inactive => absurd rfl inactive⟩
    by_cases same : other = shard <;> simp [same]
  · simp only [active]
    refine ⟨_, _, rfl, ⟨rfl, rfl, rfl, rfl⟩, rfl, fun isActive => isActive.elim,
      fun _ => ⟨rfl, fun other => ?_⟩⟩
    by_cases same : other = shard <;> simp [setBytes, same]

theorem sub_word {sum size : ℕ} (small : sum < sizeMax) :
    (sum + size + wordValues - size) % wordValues = sum := by
  unfold wordValues
  unfold sizeMax at small
  omega

theorem eventSize_eq (size : ℕ) :
    eventSize size = ((if size ≤ int64Max then size else 0 : ℕ) : ℤ) := by
  unfold eventSize sizeToEventDelta
  by_cases large : int64Max < size
  · simp [large]
  · simp [large]

/-- The map, the accounting and the log are as before. The order number of the next event in a
shard may have advanced. -/
structure Unchanged (before after : Tracking) : Prop where
  installed : after.tablesActive = before.tablesActive ∧ after.cleanup = before.cleanup
  map : ∀ key < wordValues, entry after.root key = entry before.root key
  shards : ∀ shard, (after.shards shard).currentBytes = (before.shards shard).currentBytes
  fallback : after.fallback = before.fallback
  maximum : after.maximum = before.maximum
  log : after.log = before.log

theorem Exact.congr {after : Tracking} (exact : Exact state pending tracking blocks)
    (unchanged : Unchanged tracking after) : Exact state pending after blocks := by
  constructor
  case installed =>
    rw [unchanged.installed.1, unchanged.installed.2, unchanged.log]
    exact exact.installed
  case layout => exact exact.layout
  case map => exact fun key isKey => (unchanged.map key isKey).trans (exact.map key isKey)
  case shards => simpa only [unchanged.log, unchanged.shards] using exact.shards
  case fallback =>
    simpa only [unchanged.log, unchanged.fallback, unchanged.maximum] using exact.fallback
  case log => simpa only [unchanged.log] using exact.log
  case events => simpa only [unchanged.log] using exact.events

theorem Exact.detach_untracked (exact : Exact state pending tracking blocks)
    (isPointer : pointer < wordValues) (untracked : isTracked pointer blocks = false)
    (env : HookEnv) :
    ∃ after, tracking.detachTrackingEntry env pointer = (after, none) ∧
      Unchanged tracking after := by
  rcases trackingRadixRemove_spec tracking.root isPointer with ⟨root, removed, entries⟩
  have absent : entry tracking.root pointer = 0 := by
    rw [exact.map pointer isPointer, encoded_of_not untracked]
  rw [absent, if_pos rfl] at removed
  refine ⟨{ tracking with root := root }, ?_, ⟨rfl, rfl⟩, ?_, fun _ => rfl, rfl, rfl, rfl⟩
  · rw [detachTrackingEntry, if_neg exact.not_stopped]
    simp only [removed]
  · intro key isKey
    rw [entries key isKey]
    split
    next same => rw [same, absent]
    next => rfl

theorem Exact.detach_tracked (exact : Exact state pending tracking blocks)
    (isBlock : block ∈ blocks) (selected : block.tracked) (env : HookEnv) :
    ∃ after transition, tracking.detachTrackingEntry env block.pointer =
        (after, some (block.size, transition)) ∧
      Exact state (pending + eventSize block.size) after (eraseBlock block.pointer blocks) ∧
      after.log = tracking.log ∧ after.maximum = tracking.maximum ∧
      (tracking.log.state = .active → after.fallback = tracking.fallback ∧
        ∀ shard, (after.shards shard).currentBytes = (tracking.shards shard).currentBytes) := by
  have isPointer : block.pointer < wordValues := by
    have addressable := (exact.layout.addressable block isBlock).2
    omega
  have isEntry := exact.map block.pointer isPointer
  rw [encoded_of_mem exact.layout isBlock selected] at isEntry
  rcases trackingRadixRemove_spec tracking.root isPointer with ⟨root, removed, entries⟩
  rw [isEntry, if_neg (Nat.succ_ne_zero _), Nat.add_sub_cancel] at removed
  rcases trackingAccountRemove_spec { tracking with root := root }
    (accountingShardFor block.pointer) block.size env.removeTime with
    ⟨after, stamp, isRemoved, same, maximum, active, inactive⟩
  refine ⟨after, stamp, ?_, ?_, same.2.2.2, maximum, active⟩
  · rw [detachTrackingEntry, if_neg exact.not_stopped]
    simp only [removed, isRemoved]
  · have layout := layout_erase exact.layout block.pointer
    constructor
    case installed =>
      rw [same.1, same.2.1, same.2.2.2]
      exact exact.installed
    case layout => exact layout
    case map =>
      intro key isKey
      rw [same.2.2.1, entries key isKey, encoded_erase]
      split
      · rfl
      · exact exact.map key isKey
    case shards =>
      rw [same.2.2.2]
      intro notActive shard
      rw [(inactive notActive).2]
      have sum := sumSizes_erase exact.layout isBlock (trackedIn shard)
      have old := exact.shards notActive
      simp only [trackedIn, selected, Bool.true_and, decide_eq_true_eq] at sum
      split
      next here =>
        rw [if_pos here.symm] at sum
        rw [here] at sum
        rw [old, ← sum, here]
        exact sub_word (sumSizes_lt layout _)
      next elsewhere =>
        rw [if_neg (Ne.symm elsewhere), add_zero] at sum
        rw [old]
        exact sum.symm
    case fallback =>
      rw [same.2.2.2]
      intro notActive
      rw [(inactive notActive).1, maximum]
      have sum := sumSizes_erase exact.layout isBlock tracked
      rw [tracked, selected, if_pos rfl] at sum
      have old := exact.fallback notActive
      have now : (tracking.fallback + wordValues - block.size) % wordValues =
          sumSizes tracked (eraseBlock block.pointer blocks) := by
        rw [old.1, ← sum]
        exact sub_word (sumSizes_lt layout _)
      exact ⟨now, by simp only [now]; omega⟩
    case log =>
      rw [same.2.2.2]
      exact exact.log
    case events =>
      rw [same.2.2.2]
      intro isActive noneDropped
      have sum := sumSizes_erase exact.layout isBlock trackedSmall
      simp only [trackedSmall, selected, Bool.true_and, decide_eq_true_eq] at sum
      have events := exact.events isActive noneDropped
      rw [eventSize_eq]
      rw [events]
      omega

/-- Bytes were added to the counters of a shard, unless the log is active. -/
def Counted (before after : Tracking) (shard size : ℕ) : Prop :=
  SameTables before after ∧
    (before.log.state = .active → after.fallback = before.fallback ∧
      after.maximum = before.maximum ∧
      ∀ other, (after.shards other).currentBytes = (before.shards other).currentBytes) ∧
    (before.log.state ≠ .active → after.fallback = before.fallback + size ∧
      after.maximum = max before.maximum (before.fallback + size) ∧
      ∀ other, (after.shards other).currentBytes =
        if other = shard then (before.shards shard).currentBytes + size
        else (before.shards other).currentBytes)

/-- No count of bytes overflows. -/
def Room (tracking : Tracking) (shard size : ℕ) : Prop :=
  tracking.log.state ≠ .active →
    (tracking.shards shard).currentBytes + size ≤ sizeMax ∧ tracking.fallback + size ≤ sizeMax

theorem trackingAccountRestore_spec {shard : ℕ} (room : Room tracking shard size) :
    ∃ after, tracking.trackingAccountRestore shard size = (after, true) ∧
      Counted tracking after shard size := by
  unfold trackingAccountRestore
  by_cases active : tracking.log.state = .active
  · rw [if_pos active]
    exact ⟨_, rfl, ⟨rfl, rfl, rfl, rfl⟩, fun _ => ⟨rfl, rfl, fun _ => rfl⟩,
      fun inactive => absurd active inactive⟩
  · rcases room active with ⟨_, _⟩
    have enough : ¬ sizeMax - (tracking.shards shard).currentBytes < size := by omega
    have enough' : ¬ sizeMax - (tracking.setBytes shard
        ((tracking.shards shard).currentBytes + size)).fallback < size := by
      change ¬ sizeMax - tracking.fallback < size
      omega
    rw [if_neg active]
    rw [if_neg enough, trackingFallbackAccountAdd, if_neg enough']
    refine ⟨_, rfl, ⟨rfl, rfl, rfl, rfl⟩, fun isActive => absurd isActive active,
      fun _ => ⟨rfl, rfl, fun other => ?_⟩⟩
    by_cases same : other = shard <;> simp [setBytes, same]

theorem trackingAccountAdd_spec {shard : ℕ} (room : Room tracking shard size) (timestamp : ℕ) :
    ∃ after stamp, tracking.trackingAccountAdd shard size timestamp = (after, true, stamp) ∧
      Counted tracking after shard size := by
  have bytes : ∀ other, ((tracking.transition shard timestamp).1.shards other).currentBytes =
      (tracking.shards other).currentBytes := by
    intro other
    by_cases same : other = shard <;> simp [transition, same]
  have room' : Room (tracking.transition shard timestamp).1 shard size := by
    intro inactive
    rw [bytes]
    exact room inactive
  rcases trackingAccountRestore_spec room' with ⟨after, added, same, active, inactive⟩
  simp only [bytes] at active inactive
  refine ⟨after, (tracking.transition shard timestamp).2, ?_, same, active, inactive⟩
  rw [trackingAccountAdd, added]

section

variable (exact : Exact state pending tracking blocks)

include exact

theorem Exact.cons
    (layout : Layout (⟨pointer, size, true⟩ :: blocks)) (all : ∀ level, env.available level) :
    ∃ root, trackingRadixInsert env.available tracking.root pointer size = (root, true) ∧
      Room { tracking with root := root } (accountingShardFor pointer) size ∧
      ∀ after, Counted { tracking with root := root } after (accountingShardFor pointer) size →
        Exact state (pending - eventSize size) after (⟨pointer, size, true⟩ :: blocks) := by
  rcases layout_cons.mp layout with ⟨⟨_, addressable⟩, apart, _⟩
  simp only at addressable
  have isPointer : pointer < wordValues := by omega
  have isSize : size < sizeMax := by
    have sum := sumSizes_lt layout tracked
    exact (le_add_right _ _).trans_lt sum
  have fresh : isTracked pointer blocks = false :=
    isTracked_eq_false.mpr fun other isOther same => absurd same.symm (apart other isOther).1
  have absent : entry tracking.root pointer = 0 := by
    rw [exact.map pointer isPointer, encoded_of_not fresh]
  rcases trackingRadixInsert_spec all isPointer isSize absent with ⟨root, inserted, entries⟩
  have sumIn := fun shard => sumSizes_cons (trackedIn shard) ⟨pointer, size, true⟩ blocks
  have sumAll := sumSizes_cons tracked ⟨pointer, size, true⟩ blocks
  simp only [trackedIn, Bool.true_and, decide_eq_true_eq] at sumIn
  change _ = size + _ at sumAll
  refine ⟨root, inserted, ?_, ?_⟩
  · intro inactive
    have bound := sumSizes_lt layout (trackedIn (accountingShardFor pointer))
    have bound' := sumSizes_lt layout tracked
    rw [sumIn, if_pos rfl] at bound
    have bytes := exact.shards inactive (accountingShardFor pointer)
    have fallback := (exact.fallback inactive).1
    simp only
    omega
  · rintro after ⟨same, active, inactive⟩
    constructor
    case installed =>
      rw [same.1, same.2.1, same.2.2.2]
      exact exact.installed
    case layout => exact layout
    case map =>
      intro key isKey
      rw [same.2.2.1, entries key isKey, encoded_cons _ _ fun _ => fresh, exact.map key isKey]
      simp
    case shards =>
      rw [same.2.2.2]
      intro notActive shard
      rw [(inactive notActive).2.2, sumIn]
      have old := exact.shards notActive
      split
      next here => rw [here, if_pos rfl, old, add_comm]
      next elsewhere => rw [if_neg (Ne.symm elsewhere), zero_add, old]
    case fallback =>
      rw [same.2.2.2]
      intro notActive
      have old := (exact.fallback notActive).1
      rw [(inactive notActive).1, (inactive notActive).2.1, sumAll]
      simp only
      omega
    case log =>
      rw [same.2.2.2]
      exact exact.log
    case events =>
      rw [same.2.2.2]
      intro isActive noneDropped
      have sum := sumSizes_cons trackedSmall ⟨pointer, size, true⟩ blocks
      simp only [trackedSmall, Bool.true_and, decide_eq_true_eq] at sum
      have events := exact.events isActive noneDropped
      rw [eventSize_eq, sum, events]
      omega

theorem Exact.cons_untracked (layout : Layout (⟨pointer, size, false⟩ :: blocks)) :
    Exact state pending tracking (⟨pointer, size, false⟩ :: blocks) := by
  refine ⟨exact.installed, layout, ?_, ?_, ?_, exact.log, ?_⟩
  · intro key isKey
    rw [encoded_cons _ _ (by simp), exact.map key isKey]
    simp
  · simpa [sumSizes_cons, trackedIn] using exact.shards
  · simpa [sumSizes_cons, tracked] using exact.fallback
  · simpa [sumSizes_cons, trackedSmall] using exact.events

theorem Exact.erase_untracked (untracked : isTracked pointer blocks = false) :
    Exact state pending tracking (eraseBlock pointer blocks) := by
  have notTracked := isTracked_eq_false.mp untracked
  refine ⟨exact.installed, layout_erase exact.layout pointer, ?_, ?_, ?_, exact.log, ?_⟩
  · intro key isKey
    rw [encoded_erase, exact.map key isKey]
    split
    next same => rw [same, encoded_of_not untracked]
    next => rfl
  · intro inactive shard
    rw [sumSizes_erase_of_not, exact.shards inactive]
    intro block isBlock isPointer
    simp [trackedIn, notTracked block isBlock isPointer]
  · rw [sumSizes_erase_of_not]
    · exact exact.fallback
    · exact notTracked
  · rw [sumSizes_erase_of_not]
    · exact exact.events
    · intro block isBlock isPointer
      simp [trackedSmall, notTracked block isBlock isPointer]

end

theorem Exact.addTrackingEntry (exact : Exact state 0 tracking blocks)
    (layout : Layout (⟨pointer, size, env.selected⟩ :: blocks))
    (all : ∀ level, env.available level) :
    Exact state 0 (tracking.addTrackingEntry env pointer size)
      (⟨pointer, size, env.selected⟩ :: blocks) := by
  unfold Tracking.addTrackingEntry
  rw [if_neg exact.not_stopped]
  rcases selected : env.selected with _ | _
  · rw [selected] at layout
    exact exact.cons_untracked layout
  · rw [selected] at layout
    rcases exact.cons layout all with ⟨_, inserted, room, counted⟩
    rcases trackingAccountAdd_spec room env.addTime with ⟨after, stamp, added, isCounted⟩
    have published := (counted after isCounted).publish env .add (sizeToEventDelta size) stamp
    simp only [inserted, added]
    rwa [eventSize, Int.sub_add_cancel] at published

theorem Exact.commitReallocatedEntry (exact : Exact state pending tracking blocks)
    (layout : Layout (⟨pointer, size, true⟩ :: blocks))
    (all : ∀ level, env.available level) :
    ∃ after stamp, tracking.commitReallocatedEntry env pointer size = (after, some stamp) ∧
      Exact state (pending - eventSize size) after (⟨pointer, size, true⟩ :: blocks) := by
  rcases exact.cons layout all with ⟨_, inserted, room, counted⟩
  rcases trackingAccountAdd_spec room env.addTime with ⟨after, stamp, added, isCounted⟩
  refine ⟨after, stamp, ?_, counted after isCounted⟩
  simp only [Tracking.commitReallocatedEntry, inserted, added]

theorem layout_of_fresh (layout : Layout blocks) (fresh : Fresh blocks size pointer)
    (nonzero : pointer ≠ 0) (isTracked : Bool) : Layout (⟨pointer, size, isTracked⟩ :: blocks) := by
  rcases fresh with isNull | ⟨addressable, apart⟩
  · exact absurd isNull nonzero
  · exact layout_cons.mpr ⟨addressable, apart, layout⟩

theorem Exact.entered (exact : Exact state pending tracking blocks)
    (application : env.inHook = false) : ¬ tracking.mallocHookEnter env ≠ .tracking := by
  simp [mallocHookEnter, application, exact.installed.2.1]

theorem Exact.trackResult (exact : Exact state 0 tracking blocks) (application : env.inHook = false)
    (all : ∀ level, env.available level) (fresh : Fresh blocks size pointer) :
    Exact state 0 (tracking.trackResult env size pointer)
      (addBlock size pointer env.selected blocks) := by
  unfold Tracking.trackResult addBlock
  rw [if_neg (exact.entered application)]
  split
  · exact exact
  next nonzero =>
    exact exact.addTrackingEntry (layout_of_fresh exact.layout fresh nonzero _) all

theorem eraseBlock_zero (layout : Layout blocks) : eraseBlock 0 blocks = blocks := by
  rw [eraseBlock, filter_eq_self]
  intro block isBlock
  simpa using (layout.addressable block isBlock).1

theorem Exact.publishRemovedEntry (exact : Exact state (0 + eventSize size) tracking blocks)
    (stamp : Transition) : Exact state 0 (tracking.publishRemovedEntry env size stamp) blocks := by
  have published :=
    exact.publish env .remove ((sizeToEventDelta size).map fun delta => -delta) stamp
  rcases isDelta : sizeToEventDelta size with _ | delta <;>
    simpa [Tracking.publishRemovedEntry, eventSize, isDelta] using published

theorem Exact.customFree (exact : Exact state 0 tracking blocks) (application : env.inHook = false)
    (isPointer : pointer < wordValues) :
    Exact state 0 (tracking.customFree env pointer) (eraseBlock pointer blocks) := by
  unfold Tracking.customFree
  split
  next isNull =>
    rw [isNull, eraseBlock_zero exact.layout]
    exact exact
  next =>
    rw [if_neg (exact.entered application)]
    rcases isTracked : isTracked pointer blocks with _ | _
    · rcases exact.detach_untracked isPointer isTracked env with ⟨_, detached, unchanged⟩
      rw [detached]
      exact (exact.erase_untracked isTracked).congr unchanged
    · rcases isTracked_iff.mp isTracked with ⟨_, isBlock, rfl, selected⟩
      rcases exact.detach_tracked isBlock selected env with
        ⟨_, stamp, detached, later, _⟩
      rw [detached]
      exact later.publishRemovedEntry stamp

theorem layout_restore (layout : Layout blocks) (isBlock : block ∈ blocks) :
    Layout (block :: eraseBlock block.pointer blocks) := by
  refine layout_cons.mpr ⟨layout.addressable block isBlock, ?_, layout_erase layout _⟩
  intro other isOther
  simp only [eraseBlock, mem_filter, decide_eq_true_eq] at isOther
  have symmetric : Std.Symm Block.Apart :=
    ⟨fun _ _ apart => ⟨apart.1.symm, apart.2.symm⟩⟩
  exact layout.apart.forall isBlock isOther.1
    fun same => isOther.2 (congrArg Block.pointer same.symm)

theorem sumSizes_restore (layout : Layout blocks) (isBlock : block ∈ blocks)
    (selects : Block → Bool) :
    sumSizes selects (block :: eraseBlock block.pointer blocks) = sumSizes selects blocks := by
  rw [sumSizes_cons, add_comm, sumSizes_erase layout isBlock]

theorem Exact.restore (exact : Exact state pending tracking blocks) (isBlock : block ∈ blocks)
    (selected : block.tracked) (all : ∀ level, env.available level) :
    ∃ detached stamp, tracking.detachTrackingEntry env block.pointer =
        (detached, some (block.size, stamp)) ∧
      Unchanged tracking (detached.restoreTrackingEntry env block.pointer block.size) := by
  rcases exact.detach_tracked isBlock selected env with
    ⟨detached, stamp, isDetached, later, sameLog, sameMaximum, active⟩
  have isBlock' : (⟨block.pointer, block.size, true⟩ : Block) = block := by rw [← selected]
  have layout := layout_restore exact.layout isBlock
  rw [← isBlock'] at layout
  rcases later.cons layout all with ⟨_, inserted, room, counted⟩
  rcases trackingAccountRestore_spec room with ⟨after, restored, isCounted⟩
  have final := counted after isCounted
  rcases isCounted with ⟨same, countedActive, countedInactive⟩
  rw [isBlock'] at final
  refine ⟨detached, stamp, isDetached, ?_⟩
  have isRestored : detached.restoreTrackingEntry env block.pointer block.size = after := by
    simp only [restoreTrackingEntry, inserted, restored]
  rw [isRestored]
  have log : after.log = tracking.log := same.2.2.2.trans sameLog
  constructor
  case installed =>
    exact ⟨final.installed.1.trans exact.installed.1.symm,
      final.installed.2.1.trans exact.installed.2.1.symm⟩
  case map =>
    intro key isKey
    have absent : isTracked block.pointer (eraseBlock block.pointer blocks) = false := by
      rw [isTracked_erase, if_pos rfl]
    rw [final.map key isKey, exact.map key isKey, encoded_cons _ _ fun _ => absent, encoded_erase]
    by_cases here : key = block.pointer
    · rw [if_pos ⟨selected, here⟩, here, encoded_of_mem exact.layout isBlock selected]
    · rw [if_neg fun both => here both.2, if_neg here]
  case shards =>
    intro shard
    by_cases isActive : tracking.log.state = .active
    · exact ((countedActive (sameLog ▸ isActive)).2.2 shard).trans ((active isActive).2 shard)
    · rw [final.shards (log ▸ isActive), exact.shards isActive,
        sumSizes_restore exact.layout isBlock]
  case fallback =>
    by_cases isActive : tracking.log.state = .active
    · exact (countedActive (sameLog ▸ isActive)).1.trans (active isActive).1
    · rw [(final.fallback (log ▸ isActive)).1, (exact.fallback isActive).1,
        sumSizes_restore exact.layout isBlock]
  case maximum =>
    by_cases isActive : tracking.log.state = .active
    · exact (countedActive (sameLog ▸ isActive)).2.1.trans sameMaximum
    · have counts := countedInactive (sameLog ▸ isActive)
      have old := exact.fallback isActive
      have now := (final.fallback (log ▸ isActive)).1
      rw [sumSizes_restore exact.layout isBlock] at now
      simp only at counts
      omega
  case log => exact log

theorem Exact.realloc_failed {errno : ℕ} (exact : Exact state 0 tracking blocks)
    (application : env.inHook = false) (all : ∀ level, env.available level)
    (isPointer : pointer < wordValues) (failure : pointer ≠ 0 → size = 0 → errno = enomem) :
    Unchanged tracking (tracking.customRealloc env pointer size 0 errno) := by
  have same : Unchanged tracking tracking :=
    ⟨⟨rfl, rfl⟩, fun _ _ => rfl, fun _ => rfl, rfl, rfl, rfl⟩
  unfold customRealloc
  rw [if_neg (exact.entered application)]
  split
  · rw [Tracking.trackResult, if_neg (exact.entered application), if_pos rfl]
    exact same
  next nonzero =>
    have isFailure : 0 = 0 ∧ (size ≠ 0 ∨ errno = enomem) := by
      refine ⟨rfl, ?_⟩
      by_cases isZero : size = 0
      · exact .inr (failure nonzero isZero)
      · exact .inl isZero
    rw [if_pos isFailure]
    rcases isTracked : isTracked pointer blocks with _ | _
    · rcases exact.detach_untracked isPointer isTracked env with ⟨_, detached, unchanged⟩
      rw [detached]
      exact unchanged
    · rcases isTracked_iff.mp isTracked with ⟨_, isBlock, rfl, selected⟩
      rcases exact.restore isBlock selected all with ⟨_, _, isDetached, unchanged⟩
      rw [isDetached]
      exact unchanged

theorem Exact.finishRealloc {result : ℕ} (exact : Exact state 0 tracking blocks)
    (all : ∀ level, env.available level) (isPointer : pointer < wordValues)
    (fresh : Fresh (eraseBlock pointer blocks) size result) :
    Exact state 0 ((tracking.detachTrackingEntry env pointer).1.finishRealloc env
        (tracking.detachTrackingEntry env pointer).2 size result)
      (addBlock size result (isTracked pointer blocks || env.selected)
        (eraseBlock pointer blocks)) := by
  unfold addBlock
  rcases isTracked : isTracked pointer blocks with _ | _
  · rcases exact.detach_untracked isPointer isTracked env with ⟨_, detached, unchanged⟩
    have later := (exact.erase_untracked isTracked).congr unchanged
    rw [detached, Tracking.finishRealloc, Bool.false_or]
    split
    · exact later
    next nonzero => exact later.addTrackingEntry (layout_of_fresh later.layout fresh nonzero _) all
  · rcases isTracked_iff.mp isTracked with ⟨block, isBlock, rfl, selected⟩
    rcases exact.detach_tracked isBlock selected env with ⟨after, stamp, detached, later, _⟩
    have published : Exact state 0 (after.publishRemovedEntry env block.size stamp) _ :=
      later.publishRemovedEntry stamp
    rw [detached, finishRealloc, Bool.true_or]
    simp only
    split
    · exact published
    next nonzero =>
      have layout := layout_of_fresh published.layout fresh nonzero true
      rcases published.commitReallocatedEntry layout all with ⟨_, stamp, committed, later⟩
      rw [committed]
      have final := later.publish env .add (sizeToEventDelta size) stamp
      rwa [eventSize, Int.sub_add_cancel] at final

theorem isTracked_zero (layout : Layout blocks) : isTracked 0 blocks = false :=
  isTracked_eq_false.mpr fun block isBlock isNull =>
    absurd isNull (layout.addressable block isBlock).1

theorem Exact.customRealloc {outcome : ReallocOutcome} {errno : ℕ}
    (exact : Exact state 0 tracking blocks) (application : env.inHook = false)
    (all : ∀ level, env.available level)
    (behaved : WellBehaved blocks (.realloc pointer size outcome errno)) :
    Exact state 0 (tracking.customRealloc env pointer size outcome.result errno)
      (blocksAfter env.selected blocks (.realloc pointer size outcome errno)) := by
  rcases behaved with ⟨isPointer, behaved⟩
  cases outcome with
  | failed =>
    have unchanged := exact.realloc_failed application all isPointer behaved
    exact exact.congr unchanged
  | released =>
    rcases behaved with ⟨nonzero, isZero, noFailure⟩
    unfold Tracking.customRealloc
    rw [if_neg (exact.entered application), if_neg nonzero]
    rw [if_neg (by simp [isZero, noFailure])]
    exact exact.finishRealloc all isPointer (.inl rfl)
  | moved result =>
    rcases behaved with ⟨nonzero, fresh⟩
    change Exact state 0 (tracking.customRealloc env pointer size result errno)
      (addBlock size result (isTracked pointer blocks || env.selected) (eraseBlock pointer blocks))
    unfold Tracking.customRealloc
    rw [if_neg (exact.entered application)]
    split
    next isNull =>
      subst isNull
      rw [eraseBlock_zero exact.layout] at fresh
      have tracked := exact.trackResult application all fresh
      rwa [isTracked_zero exact.layout, eraseBlock_zero exact.layout, Bool.false_or]
    next =>
      rw [if_neg fun failure => nonzero failure.1]
      exact exact.finishRealloc all isPointer fresh

theorem mul_lt_word {count : ℕ} (small : ¬ (size ≠ 0 ∧ sizeMax / size < count)) :
    count * size % wordValues = count * size := by
  apply mod_eq_of_lt
  by_cases isZero : size = 0
  · rw [isZero, mul_zero]
    decide
  · have le : count ≤ sizeMax / size := Nat.le_of_not_lt fun large => small ⟨isZero, large⟩
    have product := Nat.mul_le_of_le_div _ _ _ le
    unfold wordValues
    unfold sizeMax at product
    omega

variable {process : Process}

theorem Exact.step {call : AllocationCall} (exact : Exact state 0 process.tracking process.blocks)
    (application : env.inHook = false) (all : ∀ level, env.available level)
    (behaved : WellBehaved process.blocks call) :
    Exact state 0 (process.step (env, call)).tracking (process.step (env, call)).blocks := by
  cases call with
  | malloc => exact exact.trackResult application all behaved
  | calloc =>
    simp only [Process.step, hook, customCalloc, blocksAfter]
    rw [if_neg (exact.entered application)]
    split
    · exact exact
    next small =>
      rw [mul_lt_word small]
      exact exact.trackResult application all behaved
  | alignedAlloc => exact exact.trackResult application all behaved
  | posixMemalign =>
    simp only [Process.step, hook, customPosixMemalign, blocksAfter]
    split
    · exact exact
    next success => exact exact.trackResult application all (behaved (not_not.mp success))
  | realloc => exact exact.customRealloc application all behaved
  | free => exact exact.customFree application behaved

theorem Exact.run {calls : List (HookEnv × AllocationCall)}
    (exact : Exact state 0 process.tracking process.blocks) (behaves : process.Behaves calls) :
    Exact state 0 (process.run calls).tracking (process.run calls).blocks := by
  induction calls generalizing process with
  | nil => exact exact
  | cons _ _ rest =>
    rcases behaves with ⟨⟨application, all⟩, behaved, behaves⟩
    exact rest (exact.step application all behaved) behaves

theorem openLog_cases {log : MemLog} (pageSize capacity : ℕ) (prepared : Bool)
    (thread timestamp tid : ℕ)
    (isLog : log = openLog pageSize capacity prepared thread timestamp tid) :
    log.state ≠ .active ∨ (∃ threads handed, LogSound threads log handed) ∧
      (log.dropped = 0 → writtenDelta log = 0) := by
  subst isLog
  rcases start_cases pageSize capacity prepared with isUnavailable | ⟨_, _, _, started, _, _⟩
  · left
    rw [openLog, isUnavailable, frame_logEvent.1]
    decide
  · right
    rcases writtenDelta_logEvent ⟨{thread}, [], started.sound {thread}⟩ started.active thread
      (openingEvent timestamp tid) with ⟨after, _, isLog, _, sound, count⟩
    rw [openLog, isLog]
    refine ⟨sound, fun noneDropped => ?_⟩
    rcases count with ⟨_, written⟩ | dropped
    · have nothing : writtenDelta (start pageSize capacity prepared) = 0 := by
        simp [writtenDelta, compactCommitted, started.reserved]
      rw [written, nothing]
      rfl
    · change after.dropped = 0 at noneDropped
      omega

theorem exact_attach {log : MemLog} (layout : Layout blocks)
    (untracked : ∀ block ∈ blocks, block.tracked = false)
    (opened : log.state ≠ .active ∨ (∃ threads handed, LogSound threads log handed) ∧
      (log.dropped = 0 → writtenDelta log = 0)) :
    Exact log.state 0 (attach log blocks).tracking (attach log blocks).blocks := by
  change Exact log.state 0 _ blocks
  constructor
  case installed => exact ⟨rfl, rfl, rfl⟩
  case layout => exact layout
  case map =>
    intro key _
    have notTracked : isTracked key blocks = false :=
      isTracked_eq_false.mpr fun block isBlock _ => untracked block isBlock
    rw [encoded_of_not notTracked]
    exact (value_absent key : value radixIndex (.absent : Node 5) key = 0)
  case shards =>
    intro _ shard
    exact (sumSizes_eq_zero (by simp +contextual [trackedIn, untracked])).symm
  case fallback =>
    intro _
    exact ⟨(sumSizes_eq_zero untracked).symm, le_refl _⟩
  case log =>
    intro active
    rcases opened with inactive | ⟨sound, _⟩
    · exact absurd active inactive
    · exact sound
  case events =>
    intro active noneDropped
    rcases opened with inactive | ⟨_, written⟩
    · exact absurd active inactive
    · rw [sumSizes_eq_zero (by simp +contextual [trackedSmall, untracked])]
      exact written noneDropped

theorem Exact.entry_iff (exact : Exact state pending tracking blocks) (isKey : key < wordValues)
    (size : ℕ) : entry tracking.root key = size + 1 ↔ ⟨key, size, true⟩ ∈ blocks := by
  rw [exact.map key isKey]
  constructor
  · intro isEntry
    rcases isTracked : isTracked key blocks with _ | _
    · rw [encoded_of_not isTracked] at isEntry
      cases isEntry
    · rcases isTracked_iff.mp isTracked with ⟨block, isBlock, rfl, selected⟩
      rw [encoded_of_mem exact.layout isBlock selected] at isEntry
      have same : (⟨block.pointer, size, true⟩ : Block) = block := by
        rw [← selected, ← succ.inj isEntry]
      rw [same]
      exact isBlock
  · intro isBlock
    exact encoded_of_mem exact.layout isBlock rfl

/-- The map, the counts and the log describe the live blocks. -/
structure Accurate (state : MemLogState) (process : Process) : Prop where
  map : ∀ key < wordValues, ∀ size,
    entry process.tracking.root key = size + 1 ↔ ⟨key, size, true⟩ ∈ process.blocks
  shards : state ≠ .active → ∀ shard, (process.tracking.shards shard).currentBytes =
    sumSizes (trackedIn shard) process.blocks
  current : state ≠ .active → process.tracking.fallback = sumSizes tracked process.blocks
  events : state = .active → process.tracking.log.dropped = 0 →
    (∀ block ∈ process.blocks, block.tracked → block.size ≤ int64Max) →
    writtenDelta process.tracking.log = sumSizes tracked process.blocks
  failedRealloc : ∀ env pointer size errno, env.inHook = false →
    (∀ level, env.available level) →
    WellBehaved process.blocks (.realloc pointer size .failed errno) →
    Unchanged process.tracking (process.step (env, .realloc pointer size .failed errno)).tracking

theorem Exact.accurate (exact : Exact state 0 process.tracking process.blocks) :
    Accurate state process := by
  have isState := exact.installed.2.2
  constructor
  case map => exact fun key isKey size => exact.entry_iff isKey size
  case shards =>
    intro inactive
    exact exact.shards (isState ▸ inactive)
  case current =>
    intro inactive
    exact (exact.fallback (isState ▸ inactive)).1
  case events =>
    intro active noneDropped small
    have written := exact.events (isState.trans active) noneDropped
    have same : sumSizes trackedSmall process.blocks = sumSizes tracked process.blocks := by
      unfold sumSizes
      congr 2
      apply filter_congr
      intro block isBlock
      by_cases selected : block.tracked
      · simp [trackedSmall, tracked, small block isBlock selected]
      · simp [trackedSmall, tracked, selected]
    rw [written, same, Int.add_zero]
  case failedRealloc =>
    intro env pointer size errno application all behaved
    exact exact.realloc_failed application all behaved.1 behaved.2

/-- The tracking state is accurate after any calls of the hooks. -/
theorem accurate_run (pageSize capacity : ℕ) (prepared : Bool) (thread timestamp tid : ℕ)
    (blocks : List Block) (layout : Layout blocks)
    (untracked : ∀ block ∈ blocks, block.tracked = false)
    (calls : List (HookEnv × AllocationCall))
    (behaves : (attach (openLog pageSize capacity prepared thread timestamp tid)
      blocks).Behaves calls) :
    Accurate (openLog pageSize capacity prepared thread timestamp tid).state
      ((attach (openLog pageSize capacity prepared thread timestamp tid) blocks).run
        calls) := by
  have start := exact_attach layout untracked
    (openLog_cases pageSize capacity prepared thread timestamp tid rfl)
  exact (start.run behaves).accurate

def hooked (call : AllocationCall) : HookEnv × AllocationCall :=
  (⟨0, 1, false, true, 0, 0, fun _ => true⟩, call)

theorem behaves_hooked {process : Process} {call : AllocationCall} {calls}
    (behaved : WellBehaved process.blocks call)
    (later : (process.step (hooked call)).Behaves calls) :
    process.Behaves (hooked call :: calls) :=
  ⟨⟨rfl, fun _ => rfl⟩, behaved, later⟩

/-- A block is moved, grows in place and cannot grow further. Another one is freed, and one from
before the hooks. -/
def blockLife : List (HookEnv × AllocationCall) :=
  [.malloc 8 4096, .calloc 4 4 5120, .realloc 4096 24 (.moved 12288) 0,
    .realloc 12288 32 (.moved 12288) 0, .realloc 12288 (2 ^ 40) .failed enomem,
    .realloc 5120 0 .released 0, .malloc 16 4096, .free 8192, .free 4096].map hooked

theorem accurate_run_blockLife : ∃ process,
    process = (attach (openLog 4096 64 true 0 0 1) [⟨8192, 16, false⟩]).run blockLife ∧
      process.blocks = [⟨12288, 32, true⟩] ∧
      Accurate (openLog 4096 64 true 0 0 1).state process := by
  refine ⟨_, rfl, by decide, accurate_run 4096 64 true 0 0 1 _ ?_ (by simp) blockLife ?_⟩
  · exact ⟨pairwise_singleton .., by simp; decide⟩
  · unfold blockLife
    repeat' apply behaves_hooked
    all_goals first | exact trivial | decide +kernel

def mallocEight : HookEnv × AllocationCall :=
  hooked (.malloc 8 4096)

/-- In a log with one place, which the first event takes, the event of the block is dropped. -/
theorem writtenDelta_full_log :
    (attach (openLog 4096 1 true 0 0 1) []).Behaves [mallocEight] ∧
      (openLog 4096 1 true 0 0 1).state = .active ∧
      writtenDelta
          ((attach (openLog 4096 1 true 0 0 1) []).run [mallocEight]).tracking.log ≠
        sumSizes tracked
          ((attach (openLog 4096 1 true 0 0 1) []).run [mallocEight]).blocks := by
  refine ⟨behaves_hooked (by decide) trivial, ?_⟩
  decide +kernel

end Peak.Memory
