import Peak.Memory.Log

/-!
# How many events a memory log keeps

A place of the log is handed out at most once, and every attempt to write an event is exported or
counted as dropped. A log has room for the unused part of the blocks of `maxTrackedThreads` threads.
Threads that have exited leave such a part behind too, so that the configured number of events is
kept exactly as long as few enough threads write at all.
-/

namespace Peak.Memory

open BlockReservation Finset Option

namespace MemLog

variable {log after : MemLog} {threads : Finset ℕ} {handed : List ℕ} {thread index : ℕ}
  {event : MemEvent} {writes : List Write}

def block (log : MemLog) : ℕ :=
  if log.storage ≠ log.capacity then reservationBlock else 1

theorem block_pos (log : MemLog) : 1 ≤ log.block := by
  unfold block reservationBlock
  split <;> omega

/-- Every event is stored at an index of its own. -/
structure LogSound (threads : Finset ℕ) (log : MemLog) (handed : List ℕ) : Prop where
  blocks : Sound log.block log.storage threads ⟨log.reserved, log.reservations⟩ handed
  stored : ∀ index, (log.events index).isSome ↔ index ∈ handed

def SameShape (log after : MemLog) : Prop :=
  after.state = log.state ∧ after.mapped = log.mapped ∧ after.capacity = log.capacity ∧
    after.storage = log.storage

theorem SameShape.refl (log : MemLog) : SameShape log log :=
  ⟨rfl, rfl, rfl, rfl⟩

theorem SameShape.trans {middle : MemLog} (first : SameShape log middle)
    (second : SameShape middle after) : SameShape log after :=
  ⟨second.1.trans first.1, second.2.1.trans first.2.1, second.2.2.1.trans first.2.2.1,
    second.2.2.2.trans first.2.2.2⟩

theorem SameShape.block (same : SameShape log after) : after.block = log.block := by
  rw [MemLog.block, MemLog.block, same.2.2.1, same.2.2.2]

theorem LogSound.no_reserve (sound : LogSound threads log handed)
    (same : log.storage = log.capacity) :
    (log.reservations thread).next = (log.reservations thread).stop := by
  have ordered := sound.blocks.ordered thread
  have short := sound.blocks.short thread
  simp only [unused, block, same, ne_eq, not_true_eq_false, if_false] at ordered short
  omega

theorem LogSound.reserveSlot (sound : LogSound threads log handed) (notFull : log.full = false) :
    log.reserveSlot thread =
      match take log.block log.storage ⟨log.reserved, log.reservations⟩ thread with
      | (blocks, some index) =>
        ({ log with
            reserved := blocks.reserved
            reservations := blocks.spans }, some index)
      | (blocks, none) =>
        ({ log with
            reserved := blocks.reserved
            full := true
            dropped := log.dropped + 1 }, none) := by
  unfold MemLog.reserveSlot take
  rw [notFull]
  by_cases same : log.storage = log.capacity
  · have empty : (log.reservations thread).next = (log.reservations thread).stop :=
      sound.no_reserve same
    by_cases exhausted : log.capacity ≤ log.reserved <;> simp [same, empty, block, exhausted]
  · by_cases empty : (log.reservations thread).next = (log.reservations thread).stop
    · by_cases exhausted : log.storage ≤ log.reserved <;>
        simp [empty, block, exhausted]
    · simp [same, empty]

theorem LogSound.logEvent (sound : LogSound threads log handed) (active : log.state = .active)
    (isThread : thread ∈ threads) (event : MemEvent) :
    (∃ after index, log.logEvent thread event = (after, .stored index) ∧
        LogSound threads after (index :: handed) ∧ SameShape log after ∧
        after.full = log.full ∧ after.dropped = log.dropped ∧
        after.events = Function.update log.events index (some event)) ∨
      ∃ after, log.logEvent thread event = (after, .dropped) ∧ LogSound threads after handed ∧
        SameShape log after ∧ after.full ∧ after.dropped = log.dropped + 1 ∧
        after.events = log.events ∧
        (log.full = true ∨ log.storage ≤ handed.length + (log.block - 1) * (threads.card - 1)) := by
  unfold MemLog.logEvent
  rw [if_neg (not_not.mpr active)]
  by_cases full : log.full
  · refine .inr ⟨{ log with dropped := log.dropped + 1 }, ?_, ⟨sound.blocks, sound.stored⟩,
      SameShape.refl log, full, rfl, rfl, .inl full⟩
    simp [MemLog.reserveSlot, full]
  · rw [sound.reserveSlot (by simpa using full)]
    rcases taken : take log.block log.storage ⟨log.reserved, log.reservations⟩ thread with
      ⟨blocks, _ | index⟩
    · rcases sound.blocks.take_none isThread taken with ⟨later, exhausted⟩
      have same : blocks.spans = log.reservations := by
        unfold take at taken
        simp only [ite_not] at taken
        split at taken
        · split at taken <;> cases taken
          rfl
        · cases taken
      refine .inr ⟨_, rfl, ⟨?_, sound.stored⟩, SameShape.refl _, rfl, rfl, rfl, .inr exhausted⟩
      rw [← same]
      exact later
    · have later := sound.blocks.take_some (block_pos log) isThread taken
      refine .inl ⟨_, index, rfl, ⟨later, ?_⟩, SameShape.refl _, rfl, rfl, rfl⟩
      intro other
      by_cases isIndex : other = index
      · simp [isIndex]
      · simpa [isIndex] using sound.stored other

theorem record_append (log : MemLog) (first second : List Write) :
    (log.record (first ++ second)).1 = ((log.record first).1.record second).1 ∧
      (log.record (first ++ second)).2 =
        (log.record first).2 ++ ((log.record first).1.record second).2 := by
  induction first generalizing log with
  | nil => exact ⟨rfl, rfl⟩
  | cons _ _ rest =>
    refine ⟨(rest _).1, ?_⟩
    simp only [List.cons_append, record, (rest _).2]

theorem indexes_cons_stored (index : ℕ) (results : List WriteResult) :
    indexes (.stored index :: results) = index :: indexes results :=
  rfl

theorem indexes_cons_dropped (results : List WriteResult) :
    indexes (.dropped :: results) = indexes results :=
  rfl

section

variable (sound : LogSound threads log handed)

include sound

theorem LogSound.record (active : log.state = .active)
    (areThreads : ∀ write ∈ writes, write.thread ∈ threads) :
    LogSound threads (log.record writes).1 ((indexes (log.record writes).2).reverse ++ handed) ∧
      SameShape log (log.record writes).1 ∧
      attempts (log.record writes).2 + log.dropped =
        (indexes (log.record writes).2).length + (log.record writes).1.dropped := by
  induction writes generalizing log handed with
  | nil => exact ⟨sound, SameShape.refl log, rfl⟩
  | cons write _ rest =>
    rw [List.forall_mem_cons] at areThreads
    rcases sound.logEvent active areThreads.1 write.event with
      ⟨after, _, isStored, later, same, _, dropped, _⟩ |
      ⟨after, isDropped, later, same, _, dropped, _⟩
    · rcases rest later (same.1.trans active) areThreads.2 with ⟨later, same', balance⟩
      simp only [record, isStored, indexes_cons_stored, List.reverse_cons, List.append_assoc]
      refine ⟨later, same.trans same', ?_⟩
      simp only [attempts, List.length_cons] at balance ⊢
      rw [List.countP_cons_of_pos (by simp)]
      omega
    · rcases rest later (same.1.trans active) areThreads.2 with ⟨later, same', balance⟩
      simp only [record, isDropped, indexes_cons_dropped]
      refine ⟨later, same.trans same', ?_⟩
      simp only [attempts] at balance ⊢
      rw [List.countP_cons_of_pos (by simp)]
      omega

theorem LogSound.kept (active : log.state = .active)
    (areThreads : ∀ write ∈ writes, write.thread ∈ threads)
    (room : log.capacity + (log.block - 1) * (threads.card - 1) ≤ log.storage)
    (full : log.full → log.capacity ≤ handed.length) {before later : List WriteResult}
    (split : (log.record writes).2 = before ++ .dropped :: later) :
    log.capacity ≤ (indexes before).length + handed.length := by
  induction writes generalizing log handed before with
  | nil => simp [MemLog.record] at split
  | cons write _ rest =>
    rw [List.forall_mem_cons] at areThreads
    rcases sound.logEvent active areThreads.1 write.event with
      ⟨after, _, isStored, later, same, sameFull, _, _⟩ |
      ⟨after, _, later, same, _, _, _, reason⟩
    · simp only [MemLog.record, isStored] at split
      rcases before with _ | ⟨_, _⟩
      · cases split
      · rcases List.cons.inj split with ⟨rfl, tail⟩
        have kept := rest later (same.1.trans active) areThreads.2
          (by rw [same.2.2.1, same.2.2.2, same.block]; exact room)
          (by
            rw [sameFull, same.2.2.1]
            exact fun isFull => (full isFull).trans (Nat.le_succ _)) tail
        rw [same.2.2.1] at kept
        simp only [indexes_cons_stored, List.length_cons] at kept ⊢
        omega
    · have enough : log.capacity ≤ handed.length := by
        rcases reason with isFull | exhausted
        · exact full isFull
        · omega
      omega

theorem LogSound.compact : log.compactCommitted.Perm (handed.filterMap log.events) := by
  have places : handed.Perm ((List.range (min log.reserved log.storage)).filter
      fun index => (log.events index).isSome) := by
    rw [List.perm_ext_iff_of_nodup sound.blocks.distinct (List.nodup_range.filter _)]
    intro index
    simp only [List.mem_filter, List.mem_range]
    rw [sound.stored]
    exact ⟨fun isHanded => ⟨sound.blocks.below index isHanded, isHanded⟩, fun both => both.2⟩
  have same : log.compactCommitted = ((List.range (min log.reserved log.storage)).filter
      fun index => (log.events index).isSome).filterMap log.events := by
    rw [compactCommitted, List.filterMap_filter]
    apply List.filterMap_congr
    intro index _
    rcases log.events index with _ | event <;> rfl
  rw [same]
  exact (places.filterMap _).symm

theorem LogSound.length_compact : log.compactCommitted.length = handed.length := by
  rw [sound.compact.length_eq, List.length_filterMap_eq_countP, List.countP_eq_length]
  exact fun index isHanded => (sound.stored index).mpr isHanded

end

/-- What is promised of a log which is opened and then written to. The first of the writes is
the one that opens the log. -/
structure CapacityLaw (log : MemLog) (writes : List Write) : Prop where
  kept : ∀ before later, (log.record writes).2 = before ++ .dropped :: later →
    log.capacity ≤ (indexes before).length
  distinct : (indexes (log.record writes).2).Nodup
  below : ∀ index ∈ indexes (log.record writes).2, index < log.storage
  balance : (log.record writes).1.finalize.2.length + (log.record writes).1.finalize.1.dropped =
    attempts (log.record writes).2

def writers (writes : List Write) : Finset ℕ :=
  (writes.map Write.thread).toFinset

theorem mem_writers {write : Write} (isWrite : write ∈ writes) : write.thread ∈ writers writes :=
  List.mem_toFinset.mpr (List.mem_map_of_mem isWrite)

theorem record_disabled (log : MemLog) (inactive : log.state ≠ .active) (writes : List Write) :
    log.record writes = (log, List.replicate writes.length .inactive) := by
  induction writes with
  | nil => rfl
  | cons write _ rest =>
    have refused : log.logEvent write.thread write.event = (log, .inactive) := if_pos inactive
    simp only [record, refused, rest, List.length_cons, List.replicate_succ]

theorem capacityLaw_unavailable : CapacityLaw unavailable writes := by
  have refused := record_disabled unavailable (by decide) writes
  have nothing : indexes (List.replicate writes.length .inactive) = [] := by
    simp [indexes]
  constructor
  · intro before later split
    exact Nat.zero_le _
  · simp [refused, nothing]
  · simp [refused, nothing]
  · rw [refused]
    simp [unavailable, finalize, initial, attempts, List.countP_replicate]

structure Started (log : MemLog) : Prop where
  active : log.state = .active
  mapped : log.mapped
  dropped : log.dropped = 0
  full : log.full = false
  reserved : log.reserved = 0
  reservations : log.reservations = fun _ => ⟨0, 0⟩
  events : log.events = fun _ => none

theorem Started.sound (started : Started log) (threads : Finset ℕ) : LogSound threads log [] := by
  constructor
  · rw [started.reserved, started.reservations]
    exact sound_empty threads
  · simp [started.events]

theorem Started.balance (started : Started log) (writes : List Write) :
    (log.record writes).1.finalize.2.length + (log.record writes).1.finalize.1.dropped =
      attempts (log.record writes).2 := by
  rcases (started.sound (writers writes)).record started.active (fun _ => mem_writers) with
    ⟨sound, same, balance⟩
  have isActive := same.1.trans started.active
  have isMapped := same.2.1.trans started.mapped
  have count := sound.length_compact
  rw [started.dropped] at balance
  simp only [finalize, isActive, isMapped, Bool.not_true, Bool.false_eq_true, if_false,
    List.length_take, count, List.length_append, List.length_reverse, List.length_nil]
  omega

theorem Started.capacityLaw (started : Started log)
    (room : log.capacity + (log.block - 1) * ((writers writes).card - 1) ≤ log.storage) :
    CapacityLaw log writes := by
  have sound := started.sound (writers writes)
  rcases sound.record started.active (fun _ => mem_writers) with ⟨later, same, _⟩
  rw [List.append_nil] at later
  constructor
  · intro before later split
    have kept := sound.kept started.active (fun _ => mem_writers) room
      (by simp [started.full]) split
    simpa using kept
  · exact List.nodup_reverse.mp later.blocks.distinct
  · intro index isIndex
    have below := later.blocks.below index (List.mem_reverse.mpr isIndex)
    rw [same.2.2.2] at below
    exact below.trans_le (Nat.min_le_right _ _)
  · exact started.balance writes

def reserve (log : MemLog) (thread : ℕ) : ℕ :=
  unused ⟨log.reserved, log.reservations⟩ thread

theorem reserve_congr {other : MemLog}
    (same : log.reservations thread = other.reservations thread) :
    log.reserve thread = other.reserve thread := by
  simp only [reserve, unused, same]

variable {other : ℕ}

theorem frame_reserveSlot : (log.reserveSlot thread).1.state = log.state ∧
    ∀ other ≠ thread, (log.reserveSlot thread).1.reservations other = log.reservations other := by
  unfold reserveSlot
  split
  · exact ⟨rfl, fun _ _ => rfl⟩
  · split
    · exact ⟨rfl, fun _ different => by simp [different]⟩
    · simp only
      split
      · exact ⟨rfl, fun _ _ => rfl⟩
      · exact ⟨rfl, fun _ different => by simp [different]⟩

theorem frame_logEvent : (log.logEvent thread event).1.state = log.state ∧
    ∀ other ≠ thread,
      (log.logEvent thread event).1.reservations other = log.reservations other := by
  have frame := @frame_reserveSlot log thread
  unfold logEvent
  split
  · exact ⟨rfl, fun _ _ => rfl⟩
  · rcases isSlot : log.reserveSlot thread with ⟨after, _ | index⟩ <;> simpa [isSlot] using frame

theorem reservations_record (notOther : ∀ write ∈ writes, write.thread ≠ other) :
    (log.record writes).1.reservations other = log.reservations other := by
  induction writes generalizing log with
  | nil => rfl
  | cons _ _ rest =>
    rw [List.forall_mem_cons] at notOther
    rw [record, rest notOther.2, frame_logEvent.2 _ notOther.1.symm]

theorem logEvent_ne_inactive (active : log.state = .active) :
    (log.logEvent thread event).2 ≠ .inactive := by
  unfold logEvent
  rw [if_neg (not_not.mpr active)]
  rcases log.reserveSlot thread with ⟨after, _ | index⟩ <;> simp

theorem record_ne_inactive (active : log.state = .active) :
    ∀ result ∈ (log.record writes).2, result ≠ .inactive := by
  induction writes generalizing log with
  | nil => simp [record]
  | cons _ _ rest =>
    rw [record, List.forall_mem_cons]
    exact ⟨logEvent_ne_inactive active, rest (frame_logEvent.1.trans active)⟩

theorem length_record : (log.record writes).2.length = writes.length := by
  induction writes generalizing log with
  | nil => rfl
  | cons _ _ rest => simp only [record, List.length_cons, rest]

theorem length_indexes {results : List WriteResult}
    (allStored : ∀ result ∈ results, result ≠ .inactive ∧ result ≠ .dropped) :
    (indexes results).length = results.length := by
  induction results with
  | nil => rfl
  | cons result _ rest =>
    rw [List.forall_mem_cons] at allStored
    rcases result with _ | _ | index
    · exact absurd rfl allStored.1.1
    · exact absurd rfl allStored.1.2
    · rw [indexes_cons_stored, List.length_cons, List.length_cons, rest allStored.2]

def someEvent : MemEvent := openingEvent 0 0

def singles (count : ℕ) : List Write :=
  (List.range count).map fun thread => ⟨thread, someEvent⟩

theorem singles_succ (count : ℕ) : singles (count + 1) = singles count ++ [⟨count, someEvent⟩] := by
  simp [singles, List.range_succ]

theorem thread_lt_of_mem_singles {count : ℕ} {write : Write} (isWrite : write ∈ singles count) :
    write.thread < count := by
  simp only [singles, List.mem_map, List.mem_range] at isWrite
  rcases isWrite with ⟨_, below, rfl⟩
  exact below

theorem logEvent_block (event : MemEvent) (active : log.state = .active)
    (notFull : log.full = false)
    (blocks : log.storage ≠ log.capacity) (empty : log.reservations thread = ⟨0, 0⟩)
    (room : log.reserved + reservationBlock ≤ log.storage) :
    (log.logEvent thread event).2 = .stored log.reserved ∧
      (log.logEvent thread event).1.reserved = log.reserved + reservationBlock ∧
      (log.logEvent thread event).1.full = false ∧
      (log.logEvent thread event).1.reserve thread = reservationBlock - 1 := by
  have below : ¬ log.storage ≤ log.reserved := by
    unfold reservationBlock at room
    omega
  simp only [logEvent, active, reserveSlot, notFull, blocks, empty, below, ne_eq,
    not_true_eq_false, if_false, Bool.false_eq_true, not_false_eq_true, if_true,
    reserve, unused, Function.update_self, true_and]
  omega

theorem record_singles (started : Started log) (blocks : log.storage ≠ log.capacity) (count : ℕ)
    (room : reservationBlock * count ≤ log.storage) :
    (log.record (singles count)).1.reserved = reservationBlock * count ∧
      (log.record (singles count)).1.full = false ∧
      (∀ result ∈ (log.record (singles count)).2, result ≠ .inactive ∧ result ≠ .dropped) ∧
      ∀ thread < count, (log.record (singles count)).1.reserve thread = reservationBlock - 1 := by
  induction count with
  | zero => simp [singles, record, started.reserved, started.full]
  | succ count rest =>
    have sound := started.sound (writers (singles count))
    rcases sound.record started.active (fun _ => mem_writers) with ⟨_, same, _⟩
    rcases rest (by unfold reservationBlock at room ⊢; omega) with
      ⟨reserved, notFull, allStored, kept⟩
    have fresh : (log.record (singles count)).1.reservations count = ⟨0, 0⟩ := by
      rw [reservations_record, started.reservations]
      intro write isWrite
      exact (thread_lt_of_mem_singles isWrite).ne
    rcases logEvent_block someEvent (same.1.trans started.active) notFull
      (by rw [same.2.2.1, same.2.2.2]; exact blocks) fresh
      (by rw [reserved, same.2.2.2]; unfold reservationBlock at room ⊢; omega) with
      ⟨isStored, reserved', notFull', unusedLast⟩
    rw [singles_succ, (record_append _ _ _).1, (record_append _ _ _).2]
    simp only [record]
    refine ⟨?_, notFull', ?_, ?_⟩
    · rw [reserved', reserved, Nat.mul_succ]
    · refine List.forall_mem_append.mpr ⟨allStored, List.forall_mem_singleton.mpr ?_⟩
      rw [isStored]
      exact ⟨by simp, by simp⟩
    · intro thread below
      by_cases isLast : thread = count
      · rw [isLast]
        exact unusedLast
      · rw [reserve_congr (frame_logEvent.2 _ isLast)]
        exact kept thread (by omega)

/-- The threads that leave a block behind, and one that takes the rest. -/
def crowd (storage : ℕ) : List Write :=
  singles (maxTrackedThreads + 1) ++
    List.replicate (storage - (maxTrackedThreads + 1) * reservationBlock + 1)
      ⟨maxTrackedThreads + 1, someEvent⟩

theorem length_crowd (storage : ℕ) : (crowd storage).length = maxTrackedThreads + 1 +
    (storage - (maxTrackedThreads + 1) * reservationBlock + 1) := by
  rw [crowd, List.length_append, List.length_replicate, singles, List.length_map, List.length_range]

theorem card_writers_crowd (storage : ℕ) :
    (writers (crowd storage)).card ≤ maxTrackedThreads + 2 := by
  have subset : writers (crowd storage) ⊆ range (maxTrackedThreads + 2) := by
    intro thread isWriter
    simp only [writers, List.mem_toFinset, List.mem_map] at isWriter
    rcases isWriter with ⟨_, isWrite, rfl⟩
    rw [mem_range]
    rcases List.mem_append.mp isWrite with single | last
    · exact (thread_lt_of_mem_singles single).trans (Nat.lt_succ_self _)
    · rw [List.eq_of_mem_replicate last]
      exact Nat.lt_succ_self _
  simpa using card_le_card subset

theorem reserve_crowd (started : Started log) (blocks : log.storage ≠ log.capacity)
    (room : reservationBlock * (maxTrackedThreads + 1) ≤ log.storage) :
    ∀ thread ∈ range (maxTrackedThreads + 1),
      (log.record (crowd log.storage)).1.reserve thread = reservationBlock - 1 := by
  intro thread below
  rw [mem_range] at below
  rw [crowd, (record_append _ _ _).1, reserve_congr (reservations_record ?_)]
  · exact (record_singles started blocks _ room).2.2.2 thread below
  · intro write isWrite
    rw [List.eq_of_mem_replicate isWrite]
    exact below.ne'

theorem range_subset_writers (storage : ℕ) :
    range (maxTrackedThreads + 1) ⊆ writers (crowd storage) := by
  intro thread below
  have isWrite : (⟨thread, someEvent⟩ : Write) ∈ crowd storage :=
    List.mem_append_left _ (List.mem_map_of_mem (List.mem_range.mpr (mem_range.mp below)))
  exact mem_writers isWrite

variable {storage : ℕ}

theorem crowd_too_large {unusedPlaces : ℕ}
    (room : reservationBlock * (maxTrackedThreads + 1) ≤ storage)
    (left : (maxTrackedThreads + 1) * (reservationBlock - 1) ≤ unusedPlaces) :
    storage < maxTrackedThreads + 1 +
      (storage - (maxTrackedThreads + 1) * reservationBlock + 1) + unusedPlaces := by
  unfold reservationBlock maxTrackedThreads at *
  omega

theorem not_capacityLaw_crowd (started : Started log)
    (storage : log.storage = log.capacity + maxTrackedThreads * (reservationBlock - 1))
    (large : blockThreshold ≤ log.capacity) : ¬ CapacityLaw log (crowd log.storage) := by
  intro law
  have blocks : log.storage ≠ log.capacity := by
    rw [storage]
    simp [maxTrackedThreads, reservationBlock]
  have room : reservationBlock * (maxTrackedThreads + 1) ≤ log.storage := by
    unfold reservationBlock maxTrackedThreads blockThreshold at *
    omega
  have length : (log.record (crowd log.storage)).2.length = _ :=
    length_record.trans (length_crowd log.storage)
  by_cases isDropped : .dropped ∈ (log.record (crowd log.storage)).2
  · -- too few events were written before
    rcases List.append_of_mem isDropped with ⟨before, later, split⟩
    have kept := law.kept before later split
    have few : (indexes before).length ≤ before.length := List.length_filterMap_le _ _
    rw [split, List.length_append, List.length_cons] at length
    unfold reservationBlock maxTrackedThreads at *
    omega
  · -- there are not enough places for all events and the rest of the blocks
    have sound := started.sound (writers (crowd log.storage))
    rcases sound.record started.active (fun _ => mem_writers) with ⟨final, same, _⟩
    have allStored : (indexes (log.record (crowd log.storage)).2).length =
        (log.record (crowd log.storage)).2.length := by
      apply length_indexes
      intro result isResult
      refine ⟨record_ne_inactive started.active result isResult, ?_⟩
      rintro rfl
      exact isDropped isResult
    have left : ∑ thread ∈ range (maxTrackedThreads + 1),
        (log.record (crowd log.storage)).1.reserve thread ≤
        ∑ thread ∈ writers (crowd log.storage), (log.record (crowd log.storage)).1.reserve thread :=
      sum_le_sum_of_subset (range_subset_writers log.storage)
    rw [sum_const_nat (reserve_crowd started blocks room), card_range] at left
    have total := final.blocks.total
    rw [same.2.2.2, List.append_nil, List.length_reverse, allStored, length] at total
    change min _ _ = _ + ∑ thread ∈ writers (crowd log.storage),
      (log.record (crowd log.storage)).1.reserve thread at total
    have tooMany := crowd_too_large room left
    rw [← total] at tooMany
    exact absurd (Nat.min_le_right _ _) (Nat.not_le_of_lt tooMany)

/-- No size of the mapping overflows. -/
def Representable (pageSize capacity : ℕ) : Prop :=
  ∃ storage, storageCapacity capacity = some storage ∧ (mapBytes pageSize storage).isSome

theorem start_cases (pageSize capacity : ℕ) (prepared : Bool) :
    start pageSize capacity prepared = unavailable ∨
      ∃ storage, storageCapacity capacity = some storage ∧
        (mapBytes pageSize storage).isSome ∧
        Started (start pageSize capacity prepared) ∧
        (start pageSize capacity prepared).capacity = capacity ∧
        (start pageSize capacity prepared).storage = storage := by
  unfold start
  rcases isStorage : storageCapacity capacity with _ | storage
  · exact .inl rfl
  · simp only
    split
    · exact .inl rfl
    next available =>
      simp only [Bool.or_eq_true, isNone_iff_eq_none, not_or] at available
      refine .inr ⟨storage, rfl, isSome_iff_ne_none.mpr available.1, ?_, rfl, rfl⟩
      exact ⟨rfl, rfl, rfl, rfl, rfl, rfl, rfl⟩

theorem storageCapacity_large {capacity : ℕ} (large : blockThreshold ≤ capacity)
    (isStorage : storageCapacity capacity = some storage) :
    storage = capacity + maxTrackedThreads * (reservationBlock - 1) := by
  rw [storageCapacity, if_pos large, checkedAddSize] at isStorage
  split at isStorage
  · cases isStorage
  · exact (some.inj isStorage).symm

theorem storageCapacity_small {capacity : ℕ} (small : capacity < blockThreshold)
    (isStorage : storageCapacity capacity = some storage) : storage = capacity := by
  rw [storageCapacity, if_neg (Nat.not_le_of_lt small)] at isStorage
  exact (some.inj isStorage).symm

/-- The law holds for every history of at most `most` threads if and only if the log has no blocks
or stays closed, or the threads are few. -/
theorem capacityLaw_iff (pageSize capacity most : ℕ) :
    (∀ prepared writes, (writers writes).card ≤ most →
      CapacityLaw (start pageSize capacity prepared) writes) ↔
      capacity < blockThreshold ∨ most ≤ maxTrackedThreads + 1 ∨
        ¬ Representable pageSize capacity := by
  constructor
  · intro law
    by_contra broken
    simp only [not_or, not_lt, not_le, not_not] at broken
    rcases broken with ⟨large, many, storage, isStorage, isMapped⟩
    have started : Started (start pageSize capacity true) ∧
        (start pageSize capacity true).capacity = capacity ∧
        (start pageSize capacity true).storage = storage := by
      rw [start, isStorage]
      simp only [isNone_iff_eq_none, isSome_iff_ne_none.mp isMapped, Bool.not_true,
        Bool.or_false, if_false, and_true]
      exact ⟨rfl, rfl, rfl, rfl, rfl, rfl, rfl⟩
    refine not_capacityLaw_crowd started.1 ?_ ?_ (law true _ ?_)
    · rw [started.2.1, started.2.2]
      exact storageCapacity_large large isStorage
    · rw [started.2.1]
      exact large
    · exact (card_writers_crowd _).trans many
  · intro holds prepared writes few
    rcases start_cases pageSize capacity prepared with isUnavailable |
      ⟨storage, isStorage, isMapped, started, isCapacity, isRoom⟩
    · rw [isUnavailable]
      exact capacityLaw_unavailable
    · apply started.capacityLaw
      rw [block, isCapacity, isRoom]
      by_cases small : capacity < blockThreshold
      · have same := storageCapacity_small small isStorage
        simp [same]
      · have isSum := storageCapacity_large (Nat.le_of_not_lt small) isStorage
        have bounded : (writers writes).card ≤ maxTrackedThreads + 1 := by
          rcases holds with isSmall | isFew | unrepresentable
          · exact absurd isSmall small
          · exact few.trans isFew
          · exact absurd ⟨storage, isStorage, isMapped⟩ unrepresentable
        have different : storage ≠ capacity := by
          rw [isSum]
          simp [maxTrackedThreads, reservationBlock]
        rw [if_pos different, isSum]
        unfold reservationBlock maxTrackedThreads at *
        omega

/-- More threads than there is room for write one event each and exit. -/
theorem crowd_drops_events : ¬ CapacityLaw (start 4096 blockThreshold true)
    (crowd (blockThreshold + maxTrackedThreads * (reservationBlock - 1))) := by
  have started : Started (start 4096 blockThreshold true) := ⟨rfl, rfl, rfl, rfl, rfl, rfl, rfl⟩
  exact not_capacityLaw_crowd started rfl (Nat.le_refl _)

end MemLog

end Peak.Memory
