import Mathlib.Data.Finset.Card
import Peak.Registry.Effect

/-!
# The partition invariant of the slot registry

`WellFormed` couples the bump allocator, the reusable ring, the entries and the counter of
pending exits.
-/

namespace Peak

open List Nat

universe u

namespace RegistryReply

def isReservation : RegistryReply → Bool
  | reserved token => token.isSome
  | _ => false

end RegistryReply

namespace SlotRegistry

variable {Tid : Type u}

def pendingSlots (registry : SlotRegistry Tid) : Finset ℕ :=
  (Finset.range registry.capacity).filter fun index =>
    (registry.entries index).occupied = true ∧ (registry.entries index).exitPending

@[simp]
theorem mem_pendingSlots {registry : SlotRegistry Tid} {index : ℕ} :
    index ∈ registry.pendingSlots ↔
      index < registry.capacity ∧ (registry.entries index).occupied ∧
        (registry.entries index).exitPending := by
  simp [pendingSlots]

/-- The invariant of the registry. -/
structure WellFormed (registry : SlotRegistry Tid) : Prop where
  initialized : registry.initialized
  headLt : registry.capacity ≠ 0 → registry.reusableHead < registry.capacity
  nextSlotLe : registry.nextSlot ≤ registry.capacity
  issued : ∀ index, (registry.entries index).occupied → index < registry.nextSlot
  tokenSlot : ∀ index, (registry.entries index).occupied →
    (registry.entries index).token.slot = index
  tidInjective : ∀ left right, (registry.entries left).occupied →
    (registry.entries right).occupied →
    (registry.entries left).tid = (registry.entries right).tid → left = right
  generationPos : ∀ index, (registry.entries index).occupied →
    0 < (registry.entries index).token.generation
  generationLe : ∀ index, (registry.entries index).occupied →
    (registry.entries index).token.generation ≤ registry.nextGeneration
  generationInjective : ∀ left right, (registry.entries left).occupied →
    (registry.entries right).occupied →
    (registry.entries left).token.generation = (registry.entries right).token.generation →
    left = right
  queuedNodup : registry.reusableWindow.Nodup
  queuedIssued : ∀ slot ∈ registry.reusableWindow, slot < registry.nextSlot
  queuedFree : ∀ slot ∈ registry.reusableWindow, (registry.entries slot).occupied = false
  pendingCount : registry.exitPendingCount = registry.pendingSlots.card

namespace WellFormed

theorem empty [Inhabited Tid] (capacity : ℕ) :
    (SlotRegistry.empty capacity : SlotRegistry Tid).WellFormed := by
  constructor <;>
    simp [SlotRegistry.empty, SlotEntry.zero, reusableWindow, pendingSlots, Nat.pos_iff_ne_zero]

variable {registry after : SlotRegistry Tid} {index : ℕ}

section

variable (wellFormed : registry.WellFormed)

include wellFormed

theorem length_le {slots : List ℕ} (distinct : slots.Nodup)
    (issued : ∀ slot ∈ slots, slot < registry.nextSlot) : slots.length ≤ registry.capacity := by
  have contained : slots ⊆ range registry.capacity := fun slot slotMem =>
    mem_range.mpr ((issued slot slotMem).trans_le wellFormed.nextSlotLe)
  simpa using (subperm_of_subset distinct contained).length_le

theorem notQueued
    (occupied : (registry.entries index).occupied) : index ∉ registry.reusableWindow :=
  fun queued => ne_of_free (wellFormed.queuedFree index queued) occupied rfl

theorem reusableCount_lt (occupied : (registry.entries index).occupied) :
    registry.reusableCount < registry.capacity := by
  have fits := wellFormed.length_le
    (nodup_cons.mpr ⟨wellFormed.notQueued occupied, wellFormed.queuedNodup⟩)
    (forall_mem_cons.mpr ⟨wellFormed.issued _ occupied, wellFormed.queuedIssued⟩)
  simpa [reusableWindow, succ_le_iff] using fits

theorem reusableCount_le :
    registry.reusableCount ≤ registry.capacity := by
  simpa [reusableWindow] using wellFormed.length_le wellFormed.queuedNodup wellFormed.queuedIssued

theorem reusableWindow_enqueue (occupied : (registry.entries index).occupied) :
    (registry.enqueueReusableUnlocked (registry.entries index).token.slot).reusableWindow =
      registry.reusableWindow ++ [index] := by
  rw [wellFormed.tokenSlot index occupied]
  exact circularWindow_push registry.reusable index (wellFormed.reusableCount_lt occupied)

/-- The occupied entries are among those of `registry`, with the same threads and tokens, and the
allocator has not moved. -/
structure Shrinks (registry after : SlotRegistry Tid) : Prop where
  initialized : after.initialized = registry.initialized
  capacity : after.capacity = registry.capacity
  reusableHead : after.reusableHead = registry.reusableHead
  nextSlot : after.nextSlot = registry.nextSlot
  nextGeneration : after.nextGeneration = registry.nextGeneration
  entries : ∀ index, (after.entries index).occupied →
    (registry.entries index).occupied ∧
      (after.entries index).tid = (registry.entries index).tid ∧
      (after.entries index).token = (registry.entries index).token

theorem shrink (shrinks : Shrinks registry after) (queuedNodup : after.reusableWindow.Nodup)
    (queued : ∀ slot ∈ after.reusableWindow,
      slot < registry.nextSlot ∧ (after.entries slot).occupied = false)
    (pendingCount : after.exitPendingCount = after.pendingSlots.card) :
    after.WellFormed where
  initialized := shrinks.initialized.trans wellFormed.initialized
  headLt := by
    rw [shrinks.capacity, shrinks.reusableHead]
    exact wellFormed.headLt
  nextSlotLe := by
    rw [shrinks.nextSlot, shrinks.capacity]
    exact wellFormed.nextSlotLe
  issued index held := by
    rw [shrinks.nextSlot]
    exact wellFormed.issued index (shrinks.entries index held).1
  tokenSlot index held := by
    rcases shrinks.entries index held with ⟨before, _, token⟩
    rw [token]
    exact wellFormed.tokenSlot index before
  tidInjective left right leftHeld rightHeld := by
    rcases shrinks.entries left leftHeld with ⟨leftBefore, leftTid, _⟩
    rcases shrinks.entries right rightHeld with ⟨rightBefore, rightTid, _⟩
    rw [leftTid, rightTid]
    exact wellFormed.tidInjective left right leftBefore rightBefore
  generationPos index held := by
    rcases shrinks.entries index held with ⟨before, _, token⟩
    rw [token]
    exact wellFormed.generationPos index before
  generationLe index held := by
    rcases shrinks.entries index held with ⟨before, _, token⟩
    rw [token, shrinks.nextGeneration]
    exact wellFormed.generationLe index before
  generationInjective left right leftHeld rightHeld := by
    rcases shrinks.entries left leftHeld with ⟨leftBefore, _, leftToken⟩
    rcases shrinks.entries right rightHeld with ⟨rightBefore, _, rightToken⟩
    rw [leftToken, rightToken]
    exact wellFormed.generationInjective left right leftBefore rightBefore
  queuedNodup := queuedNodup
  queuedIssued slot slotMem := by
    rw [shrinks.nextSlot]
    exact (queued slot slotMem).1
  queuedFree slot slotMem := (queued slot slotMem).2
  pendingCount := pendingCount

end

theorem shrinks_discard (registry : SlotRegistry Tid) (index : ℕ) :
    Shrinks registry (registry.discardUnlocked index) where
  initialized := by rw [discardUnlocked_eq]
  capacity := by rw [discardUnlocked_eq]
  reusableHead := by rw [discardUnlocked_eq]
  nextSlot := by rw [discardUnlocked_eq]
  nextGeneration := by rw [discardUnlocked_eq]
  entries other held := by
    rcases registry.discardUnlocked_of_occupied index held with ⟨_, same⟩
    rw [same] at held
    rw [same]
    exact ⟨held, rfl, rfl⟩

theorem exitPendingCount_discard (counted : registry.exitPendingCount = registry.pendingSlots.card)
    (inBounds : index < registry.capacity)
    (occupied : (registry.entries index).occupied) :
    (registry.discardUnlocked index).exitPendingCount =
      (registry.discardUnlocked index).pendingSlots.card := by
  have erased : (registry.discardUnlocked index).pendingSlots =
      registry.pendingSlots.erase index := by
    ext slot
    by_cases same : slot = index
    · subst slot
      simp
    · simp [same, registry.discardUnlocked_entries_of_ne index same]
  rw [erased, discardUnlocked_eq]
  by_cases pending : (registry.entries index).exitPending
  · have member : index ∈ registry.pendingSlots := by
      simp [inBounds, occupied, pending]
    have positive : registry.exitPendingCount ≠ 0 := by
      rw [counted]
      exact Finset.card_ne_zero_of_mem member
    rw [Finset.card_erase_of_mem member, ← counted]
    simp [pending, positive]
  · simp [pending, counted]

section

variable (wellFormed : registry.WellFormed) (occupied : (registry.entries index).occupied)

include wellFormed occupied

theorem abandon : (registry.discardUnlocked index).WellFormed := by
  apply wellFormed.shrink (shrinks_discard registry index)
  · rw [discardUnlocked_reusableWindow]
    exact wellFormed.queuedNodup
  · intro slot slotMem
    rw [discardUnlocked_reusableWindow] at slotMem
    exact ⟨wellFormed.queuedIssued slot slotMem,
      registry.discardUnlocked_of_free index (wellFormed.queuedFree slot slotMem)⟩
  · exact exitPendingCount_discard wellFormed.pendingCount
      ((wellFormed.issued index occupied).trans_le wellFormed.nextSlotLe) occupied

theorem recycle : ((registry.enqueueReusableUnlocked
      (registry.entries index).token.slot).discardUnlocked index).WellFormed := by
  have window := wellFormed.reusableWindow_enqueue occupied
  set enqueued := registry.enqueueReusableUnlocked (registry.entries index).token.slot
    with enqueuedEq
  have shrinks : Shrinks registry (enqueued.discardUnlocked index) := by
    have discarded := shrinks_discard enqueued index
    exact { discarded with }
  apply wellFormed.shrink shrinks
  · rw [discardUnlocked_reusableWindow, window, ← concat_eq_append]
    exact wellFormed.queuedNodup.concat (wellFormed.notQueued occupied)
  · intro slot slotMem
    rw [discardUnlocked_reusableWindow, window, mem_append, mem_singleton] at slotMem
    rcases slotMem with queued | rfl
    · exact ⟨wellFormed.queuedIssued slot queued,
        enqueued.discardUnlocked_of_free index (wellFormed.queuedFree slot queued)⟩
    · exact ⟨wellFormed.issued slot occupied, discardUnlocked_occupied_self enqueued slot⟩
  · exact exitPendingCount_discard wellFormed.pendingCount
      ((wellFormed.issued index occupied).trans_le wellFormed.nextSlotLe) occupied

theorem mark {entry : SlotEntry Tid} {pendingCount maxPendingCount : ℕ}
    (tid : entry.tid = (registry.entries index).tid)
    (token : entry.token = (registry.entries index).token)
    (held : entry.occupied = (registry.entries index).occupied)
    (pending :
      (entry.exitPending = (registry.entries index).exitPending ∧
        pendingCount = registry.exitPendingCount) ∨
      ((registry.entries index).exitPending = false ∧ entry.exitPending ∧
        pendingCount = registry.exitPendingCount + 1)) :
    WellFormed
      { registry.setEntry index entry with
        exitPendingCount := pendingCount
        maxExitPendingCount := maxPendingCount } := by
  have inBounds := (wellFormed.issued index occupied).trans_le wellFormed.nextSlotLe
  apply wellFormed.shrink
  · refine ⟨rfl, rfl, rfl, rfl, rfl, ?_⟩
    intro other otherHeld
    by_cases same : other = index
    · subst other
      rw [setEntry_entries_self]
      exact ⟨occupied, tid, token⟩
    · rw [registry.setEntry_entries_of_ne index entry same] at otherHeld ⊢
      exact ⟨otherHeld, rfl, rfl⟩
  · exact wellFormed.queuedNodup
  · intro slot slotMem
    have free := wellFormed.queuedFree slot slotMem
    rw [registry.setEntry_entries_of_ne index entry (ne_of_free free occupied)]
    exact ⟨wellFormed.queuedIssued slot slotMem, free⟩
  · change pendingCount = (registry.setEntry index entry).pendingSlots.card
    rcases pending with ⟨same, counted⟩ | ⟨before, now, counted⟩
    · have unchanged : (registry.setEntry index entry).pendingSlots =
          registry.pendingSlots := by
        ext slot
        by_cases slotSame : slot = index
        · subst slot
          simp [held, same]
        · simp [registry.setEntry_entries_of_ne index entry slotSame]
      rw [unchanged, counted, wellFormed.pendingCount]
    · have inserted : (registry.setEntry index entry).pendingSlots =
          insert index registry.pendingSlots := by
        ext slot
        by_cases slotSame : slot = index
        · subst slot
          simp [held, now, occupied, inBounds]
        · simp [registry.setEntry_entries_of_ne index entry slotSame, slotSame]
      have fresh : index ∉ registry.pendingSlots := by
        simp [before]
      rw [inserted, Finset.card_insert_of_notMem fresh, counted, wellFormed.pendingCount]

end

/-- A taken slot is issued, free and no longer queued, and taking it leaves a
well-formed registry. -/
structure Taken (registry : SlotRegistry Tid) (slot : ℕ) : Prop where
  wellFormed : registry.WellFormed
  issued : slot < registry.nextSlot
  free : (registry.entries slot).occupied = false
  notQueued : slot ∉ registry.reusableWindow

variable {slot : ℕ} {taken : SlotRegistry Tid}

theorem takeSlot_window (wellFormed : registry.WellFormed)
    (available : registry.takeSlot = some (slot, taken)) :
    registry.reusableWindow = slot :: taken.reusableWindow ∨
      (registry.reusableWindow = [] ∧ taken.reusableWindow = [] ∧ slot = registry.nextSlot) := by
  unfold takeSlot at available
  split at available
  next nonempty =>
    cases available
    have positive : registry.capacity ≠ 0 := by
      have bounded := wellFormed.reusableCount_le
      omega
    exact .inl (circularWindow_pop registry.reusable (wellFormed.headLt positive) nonempty)
  next empty =>
    rw [ne_eq, not_not] at empty
    split at available
    · cases available
      exact .inr ⟨by simp [reusableWindow, empty], by simp [reusableWindow, empty], rfl⟩
    · cases available

theorem takeSlot_taken (wellFormed : registry.WellFormed)
    (available : registry.takeSlot = some (slot, taken)) : Taken taken slot := by
  have window := wellFormed.takeSlot_window available
  unfold takeSlot at available
  split at available
  · cases available
    rename_i nonempty
    rcases window with popped | ⟨empty, _, _⟩
    · have nodup := wellFormed.queuedNodup
      have issued := wellFormed.queuedIssued
      have free := wellFormed.queuedFree
      rw [popped, nodup_cons] at nodup
      rw [popped, forall_mem_cons] at issued free
      exact ⟨{ wellFormed with
        headLt := fun positive => mod_lt _ (Nat.pos_of_ne_zero positive)
        queuedNodup := nodup.2
        queuedIssued := issued.2
        queuedFree := free.2 }, issued.1, free.1, nodup.1⟩
    · simp [reusableWindow, circularWindow, nonempty] at empty
  · split at available
    · cases available
      rename_i room
      refine ⟨{ wellFormed with
        nextSlotLe := by dsimp only; omega
        issued := ?_
        queuedIssued := ?_ }, lt_succ_self _, ?_, ?_⟩
      · intro index held
        exact (wellFormed.issued index held).trans (lt_succ_self _)
      · intro slot slotMem
        exact (wellFormed.queuedIssued slot slotMem).trans (lt_succ_self _)
      · by_contra held
        rw [Bool.not_eq_false] at held
        exact absurd (wellFormed.issued _ held) (lt_irrefl _)
      · intro slotMem
        exact absurd (wellFormed.queuedIssued _ slotMem) (lt_irrefl _)
    · cases available

theorem Taken.discard (taken : Taken registry slot)
    (occupied : (registry.entries index).occupied) :
    Taken (registry.discardUnlocked index) slot where
  wellFormed := taken.wellFormed.abandon occupied
  issued := by simpa using taken.issued
  free := registry.discardUnlocked_of_free index taken.free
  notQueued := by simpa using taken.notQueued

theorem issueGeneration_eq {generation : ℕ} (fits : generation + 1 < 2 ^ 64) :
    issueGeneration generation = generation + 1 := by
  simp only [issueGeneration]
  rw [mod_eq_of_lt fits, if_neg (succ_ne_zero generation)]

variable {tid : Tid}

theorem Taken.occupy [Inhabited Tid] (taken : Taken registry slot)
    (absent : ∀ other, (registry.entries other).occupied →
      (registry.entries other).tid ≠ tid) (fits : registry.nextGeneration + 1 < 2 ^ 64) :
    (registry.occupy slot tid).WellFormed := by
  have wellFormed := taken.wellFormed
  have generationEq := issueGeneration_eq fits
  have others : ∀ other, other ≠ slot →
      (registry.occupy slot tid).entries other = registry.entries other :=
    fun other distinct => registry.setEntry_entries_of_ne slot _ distinct
  -- An entry that is occupied afterwards is the new one, or it was there before.
  have entry : ∀ index, ((registry.occupy slot tid).entries index).occupied →
      index = slot ∧ ((registry.occupy slot tid).entries index).tid = tid ∧
          ((registry.occupy slot tid).entries index).token = ⟨slot, registry.nextGeneration + 1⟩ ∨
        (registry.entries index).occupied ∧
          (registry.occupy slot tid).entries index = registry.entries index := by
    intro index held
    by_cases same : index = slot
    · subst same
      simp [SlotRegistry.occupy, generationEq]
    · rw [others index same] at held ⊢
      exact .inr ⟨held, rfl⟩
  have nextGeneration :
      (registry.occupy slot tid).nextGeneration = registry.nextGeneration + 1 := generationEq
  refine ⟨wellFormed.initialized, wellFormed.headLt, wellFormed.nextSlotLe, ?_, ?_, ?_, ?_, ?_,
    ?_, wellFormed.queuedNodup, wellFormed.queuedIssued, ?_, ?_⟩
  · intro index held
    rcases entry index held with ⟨rfl, _⟩ | ⟨before, _⟩
    · exact taken.issued
    · exact wellFormed.issued index before
  · intro index held
    rcases entry index held with ⟨rfl, _, token⟩ | ⟨before, same⟩
    · rw [token]
    · rw [same]
      exact wellFormed.tokenSlot index before
  · intro left right leftHeld rightHeld sameTid
    rcases entry left leftHeld with ⟨leftSlot, leftTid, _⟩ | ⟨leftBefore, leftSame⟩ <;>
      rcases entry right rightHeld with ⟨rightSlot, rightTid, _⟩ | ⟨rightBefore, rightSame⟩
    · rw [leftSlot, rightSlot]
    · rw [leftTid, rightSame] at sameTid
      exact absurd sameTid.symm (absent right rightBefore)
    · rw [rightTid, leftSame] at sameTid
      exact absurd sameTid (absent left leftBefore)
    · rw [leftSame, rightSame] at sameTid
      exact wellFormed.tidInjective left right leftBefore rightBefore sameTid
  · intro index held
    rcases entry index held with ⟨_, _, token⟩ | ⟨before, same⟩
    · rw [token]
      exact succ_pos _
    · rw [same]
      exact wellFormed.generationPos index before
  · intro index held
    rw [nextGeneration]
    rcases entry index held with ⟨_, _, token⟩ | ⟨before, same⟩
    · rw [token]
    · rw [same]
      exact (wellFormed.generationLe index before).trans (le_succ _)
  · intro left right leftHeld rightHeld sameGeneration
    rcases entry left leftHeld with ⟨leftSlot, _, leftToken⟩ | ⟨leftBefore, leftSame⟩ <;>
      rcases entry right rightHeld with ⟨rightSlot, _, rightToken⟩ | ⟨rightBefore, rightSame⟩
    · rw [leftSlot, rightSlot]
    · rw [leftToken, rightSame] at sameGeneration
      exact absurd sameGeneration (lt_succ_of_le (wellFormed.generationLe _ rightBefore)).ne'
    · rw [rightToken, leftSame] at sameGeneration
      exact absurd sameGeneration (lt_succ_of_le (wellFormed.generationLe _ leftBefore)).ne
    · rw [leftSame, rightSame] at sameGeneration
      exact wellFormed.generationInjective left right leftBefore rightBefore sameGeneration
  · intro other otherMem
    have distinct : other ≠ slot := by
      rintro rfl
      exact taken.notQueued otherMem
    rw [others other distinct]
    exact wellFormed.queuedFree other otherMem
  · have unchanged : (registry.occupy slot tid).pendingSlots = registry.pendingSlots := by
      ext other
      by_cases same : other = slot
      · subst other
        simp [SlotRegistry.occupy, SlotEntry.zero, taken.free]
      · rw [mem_pendingSlots, mem_pendingSlots, others other same]
        rfl
    rw [unchanged]
    exact wellFormed.pendingCount

variable [DecidableEq Tid]

theorem discardOld_absent (wellFormed : registry.WellFormed) (other : ℕ)
    (held : ((registry.discardOld (registry.findUnlocked tid)).entries other).occupied) :
    ((registry.discardOld (registry.findUnlocked tid)).entries other).tid ≠ tid := by
  have inBounds : ∀ {index}, (registry.entries index).occupied → index < registry.capacity :=
    fun occupied => (wellFormed.issued _ occupied).trans_le wellFormed.nextSlotLe
  cases found : registry.findUnlocked tid with
  | none =>
    rw [found] at held
    exact findUnlocked_none found (inBounds held) held
  | some index =>
    rw [found] at held
    rcases registry.discardUnlocked_of_occupied index held with ⟨distinct, same⟩
    rcases findUnlocked_some found with ⟨_, occupied, tidEq⟩
    simp only [discardOld] at held ⊢
    rw [same] at held ⊢
    intro sameTid
    exact distinct (wellFormed.tidInjective other index held occupied (sameTid.trans tidEq.symm))

theorem takeSlot_findUnlocked (tid : Tid) (available : registry.takeSlot = some (slot, taken)) :
    taken.findUnlocked tid = registry.findUnlocked tid := by
  rcases takeSlot_frame available with ⟨entries, capacity, _⟩
  simp only [findUnlocked, entries, capacity]

theorem taken_discardOld (wellFormed : registry.WellFormed)
    (available : registry.takeSlot = some (slot, taken)) :
    Taken (taken.discardOld (registry.findUnlocked tid)) slot := by
  have afterTake := wellFormed.takeSlot_taken available
  rw [← takeSlot_findUnlocked tid available]
  cases found : taken.findUnlocked tid with
  | none => exact afterTake
  | some => exact afterTake.discard (findUnlocked_some found).2.1

theorem issue [Inhabited Tid] (wellFormed : registry.WellFormed)
    (available : registry.takeSlot = some (slot, taken))
    (fits : registry.nextGeneration + 1 < 2 ^ 64) :
    ((taken.discardOld (registry.findUnlocked tid)).occupy slot tid).WellFormed := by
  apply (wellFormed.taken_discardOld available).occupy
  · intro other held
    rw [← takeSlot_findUnlocked tid available] at held ⊢
    exact (wellFormed.takeSlot_taken available).wellFormed.discardOld_absent other held
  · rw [(taken.discardOld_frame _).2.2.1, (takeSlot_frame available).2.2.1]
    exact fits

variable [Inhabited Tid]

theorem effect {call : RegistryCall Tid}
    (wellFormed : registry.WellFormed) (effect : Effect registry call after)
    (fits : ∀ tid, call = .reserveInsert tid → registry.takeSlot.isSome →
      registry.nextGeneration + 1 < 2 ^ 64) :
    after.WellFormed := by
  cases effect with
  | idle => exact wellFormed
  | scan =>
    exact { wellFormed with }
  | mark _ _ _ _ occupied marked =>
    exact wellFormed.mark occupied marked.tid marked.token marked.occupied marked.pending
  | retire _ occupied =>
    exact wellFormed.mark occupied rfl rfl rfl (.inl ⟨rfl, rfl⟩)
  | restore _ occupied =>
    exact wellFormed.mark occupied rfl rfl rfl (.inl ⟨rfl, rfl⟩)
  | abandon _ occupied => exact wellFormed.abandon occupied
  | recycle _ _ occupied => exact wellFormed.recycle occupied
  | issue tid _ _ available =>
    exact wellFormed.issue available (fits tid rfl (by rw [available]; rfl))

end WellFormed

section Runs

variable [DecidableEq Tid] [Inhabited Tid] {registry after : SlotRegistry Tid}

def reservations (registry : SlotRegistry Tid) (calls : List (RegistryCall Tid)) : ℕ :=
  (machine.replies registry calls).countP RegistryReply.isReservation

theorem reply_reserveInsert_isReservation (initialized : registry.initialized)
    (tid : Tid) :
    (machine.reply registry (.reserveInsert tid)).isReservation = registry.takeSlot.isSome := by
  simp only [Machine.reply, machine, reserveInsert, initialized]
  cases registry.takeSlot <;> rfl

variable {call : RegistryCall Tid}

theorem Effect.nextGeneration_eq (effect : Effect registry call after)
    (other : ∀ tid, call ≠ .reserveInsert tid) :
    after.nextGeneration = registry.nextGeneration := by
  cases effect with
  | idle | scan | mark | retire | restore => rfl
  | abandon index => exact registry.discardUnlocked_nextGeneration index
  | recycle => rw [discardUnlocked_nextGeneration]; rfl
  | issue tid => exact absurd rfl (other tid)

theorem nextGeneration_next (wellFormed : registry.WellFormed)
    (fits : (machine.reply registry call).isReservation →
      registry.nextGeneration + 1 < 2 ^ 64) :
    (machine.next registry call).nextGeneration =
      registry.nextGeneration + [machine.reply registry call].countP
        RegistryReply.isReservation := by
  by_cases reserving : ∃ tid, call = .reserveInsert tid
  · rcases reserving with ⟨tid, rfl⟩
    have isReservation := reply_reserveInsert_isReservation wellFormed.initialized tid
    rw [countP_singleton]
    rw [isReservation] at fits ⊢
    simp only [Machine.next, machine, reserveInsert, wellFormed.initialized]
    cases available : registry.takeSlot with
    | none => exact (registry.discardOld_frame _).2.2.1
    | some pair =>
      rw [available] at fits
      change issueGeneration (pair.2.discardOld _).nextGeneration = _
      rw [(pair.2.discardOld_frame _).2.2.1, (takeSlot_frame available).2.2.1]
      exact WellFormed.issueGeneration_eq (fits rfl)
  · have other : ∀ tid, call ≠ .reserveInsert tid := fun tid same => reserving ⟨tid, same⟩
    rw [(effect_next registry call).nextGeneration_eq other]
    cases call with
    | reserveInsert tid => exact absurd rfl (other tid)
    | _ => rfl

theorem WellFormed.next (wellFormed : registry.WellFormed)
    (fits : (machine.reply registry call).isReservation →
      registry.nextGeneration + 1 < 2 ^ 64) : (machine.next registry call).WellFormed := by
  apply wellFormed.effect (effect_next registry call)
  rintro tid rfl available
  exact fits ((reply_reserveInsert_isReservation wellFormed.initialized tid).trans available)

/-- After any run with fewer than `2 ^ 64` reservations the registry is well-formed, and its
generation counter is their number. -/
theorem wellFormed_run (capacity : ℕ) (calls : List (RegistryCall Tid))
    (few : (empty capacity).reservations calls < 2 ^ 64) :
    (machine.run (empty capacity) calls).WellFormed ∧
      (machine.run (empty capacity) calls).nextGeneration =
        (empty capacity).reservations calls := by
  induction calls using reverseRecOn with
  | nil => exact ⟨WellFormed.empty capacity, rfl⟩
  | append_singleton history call earlier =>
    rw [Machine.run_append, Machine.run_cons, Machine.run_nil]
    simp only [reservations, Machine.replies_append, countP_append] at few ⊢
    rcases earlier (by unfold reservations; omega) with ⟨wellFormed, generation⟩
    simp only [Machine.replies] at few ⊢
    have fits :
        (machine.reply (machine.run (empty capacity) history) call).isReservation →
          (machine.run (empty capacity) history).nextGeneration + 1 < 2 ^ 64 := by
      intro reserving
      rw [generation, reservations]
      simpa [reserving] using few
    refine ⟨wellFormed.next fits, ?_⟩
    rw [nextGeneration_next wellFormed fits, generation, reservations]

end Runs

end SlotRegistry

end Peak
