import Peak.Registry.Basic

/-!
# Effects of the registry calls

`Effect` says once what a call can do to the registry: leave it alone, update the marks of
an occupied entry, abandon an occupied slot, recycle it into the ring, or issue a slot
under a new generation.
-/

namespace Peak

open Function

universe u

namespace SlotRegistry

variable {Tid : Type u} (token : SlotToken) (tid : Tid)

section Fields

variable (registry : SlotRegistry Tid) (index slot : ℕ) (entry : SlotEntry Tid)

theorem discardUnlocked_eq :
    registry.discardUnlocked index =
      { registry with
        entries := update registry.entries index
          { registry.entries index with
            occupied := false, detached := false, finalDestructorPass := false,
            exitPending := false, retiring := false, kernelTid := 0 }
        exitPendingCount :=
          if (registry.entries index).exitPending && registry.exitPendingCount != 0 then
            registry.exitPendingCount - 1
          else registry.exitPendingCount } := by
  simp only [discardUnlocked]
  split <;> rfl

@[simp]
theorem discardUnlocked_reusableWindow :
    (registry.discardUnlocked index).reusableWindow = registry.reusableWindow := by
  rw [discardUnlocked_eq]
  rfl

@[simp]
theorem discardUnlocked_nextSlot :
    (registry.discardUnlocked index).nextSlot = registry.nextSlot := by
  rw [discardUnlocked_eq]

@[simp]
theorem discardUnlocked_capacity :
    (registry.discardUnlocked index).capacity = registry.capacity := by
  rw [discardUnlocked_eq]

@[simp]
theorem discardUnlocked_nextGeneration :
    (registry.discardUnlocked index).nextGeneration = registry.nextGeneration := by
  rw [discardUnlocked_eq]

variable {other : ℕ}

theorem discardUnlocked_entries_of_ne (distinct : other ≠ index) :
    (registry.discardUnlocked index).entries other = registry.entries other := by
  rw [discardUnlocked_eq]
  exact update_of_ne distinct _ _

@[simp]
theorem discardUnlocked_occupied_self :
    ((registry.discardUnlocked index).entries index).occupied = false := by
  simp [discardUnlocked_eq]

theorem discardUnlocked_of_occupied
    (occupied : ((registry.discardUnlocked index).entries other).occupied) :
    other ≠ index ∧ (registry.discardUnlocked index).entries other = registry.entries other := by
  have distinct : other ≠ index := by
    rintro rfl
    simp at occupied
  exact ⟨distinct, registry.discardUnlocked_entries_of_ne index distinct⟩

theorem discardUnlocked_of_free (free : (registry.entries other).occupied = false) :
    ((registry.discardUnlocked index).entries other).occupied = false := by
  by_contra held
  rw [Bool.not_eq_false] at held
  rw [(registry.discardUnlocked_of_occupied index held).2, free] at held
  cases held

theorem ne_of_free {registry : SlotRegistry Tid} {slot index : ℕ}
    (free : (registry.entries slot).occupied = false)
    (occupied : (registry.entries index).occupied) : slot ≠ index := by
  rintro rfl
  exact absurd (free.symm.trans occupied) (by decide)

@[simp]
theorem setEntry_reusableWindow :
    (registry.setEntry index entry).reusableWindow = registry.reusableWindow := rfl

@[simp]
theorem setEntry_capacity : (registry.setEntry index entry).capacity = registry.capacity := rfl

@[simp]
theorem setEntry_entries_self : (registry.setEntry index entry).entries index = entry := by
  simp [setEntry]

theorem setEntry_entries_of_ne (distinct : other ≠ index) :
    (registry.setEntry index entry).entries other = registry.entries other := by
  simp [setEntry, distinct]

theorem takeSlot_frame {registry taken : SlotRegistry Tid} {slot : ℕ}
    (available : registry.takeSlot = some (slot, taken)) :
    taken.entries = registry.entries ∧ taken.capacity = registry.capacity ∧
      taken.nextGeneration = registry.nextGeneration ∧
      registry.nextSlot ≤ taken.nextSlot := by
  simp only [takeSlot] at available
  split at available
  · cases available
    exact ⟨rfl, rfl, rfl, le_rfl⟩
  · split at available
    · cases available
      exact ⟨rfl, rfl, rfl, Nat.le_succ _⟩
    · cases available

theorem discardOld_frame (old : Option ℕ) :
    (registry.discardOld old).capacity = registry.capacity ∧
      (registry.discardOld old).nextSlot = registry.nextSlot ∧
      (registry.discardOld old).nextGeneration = registry.nextGeneration ∧
      (registry.discardOld old).reusableWindow = registry.reusableWindow := by
  cases old with
  | none => exact ⟨rfl, rfl, rfl, rfl⟩
  | some => simp [discardOld]

theorem discardOld_of_occupied {old : Option ℕ}
    (occupied : ((registry.discardOld old).entries other).occupied) :
    (registry.discardOld old).entries other = registry.entries other := by
  cases old with
  | none => rfl
  | some index => exact (registry.discardUnlocked_of_occupied index occupied).2

theorem issue_frame [Inhabited Tid] {registry taken after : SlotRegistry Tid} {slot : ℕ}
    {old : Option ℕ} {tid : Tid} (available : registry.takeSlot = some (slot, taken))
    (issued : after = (taken.discardOld old).occupy slot tid) :
    registry.nextSlot ≤ after.nextSlot ∧ after.reusableWindow = taken.reusableWindow ∧
      ∀ index ≠ slot, (after.entries index).occupied →
        after.entries index = registry.entries index := by
  subst issued
  rcases takeSlot_frame available with ⟨entries, _, _, nextSlot⟩
  rcases taken.discardOld_frame old with ⟨_, sameSlot, _, window⟩
  refine ⟨nextSlot.trans sameSlot.ge, window, ?_⟩
  intro index distinct held
  rw [occupy, setEntry_entries_of_ne _ _ _ distinct] at held ⊢
  rw [taken.discardOld_of_occupied held, entries]

end Fields

/-- The new value of an occupied entry after a marking call, with the same thread, token and
retirement. A newly pending exit is counted. -/
structure MarkOf (registry : SlotRegistry Tid) (index : ℕ) (entry : SlotEntry Tid)
    (pendingCount : ℕ) : Prop where
  tid : entry.tid = (registry.entries index).tid
  token : entry.token = (registry.entries index).token
  occupied : entry.occupied = (registry.entries index).occupied
  retiring : entry.retiring = (registry.entries index).retiring
  pending :
    (entry.exitPending = (registry.entries index).exitPending ∧
      pendingCount = registry.exitPendingCount) ∨
    ((registry.entries index).exitPending = false ∧ entry.exitPending ∧
      pendingCount = registry.exitPendingCount + 1)

variable [DecidableEq Tid]

inductive Effect [Inhabited Tid] (registry : SlotRegistry Tid) :
    RegistryCall Tid → SlotRegistry Tid → Prop where
  | idle {call : RegistryCall Tid} : Effect registry call registry
  | scan {call : RegistryCall Tid} (cursor : ℕ) :
      Effect registry call { registry with reclaimCursor := cursor }
  | mark {call : RegistryCall Tid} (index : ℕ) (entry : SlotEntry Tid)
      (pendingCount maxPendingCount : ℕ)
      (occupied : (registry.entries index).occupied)
      (marked : MarkOf registry index entry pendingCount) :
      Effect registry call
        { registry.setEntry index entry with
          exitPendingCount := pendingCount
          maxExitPendingCount := maxPendingCount }
  | retire {call : RegistryCall Tid} (index : ℕ)
      (occupied : (registry.entries index).occupied) :
      Effect registry call
        (registry.setEntry index { registry.entries index with retiring := true })
  | restore (index : ℕ) (occupied : (registry.entries index).occupied)
      (retiring : (registry.entries index).retiring) :
      Effect registry (.deferRetire ⟨index, (registry.entries index).token.generation⟩)
        (registry.setEntry index { registry.entries index with retiring := false })
  | abandon {call : RegistryCall Tid} (index : ℕ)
      (occupied : (registry.entries index).occupied) :
      Effect registry call (registry.discardUnlocked index)
  | recycle {call : RegistryCall Tid} (index : ℕ) (inBounds : index < registry.capacity)
      (occupied : (registry.entries index).occupied)
      (permitted : (registry.entries index).retiring = false ∨
        call = .completeRetire ⟨index, (registry.entries index).token.generation⟩ true) :
      Effect registry call
        ((registry.enqueueReusableUnlocked
          (registry.entries index).token.slot).discardUnlocked index)
  | issue (tid : Tid) (slot : ℕ) (taken : SlotRegistry Tid)
      (available : registry.takeSlot = some (slot, taken)) :
      Effect registry (.reserveInsert tid)
        ((taken.discardOld (registry.findUnlocked tid)).occupy slot tid)

section Lookup

variable {registry : SlotRegistry Tid} {tid : Tid} {token : SlotToken} {index : ℕ}

theorem findUnlocked_some (found : registry.findUnlocked tid = some index) :
    index < registry.capacity ∧ (registry.entries index).occupied ∧
      (registry.entries index).tid = tid := by
  have inRange := List.mem_of_find?_eq_some found
  have matched := List.find?_some found
  simp only [Bool.and_eq_true, decide_eq_true_eq] at matched
  exact ⟨List.mem_range.mp inRange, matched⟩

theorem findUnlocked_none (missing : registry.findUnlocked tid = none)
    (inBounds : index < registry.capacity)
    (occupied : (registry.entries index).occupied) :
    (registry.entries index).tid ≠ tid := by
  have unmatched := List.find?_eq_none.mp missing index (List.mem_range.mpr inBounds)
  simpa [occupied] using unmatched

omit [DecidableEq Tid] in
theorem findTokenUnlocked_some (found : registry.findTokenUnlocked token = some index) :
    index < registry.capacity ∧ (registry.entries index).occupied ∧
      token = ⟨index, (registry.entries index).token.generation⟩ := by
  unfold findTokenUnlocked at found
  split at found
  · cases found
  · split at found
    · cases found
    next inBounds matched =>
      cases found
      simp only [Bool.or_eq_true, Bool.not_eq_true', bne_iff_ne, not_or,
        Bool.not_eq_false, not_not] at matched
      refine ⟨by omega, matched.1, ?_⟩
      rw [matched.2]

end Lookup

section CallEffect

variable [Inhabited Tid] {registry : SlotRegistry Tid} {call : RegistryCall Tid} {index : ℕ}

theorem effect_updateExitPending {entry : SlotEntry Tid}
    (occupied : (registry.entries index).occupied)
    (unchanged : MarkOf registry index entry registry.exitPendingCount) :
    Effect registry call ((registry.setEntry index entry).updateExitPendingUnlocked index).2 := by
  simp only [updateExitPendingUnlocked, setEntry, update_self, update_idem]
  split
  · exact Effect.mark index entry registry.exitPendingCount
      registry.maxExitPendingCount occupied unchanged
  next ready =>
    simp only [Bool.or_eq_true, not_or, Bool.not_eq_true] at ready
    refine Effect.mark index { entry with exitPending := true } _ _ occupied
      { unchanged with pending := .inr ⟨?_, rfl, rfl⟩ }
    rcases unchanged.pending with ⟨same, _⟩ | ⟨_, _, _⟩
    · rw [← same]
      exact ready.1.1.1.1
    · omega

theorem effect_removeEntry {reusable : Bool} (inBounds : index < registry.capacity)
    (occupied : (registry.entries index).occupied)
    (permitted : (registry.entries index).retiring = false ∨
      call = .completeRetire ⟨index, (registry.entries index).token.generation⟩ reusable) :
    Effect registry call (registry.removeEntry index reusable) := by
  cases reusable with
  | false => exact Effect.abandon index occupied
  | true => exact Effect.recycle index inBounds occupied permitted

theorem effect_reserveInsert :
    Effect registry (.reserveInsert tid) (registry.reserveInsert tid).2 := by
  unfold reserveInsert
  split
  · exact Effect.idle
  · cases available : registry.takeSlot with
    | some pair => exact Effect.issue tid pair.1 pair.2 available
    | none =>
      cases found : registry.findUnlocked tid with
      | none => exact Effect.idle
      | some index => exact Effect.abandon index (findUnlocked_some found).2.1

theorem effect_compareRemove (generation : ℕ) (reusable : Bool) :
    Effect registry (.compareRemove tid generation reusable)
      (registry.compareRemove tid generation reusable).2 := by
  fun_cases compareRemove registry tid generation reusable with
  | case4 _ index found accepted =>
    rcases findUnlocked_some found with ⟨inBounds, occupied, _⟩
    simp only [Bool.or_eq_true, not_or, Bool.not_eq_true] at accepted
    exact effect_removeEntry inBounds occupied (.inl accepted.1)
  | _ => exact Effect.idle

theorem effect_compareRemoveToken (reusable : Bool) :
    Effect registry (.compareRemoveToken token reusable)
      (registry.compareRemoveToken token reusable).2 := by
  fun_cases compareRemoveToken registry token reusable with
  | case4 _ index found notRetiring =>
    rcases findTokenUnlocked_some found with ⟨inBounds, occupied, _⟩
    exact effect_removeEntry inBounds occupied (.inl (by simpa using notRetiring))
  | _ => exact Effect.idle

theorem effect_completeRetire (reusable : Bool) :
    Effect registry (.completeRetire token reusable)
      (registry.completeRetire token reusable).2 := by
  fun_cases completeRetire registry token reusable with
  | case4 _ index found =>
    rcases findTokenUnlocked_some found with ⟨inBounds, occupied, tokenEq⟩
    exact effect_removeEntry inBounds occupied (.inr (by rw [tokenEq]))
  | _ => exact Effect.idle

theorem effect_beginRetire :
    Effect registry (.beginRetire token) (registry.beginRetire token).2 := by
  fun_cases beginRetire registry token with
  | case4 _ index found => exact Effect.retire index (findTokenUnlocked_some found).2.1
  | _ => exact Effect.idle

theorem effect_deferRetire :
    Effect registry (.deferRetire token) (registry.deferRetire token).2 := by
  fun_cases deferRetire registry token with
  | case4 _ index found retiring =>
    rcases findTokenUnlocked_some found with ⟨_, occupied, tokenEq⟩
    rw [tokenEq]
    exact Effect.restore index occupied (by simpa using retiring)
  | _ => exact Effect.idle

theorem effect_markKernelTid (kernelTid : ℤ) :
    Effect registry (.markKernelTid token kernelTid)
      (registry.markKernelTid token kernelTid).2 := by
  fun_cases markKernelTid registry token kernelTid with
  | case3 _ index found =>
    exact effect_updateExitPending (findTokenUnlocked_some found).2.1
      ⟨rfl, rfl, rfl, rfl, .inl ⟨rfl, rfl⟩⟩
  | _ => exact Effect.idle

theorem effect_markDetached (generation : ℕ) :
    Effect registry (.markDetached tid generation) (registry.markDetached tid generation).2.2 := by
  fun_cases markDetached registry tid generation with
  | case4 _ index found =>
    exact effect_updateExitPending (findUnlocked_some found).2.1
      ⟨rfl, rfl, rfl, rfl, .inl ⟨rfl, rfl⟩⟩
  | _ => exact Effect.idle

theorem effect_markFinalDestructor :
    Effect registry (.markFinalDestructor token) (registry.markFinalDestructor token).2.2 := by
  fun_cases markFinalDestructor registry token with
  | case3 _ index found =>
    exact effect_updateExitPending (findTokenUnlocked_some found).2.1
      ⟨rfl, rfl, rfl, rfl, .inl ⟨rfl, rfl⟩⟩
  | _ => exact Effect.idle

theorem effect_snapshotExitPending (budget : ℕ) :
    Effect registry (.snapshotExitPending budget) (registry.snapshotExitPending budget).2 := by
  unfold snapshotExitPending
  split
  · exact Effect.idle
  · exact Effect.scan _

theorem effect_quarantine : Effect registry (.quarantine tid) (registry.quarantine tid).2 := by
  fun_cases quarantine registry tid with
  | case3 _ index found => exact Effect.abandon index (findUnlocked_some found).2.1
  | _ => exact Effect.idle

theorem effect_next (registry : SlotRegistry Tid) (call : RegistryCall Tid) :
    Effect registry call (machine.next registry call) := by
  cases call with
  | reserveInsert tid => exact effect_reserveInsert tid
  | compareRemove tid generation reusable => exact effect_compareRemove tid generation reusable
  | compareRemoveToken token reusable => exact effect_compareRemoveToken token reusable
  | beginRetire token => exact effect_beginRetire token
  | completeRetire token reusable => exact effect_completeRetire token reusable
  | deferRetire token => exact effect_deferRetire token
  | markKernelTid token kernelTid => exact effect_markKernelTid token kernelTid
  | markDetached tid generation => exact effect_markDetached tid generation
  | markFinalDestructor token => exact effect_markFinalDestructor token
  | snapshotExitPending budget => exact effect_snapshotExitPending budget
  | quarantine tid => exact effect_quarantine tid

end CallEffect

end SlotRegistry

end Peak
