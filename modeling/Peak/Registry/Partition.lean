import Peak.Registry.Invariant

/-!
# The four classes of slots

Every slot below the capacity is never issued, occupied, queued in the reusable
ring exactly once, or abandoned. An abandoned slot stays abandoned forever, and
a call changes the ring only at its ends.
-/

namespace Peak

open List Machine

universe u

inductive SlotClass where
  | neverIssued
  | occupied
  | queued
  | abandoned

namespace SlotRegistry

variable {Tid : Type u}

/-- The slot was issued, but is lost. -/
structure Abandoned (registry : SlotRegistry Tid) (slot : ℕ) : Prop where
  issued : slot < registry.nextSlot
  free : (registry.entries slot).occupied = false
  notQueued : slot ∉ registry.reusableWindow

/-- The class of a slot, by the state of the registry. -/
def InClass (registry : SlotRegistry Tid) (slot : ℕ) : SlotClass → Prop
  | .neverIssued => registry.nextSlot ≤ slot
  | .occupied => (registry.entries slot).occupied = true
  | .queued => registry.reusableWindow.count slot = 1
  | .abandoned => registry.Abandoned slot

theorem WellFormed.existsUnique_class {registry : SlotRegistry Tid}
    (wellFormed : registry.WellFormed) (slot : ℕ) :
    ∃! slotClass, registry.InClass slot slotClass := by
  have queuedIff : registry.reusableWindow.count slot = 1 ↔ slot ∈ registry.reusableWindow := by
    constructor
    · intro once
      exact count_pos_iff.mp (by omega)
    · exact count_eq_one_of_mem wellFormed.queuedNodup
  by_cases fresh : registry.nextSlot ≤ slot
  · refine ⟨.neverIssued, fresh, ?_⟩
    rintro (_ | _ | _ | _) member
    · rfl
    · exact absurd (wellFormed.issued slot member) (by omega)
    · exact absurd (wellFormed.queuedIssued slot (queuedIff.mp member)) (by omega)
    · exact absurd member.issued (by omega)
  · by_cases queued : slot ∈ registry.reusableWindow
    · refine ⟨.queued, queuedIff.mpr queued, ?_⟩
      rintro (_ | _ | _ | _) member
      · exact absurd member fresh
      · exact absurd ((wellFormed.queuedFree slot queued).symm.trans member) (by decide)
      · rfl
      · exact absurd queued member.notQueued
    · cases held : (registry.entries slot).occupied with
      | true =>
        refine ⟨.occupied, held, ?_⟩
        rintro (_ | _ | _ | _) member
        · exact absurd member fresh
        · rfl
        · exact absurd (queuedIff.mp member) queued
        · exact absurd (member.free.symm.trans held) (by decide)
      | false =>
        refine ⟨.abandoned, ⟨by omega, held, queued⟩, ?_⟩
        rintro (_ | _ | _ | _) member
        · exact absurd member fresh
        · exact absurd (held.symm.trans member) (by decide)
        · exact absurd (queuedIff.mp member) queued
        · rfl

variable [DecidableEq Tid] [Inhabited Tid] {registry after : SlotRegistry Tid}
  {call : RegistryCall Tid} {slot : ℕ}

theorem Effect.capacity_eq (effect : Effect registry call after) :
    after.capacity = registry.capacity := by
  cases effect with
  | idle | scan | mark | retire | restore => rfl
  | abandon index => exact registry.discardUnlocked_capacity index
  | recycle => rw [discardUnlocked_capacity]; rfl
  | issue _ _ taken available =>
    exact (taken.discardOld_frame _).1.trans (takeSlot_frame available).2.1

theorem Effect.reusableWindow (wellFormed : registry.WellFormed)
    (effect : Effect registry call after) :
    after.reusableWindow = registry.reusableWindow ∨
      (∃ slot, after.reusableWindow = registry.reusableWindow ++ [slot] ∧
        (registry.entries slot).occupied ∧ (after.entries slot).occupied = false) ∨
      ∃ slot, registry.reusableWindow = slot :: after.reusableWindow := by
  cases effect with
  | idle | scan | mark | retire | restore => exact .inl rfl
  | abandon index => exact .inl (registry.discardUnlocked_reusableWindow index)
  | recycle index _ occupied =>
    refine .inr (.inl ⟨index, ?_, occupied, discardUnlocked_occupied_self _ index⟩)
    rw [discardUnlocked_reusableWindow]
    exact wellFormed.reusableWindow_enqueue occupied
  | issue _ slot _ available =>
    rw [(issue_frame available rfl).2.1]
    rcases wellFormed.takeSlot_window available with popped | ⟨before, now, _⟩
    · exact .inr (.inr ⟨slot, popped⟩)
    · exact .inl (now.trans before.symm)

theorem Abandoned.effect (abandoned : registry.Abandoned slot) (wellFormed : registry.WellFormed)
    (effect : Effect registry call after) : after.Abandoned slot := by
  rcases abandoned with ⟨issued, free, notQueued⟩
  cases effect with
  | idle | scan => exact ⟨issued, free, notQueued⟩
  | mark index entry _ _ occupied | retire index occupied | restore index occupied =>
    refine ⟨issued, ?_, notQueued⟩
    rw [registry.setEntry_entries_of_ne index _ (ne_of_free free occupied)]
    exact free
  | abandon index =>
    exact ⟨by simpa using issued, registry.discardUnlocked_of_free index free,
      by simpa using notQueued⟩
  | recycle index _ occupied =>
    refine ⟨?_, discardUnlocked_of_free _ index free, ?_⟩
    · rw [discardUnlocked_nextSlot]
      exact issued
    · rw [discardUnlocked_reusableWindow, wellFormed.reusableWindow_enqueue occupied]
      simp [notQueued, ne_of_free free occupied]
  | issue _ taken' _ available =>
    rcases issue_frame available rfl with ⟨nextSlot, sameWindow, entries⟩
    have window := wellFormed.takeSlot_window available
    have distinct : slot ≠ taken' := by
      rintro rfl
      rcases window with popped | ⟨_, _, _⟩
      · rw [popped] at notQueued
        exact notQueued mem_cons_self
      · omega
    refine ⟨issued.trans_le nextSlot, ?_, ?_⟩
    · by_contra held
      rw [Bool.not_eq_false] at held
      rw [entries slot distinct held, free] at held
      cases held
    · rw [sameWindow]
      rcases window with popped | ⟨_, now, _⟩
      · rw [popped] at notQueued
        exact fun queued => notQueued (mem_cons_of_mem _ queued)
      · rw [now]
        exact not_mem_nil

variable {capacity : ℕ}

omit [DecidableEq Tid] in
theorem eq_empty_of_init {mutexReady : Bool} (started : init capacity mutexReady = some registry) :
    registry = empty capacity := by
  simp only [init] at started
  split at started
  · cases started
  · exact (Option.some.inj started).symm

theorem capacity_run (capacity : ℕ) (calls : List (RegistryCall Tid)) :
    (machine.run (empty capacity) calls).capacity = capacity := by
  apply run_preserves (motive := fun state : SlotRegistry Tid => state.capacity = capacity)
  · intro current call _ same
    exact (effect_next current call).capacity_eq.trans same
  · rfl

theorem reservations_append_left (earlier later : List (RegistryCall Tid)) :
    registry.reservations earlier ≤ registry.reservations (earlier ++ later) := by
  simp [reservations]

theorem fits_of_reservations {history : List (RegistryCall Tid)} {call : RegistryCall Tid}
    (few : (empty capacity : SlotRegistry Tid).reservations (history ++ [call]) < 2 ^ 64)
    (tid : Tid) (reserving : call = .reserveInsert tid)
    (available : (machine.run (empty capacity) history).takeSlot.isSome) :
    (machine.run (empty capacity : SlotRegistry Tid) history).nextGeneration + 1 < 2 ^ 64 := by
  subst reserving
  have fewer := (reservations_append_left history [.reserveInsert tid]).trans_lt few
  rcases wellFormed_run capacity history fewer with ⟨wellFormed, generation⟩
  rw [generation]
  simp only [reservations, replies_append, countP_append, replies,
    countP_singleton,
    reply_reserveInsert_isReservation wellFormed.initialized, available] at few ⊢
  exact few

variable {earlier later : List (RegistryCall Tid)}

theorem run_continuation {motive : SlotRegistry Tid → Prop}
    (few : (empty capacity : SlotRegistry Tid).reservations (earlier ++ later) < 2 ^ 64)
    (holds : motive (machine.run (empty capacity) earlier))
    (step : ∀ current after call history, history ++ [call] <+: later →
      current = machine.run (empty capacity) (earlier ++ history) →
      WellFormed current → Effect current call after →
      (∀ tid, call = .reserveInsert tid → current.takeSlot.isSome →
        current.nextGeneration + 1 < 2 ^ 64) →
      motive current → motive after) :
    motive (machine.run (empty capacity) (earlier ++ later)) := by
  induction later using reverseRecOn with
  | nil => simpa using holds
  | append_singleton history call ih =>
    rw [← append_assoc] at few ⊢
    have fewer := (reservations_append_left (earlier ++ history) [call]).trans_lt few
    have wellFormed := (wellFormed_run capacity (earlier ++ history) fewer).1
    have before := ih fewer (fun current after call history' initialPart =>
      step current after call history' (initialPart.trans (prefix_append _ _)))
    rw [run_append, run_cons, run_nil]
    exact step _ _ call history (prefix_refl _) rfl wellFormed (effect_next _ call)
      (fits_of_reservations few) before

theorem abandoned_run
    (few : (empty capacity : SlotRegistry Tid).reservations (earlier ++ later) < 2 ^ 64)
    (abandoned : (machine.run (empty capacity) earlier).Abandoned slot) :
    (machine.run (empty capacity) (earlier ++ later)).Abandoned slot := by
  apply run_continuation (motive := fun state => state.Abandoned slot) few abandoned
  intro current after call history _ _ wellFormed effect _ holds
  exact holds.effect wellFormed effect

/-- After every run the slots are partitioned into four classes, abandoned slots are lost for good,
and the ring loses no slot. -/
theorem slots_partitioned {capacity : ℕ} {mutexReady : Bool}
    (started : init capacity mutexReady = some registry) (calls : List (RegistryCall Tid))
    (few : registry.reservations calls < 2 ^ 64) :
    (∀ slot < capacity, ∃! slotClass, (machine.run registry calls).InClass slot slotClass) ∧
    (∀ slot < capacity, (machine.run registry calls).InClass slot .abandoned →
      ∀ later, registry.reservations (calls ++ later) < 2 ^ 64 →
        (machine.run registry (calls ++ later)).InClass slot .abandoned) ∧
    (machine.run registry calls).reusableCount ≤ capacity ∧
    (∀ call, (machine.run registry (calls ++ [call])).reusableWindow =
        (machine.run registry calls).reusableWindow ∨
      (∃ slot, (machine.run registry (calls ++ [call])).reusableWindow =
        (machine.run registry calls).reusableWindow ++ [slot]) ∨
      ∃ slot, (machine.run registry calls).reusableWindow =
        slot :: (machine.run registry (calls ++ [call])).reusableWindow) ∧
    (∀ index < capacity, ((machine.run registry calls).entries index).occupied = true →
      ((machine.run registry calls).entries index).token.slot = index ∧
      ((machine.run registry calls).entries index).token.generation ≠ 0) ∧
    (∀ left < capacity, ∀ right < capacity, left ≠ right →
      ((machine.run registry calls).entries left).occupied = true →
      ((machine.run registry calls).entries right).occupied = true →
      ((machine.run registry calls).entries left).tid ≠
          ((machine.run registry calls).entries right).tid ∧
        ((machine.run registry calls).entries left).token.generation ≠
          ((machine.run registry calls).entries right).token.generation) ∧
    (machine.run registry calls).exitPendingCount =
      ((Finset.range capacity).filter fun index =>
        ((machine.run registry calls).entries index).occupied = true ∧
          ((machine.run registry calls).entries index).exitPending = true).card := by
  have initial := eq_empty_of_init started
  subst initial
  have wellFormed := (wellFormed_run capacity calls few).1
  have sameCapacity := capacity_run capacity calls
  refine ⟨fun slot _ => wellFormed.existsUnique_class slot, ?_, ?_, ?_, ?_, ?_, ?_⟩
  · intro slot _ abandoned later fewer
    exact abandoned_run fewer abandoned
  · have bounded := wellFormed.reusableCount_le
    rwa [sameCapacity] at bounded
  · intro call
    rw [run_append, run_cons, run_nil]
    exact ((effect_next _ call).reusableWindow wellFormed).imp_right
      (Or.imp_left fun ⟨slot, appended, _⟩ => ⟨slot, appended⟩)
  · intro index _ occupied
    exact ⟨wellFormed.tokenSlot index occupied,
      Nat.pos_iff_ne_zero.mp (wellFormed.generationPos index occupied)⟩
  · intro left _ right _ distinct leftHeld rightHeld
    exact ⟨fun same => distinct (wellFormed.tidInjective left right leftHeld rightHeld same),
      fun same => distinct (wellFormed.generationInjective left right leftHeld rightHeld same)⟩
  · have counted := wellFormed.pendingCount
    rwa [pendingSlots, sameCapacity] at counted

/-- A thread identifier is reissued while its previous slot is retiring. -/
theorem slots_partitioned_reissue :
    (SlotRegistry.machine.run (empty 2 : SlotRegistry ℕ)
      [.reserveInsert 7, .beginRetire ⟨0, 1⟩, .reserveInsert 7]).reusableCount ≤ 2 :=
  (slots_partitioned (rfl : init 2 true = some (empty 2 : SlotRegistry ℕ))
    [.reserveInsert 7, .beginRetire ⟨0, 1⟩, .reserveInsert 7] (by decide)).2.2.1

end SlotRegistry

end Peak
