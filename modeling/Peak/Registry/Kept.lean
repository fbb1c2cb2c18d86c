import Peak.Registry.Stale

/-!
# Kept tokens

A token is kept while its entry is occupied under its generation, or while its slot is
lost. The slot of a kept token is not handed out, and a kept token stays kept until its
slot enters the ring.
-/

namespace Peak

universe u

namespace SlotRegistry

variable {Tid : Type u} {index : ℕ}

variable {registry after : SlotRegistry Tid} {token other : SlotToken}

section

variable (kept : registry.Kept token)

include kept

theorem Kept.holds
    (occupied : (registry.entries token.slot).occupied) : registry.Holds token := by
  rcases kept with holds | abandoned
  · exact holds
  · exact absurd (abandoned.free.symm.trans occupied) (by decide)

theorem Kept.generation_eq (holds : registry.Holds other)
    (same : token.slot = other.slot) : token = other := by
  have occupied : (registry.entries token.slot).occupied := by
    rw [same]
    exact holds.1
  have generation := (kept.holds occupied).2
  rw [same, holds.2] at generation
  cases token
  cases other
  simp_all

end

variable {call : RegistryCall Tid} {tid : Tid}

theorem beginRetire_accepted (accepted : (registry.beginRetire token).1) :
    registry.Holds token ∧ (registry.entries token.slot).retiring = false := by
  unfold beginRetire at accepted
  split at accepted
  · cases accepted
  · cases found : registry.findTokenUnlocked token with
    | none =>
      rw [found] at accepted
      cases accepted
    | some index =>
      rw [found] at accepted
      rcases findTokenUnlocked_some found with ⟨_, occupied, tokenEq⟩
      have slotEq : token.slot = index := congrArg SlotToken.slot tokenEq
      have generationEq := congrArg SlotToken.generation tokenEq
      dsimp only at accepted
      split at accepted
      · cases accepted
      next notRetiring =>
        rw [Holds, slotEq]
        exact ⟨⟨occupied, generationEq.symm⟩, by simpa using notRetiring⟩

@[simp]
theorem reusableWindow_updateExitPending (index : ℕ) :
    (registry.updateExitPendingUnlocked index).2.reusableWindow = registry.reusableWindow := by
  unfold updateExitPendingUnlocked
  dsimp only
  split <;> rfl

def keepsRing : RegistryCall Tid → Bool
  | .reserveInsert _ | .compareRemove .. | .compareRemoveToken .. | .completeRetire .. => false
  | _ => true

variable {slot : ℕ}

variable {reusable : Bool}

theorem mem_reusableWindow_removeEntry (wellFormed : registry.WellFormed)
    (occupied : (registry.entries index).occupied)
    (queued : slot ∈ (registry.removeEntry index reusable).reusableWindow) :
    slot ∈ registry.reusableWindow ∨ slot = index := by
  cases reusable with
  | false =>
    left
    exact (registry.discardUnlocked_reusableWindow index) ▸ queued
  | true =>
    have window : (registry.removeEntry index true).reusableWindow =
        registry.reusableWindow ++ [index] := by
      rw [← wellFormed.reusableWindow_enqueue occupied]
      exact discardUnlocked_reusableWindow _ index
    rw [window, List.mem_append, List.mem_singleton] at queued
    exact queued

theorem mem_reusableWindow_completeRetire (wellFormed : registry.WellFormed)
    (queued : slot ∈ (registry.completeRetire token reusable).2.reusableWindow) :
    slot ∈ registry.reusableWindow ∨ slot = token.slot := by
  revert queued
  unfold completeRetire
  split
  · exact Or.inl
  · cases found : registry.findTokenUnlocked token with
    | none => exact Or.inl
    | some index =>
      rcases findTokenUnlocked_some found with ⟨_, occupied, tokenEq⟩
      have slotEq : token.slot = index := congrArg SlotToken.slot tokenEq
      dsimp only
      split
      · exact Or.inl
      · rw [slotEq]
        exact mem_reusableWindow_removeEntry wellFormed occupied

/-- Where an entry comes from: it had the same thread and token before, its kernel thread is kept or
marked by the call, and a pending exit has a kernel thread. -/
structure Continues (call : RegistryCall Tid) (before after : SlotEntry Tid) : Prop where
  occupied : before.occupied
  tid : after.tid = before.tid
  token : after.token = before.token
  kernelTid : after.kernelTid = before.kernelTid ∨
    0 < after.kernelTid ∧
      ∃ slot, call = .markKernelTid ⟨slot, before.token.generation⟩ after.kernelTid
  pending : after.exitPending → before.exitPending ∨ 0 < after.kernelTid

def AllContinue (registry : SlotRegistry Tid) (call : RegistryCall Tid)
    (after : SlotRegistry Tid) : Prop :=
  ∀ index, (after.entries index).occupied →
    Continues call (registry.entries index) (after.entries index)

variable {entry : SlotEntry Tid}

theorem Continues.refl (call : RegistryCall Tid) (occupied : entry.occupied) :
    Continues call entry entry :=
  ⟨occupied, rfl, rfl, .inl rfl, .inl⟩

theorem allContinue_of_same (same : ∀ index, (after.entries index).occupied →
      after.entries index = registry.entries index) : AllContinue registry call after := by
  intro index held
  have unchanged := same index held
  rw [unchanged] at held ⊢
  exact .refl call held

theorem allContinue_self : AllContinue registry call registry :=
  allContinue_of_same fun _ _ => rfl

theorem allContinue_setEntry (marked : Continues call (registry.entries index) entry) :
    AllContinue registry call (registry.setEntry index entry) := by
  intro position held
  by_cases same : position = index
  · subst same
    rw [setEntry_entries_self]
    exact marked
  · rw [registry.setEntry_entries_of_ne index entry same] at held ⊢
    exact .refl call held

theorem allContinue_updateExitPending (marked : Continues call (registry.entries index) entry) :
    AllContinue registry call
      ((registry.setEntry index entry).updateExitPendingUnlocked index).2 := by
  unfold updateExitPendingUnlocked
  dsimp only
  split
  next => exact allContinue_setEntry marked
  next ready =>
    rw [setEntry_entries_self] at ready ⊢
    simp only [Bool.or_eq_true, not_or, decide_eq_true_eq, not_le] at ready
    dsimp only [setEntry]
    rw [Function.update_idem]
    apply allContinue_setEntry
    exact { marked with pending := fun _ => .inr ready.2 }

theorem allContinue_discard {position : ℕ} :
    AllContinue registry call (registry.discardUnlocked position) :=
  allContinue_of_same fun _ held => (registry.discardUnlocked_of_occupied position held).2

theorem allContinue_removeEntry {reusable : Bool} {position : ℕ} :
    AllContinue registry call (registry.removeEntry position reusable) := by
  cases reusable with
  | false => exact allContinue_discard
  | true =>
    apply allContinue_of_same
    intro index held
    exact (discardUnlocked_of_occupied _ position held).2

theorem allContinue_discardOld {state : SlotRegistry Tid} {old : Option ℕ}
    (same : state.entries = registry.entries) :
    AllContinue registry call (state.discardOld old) := by
  apply allContinue_of_same
  intro index held
  rw [state.discardOld_of_occupied held, same]

variable [DecidableEq Tid]

theorem mem_reusableWindow_compareRemove (wellFormed : registry.WellFormed) {generation : ℕ}
    (queued : slot ∈ (registry.compareRemove tid generation reusable).2.reusableWindow) :
    slot ∈ registry.reusableWindow ∨
      registry.Holds ⟨slot, generation⟩ ∧ (registry.entries slot).retiring = false := by
  revert queued
  unfold compareRemove
  split
  · exact Or.inl
  · cases found : registry.findUnlocked tid with
    | none => exact Or.inl
    | some =>
      have occupied := (findUnlocked_some found).2.1
      dsimp only
      split
      · exact Or.inl
      next accepted =>
        simp only [Bool.or_eq_true, bne_iff_ne, not_or, not_not, Bool.not_eq_true] at accepted
        intro queued
        rcases mem_reusableWindow_removeEntry wellFormed occupied queued with before | rfl
        · exact .inl before
        · exact .inr ⟨⟨occupied, accepted.2⟩, accepted.1⟩

variable [Inhabited Tid]

theorem Kept.effect (kept : registry.Kept token) (wellFormed : registry.WellFormed)
    (effect : Effect registry call after) (notQueued : token.slot ∉ after.reusableWindow) :
    after.Kept token := by
  rcases kept with holds | abandoned
  · have cases := effect.held_after wellFormed holds.1
    rw [holds.2] at cases
    rcases cases with ⟨still, _⟩ | lost | ⟨queued, _⟩
    · exact .inl still
    · exact .inr lost
    · exact absurd queued notQueued
  · exact .inr (abandoned.effect wellFormed effect)

theorem reusableWindow_next (keeps : keepsRing call) :
    (machine.next registry call).reusableWindow = registry.reusableWindow := by
  cases call with
  | reserveInsert | compareRemove | compareRemoveToken | completeRetire => cases keeps
  | beginRetire | deferRetire | markKernelTid | markDetached | markFinalDestructor
  | snapshotExitPending | quarantine =>
    simp only [Machine.next, machine, beginRetire, deferRetire, markKernelTid, markDetached,
      markFinalDestructor, snapshotExitPending, quarantine]
    repeat' split
    all_goals first | rfl | simp

theorem mem_reusableWindow_reserveInsert (wellFormed : registry.WellFormed)
    (queued : slot ∈ (registry.reserveInsert tid).2.reusableWindow) :
    slot ∈ registry.reusableWindow := by
  revert queued
  unfold reserveInsert
  split
  · exact id
  · cases available : registry.takeSlot with
    | none =>
      rw [(registry.discardOld_frame _).2.2.2]
      exact id
    | some pair =>
      change slot ∈ (pair.2.discardOld _).reusableWindow → _
      rw [(pair.2.discardOld_frame _).2.2.2]
      rcases wellFormed.takeSlot_window available with popped | ⟨_, empty, _⟩
      · rw [popped]
        exact List.mem_cons_of_mem _
      · simp [empty]

theorem entries_reserveInsert (call : RegistryCall Tid)
    (held : ((registry.reserveInsert tid).2.entries index).occupied) :
    Continues call (registry.entries index) ((registry.reserveInsert tid).2.entries index) ∨
      ∃ generation, (registry.reserveInsert tid).1 = some ⟨index, generation⟩ ∧
        (registry.reserveInsert tid).2.entries index =
          { (SlotEntry.zero : SlotEntry Tid) with
            tid := tid, token := ⟨index, generation⟩, occupied := true } := by
  revert held
  unfold reserveInsert
  split
  next => exact fun held => .inl (.refl call held)
  next =>
    cases available : registry.takeSlot with
    | none => exact fun held => .inl (allContinue_discardOld rfl index held)
    | some pair =>
      intro held
      by_cases same : index = pair.1
      · right
        subst same
        simp [occupy]
      · left
        have kept : ((pair.2.discardOld (registry.findUnlocked tid)).occupy pair.1 tid).entries
            index = (pair.2.discardOld (registry.findUnlocked tid)).entries index :=
          setEntry_entries_of_ne _ pair.1 _ same
        rw [kept] at held ⊢
        exact allContinue_discardOld (takeSlot_frame available).1 index held

theorem allContinue_next (call : RegistryCall Tid) (other : ∀ tid, call ≠ .reserveInsert tid) :
    AllContinue registry call (machine.next registry call) := by
  have marked {index : ℕ} {entry : SlotEntry Tid} (occupied : (registry.entries index).occupied)
      (tid : entry.tid = (registry.entries index).tid)
      (token : entry.token = (registry.entries index).token)
      (kernelTid : entry.kernelTid = (registry.entries index).kernelTid)
      (pending : entry.exitPending = (registry.entries index).exitPending) :
      Continues call (registry.entries index) entry :=
    ⟨occupied, tid, token, .inl kernelTid, fun isPending => .inl (pending ▸ isPending)⟩
  cases call with
  | reserveInsert tid => exact absurd rfl (other tid)
  | markKernelTid =>
    simp only [Machine.next, machine, markKernelTid]
    split
    · exact allContinue_self
    next positive =>
      simp only [Bool.or_eq_true, decide_eq_true_eq, not_or, not_le] at positive
      split
      · exact allContinue_self
      next index found =>
        rcases findTokenUnlocked_some found with ⟨_, occupied, tokenEq⟩
        refine allContinue_updateExitPending ⟨occupied, rfl, rfl, .inr ?_, .inl⟩
        exact ⟨positive.2, index, by rw [tokenEq]⟩
  | compareRemove | compareRemoveToken | completeRetire | snapshotExitPending | quarantine =>
    simp only [Machine.next, machine, compareRemove, compareRemoveToken, completeRetire,
      snapshotExitPending, quarantine]
    repeat' split
    all_goals
      first
      | exact allContinue_self
      | exact allContinue_removeEntry
      | exact allContinue_discard
  | beginRetire | deferRetire =>
    simp only [Machine.next, machine, beginRetire, deferRetire]
    repeat' split
    all_goals try exact allContinue_self
    all_goals
      rename_i found _
      exact allContinue_setEntry (marked (findTokenUnlocked_some found).2.1 rfl rfl rfl rfl)
  | markDetached =>
    simp only [Machine.next, machine, markDetached]
    repeat' split
    all_goals try exact allContinue_self
    rename_i found _
    exact allContinue_updateExitPending (marked (findUnlocked_some found).2.1 rfl rfl rfl rfl)
  | markFinalDestructor =>
    simp only [Machine.next, machine, markFinalDestructor]
    repeat' split
    all_goals try exact allContinue_self
    rename_i found
    exact allContinue_updateExitPending (marked (findTokenUnlocked_some found).2.1 rfl rfl rfl rfl)

end SlotRegistry

end Peak
