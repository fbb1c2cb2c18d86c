import Peak.Registry.Partition

/-!
# Stale tokens

A generation that was issued and is no longer held is dead: no later call carrying it has
an effect. Hence a generation puts its slot into the ring at most once.
-/

namespace Peak

open Machine

universe u

namespace RegistryReply

def ok : RegistryReply → Bool
  | reserved token => token.isSome
  | done ok => ok
  | marked ok _ => ok
  | candidates found _ => !found.isEmpty

end RegistryReply

namespace RegistryCall

variable {Tid : Type u}

def generation : RegistryCall Tid → Option ℕ
  | compareRemove _ generation _ => some generation
  | compareRemoveToken token _ => some token.generation
  | beginRetire token => some token.generation
  | completeRetire token _ => some token.generation
  | deferRetire token => some token.generation
  | markKernelTid token _ => some token.generation
  | markDetached _ generation => some generation
  | markFinalDestructor token => some token.generation
  | reserveInsert _ | snapshotExitPending _ | quarantine _ => none

end RegistryCall

namespace SlotRegistry

variable {Tid : Type u}

/-- The token is the current one of its slot. -/
def Holds (registry : SlotRegistry Tid) (token : SlotToken) : Prop :=
  (registry.entries token.slot).occupied = true ∧
    (registry.entries token.slot).token.generation = token.generation

/-- The generation is used up. -/
structure Dead (registry : SlotRegistry Tid) (generation : ℕ) : Prop where
  issued : generation ≤ registry.nextGeneration
  unheld : ∀ index, (registry.entries index).occupied →
    (registry.entries index).token.generation ≠ generation

/-- An issued token: only the slot of the token can hold its generation. -/
structure Issued (registry : SlotRegistry Tid) (token : SlotToken) : Prop where
  issued : token.generation ≤ registry.nextGeneration
  slotEq : ∀ index, (registry.entries index).occupied →
    (registry.entries index).token.generation = token.generation → index = token.slot

variable {registry after : SlotRegistry Tid} {token : SlotToken}

theorem Issued.dead (issued : registry.Issued token)
    (lost : ¬registry.Holds token) :
    registry.Dead token.generation where
  issued := issued.issued
  unheld index occupied same := by
    obtain rfl := issued.slotEq index occupied same
    exact lost ⟨occupied, same⟩

theorem Dead.findTokenUnlocked (dead : registry.Dead token.generation) :
    registry.findTokenUnlocked token = none := by
  cases found : registry.findTokenUnlocked token with
  | none => rfl
  | some index =>
    rcases findTokenUnlocked_some found with ⟨_, occupied, tokenEq⟩
    exact absurd (congrArg SlotToken.generation tokenEq).symm (dead.unheld index occupied)

/-- The entry named by the token is retiring, or its slot has been lost. -/
def Withheld (registry : SlotRegistry Tid) (token : SlotToken) : Prop :=
  (registry.Holds token ∧ (registry.entries token.slot).retiring) ∨
    registry.Abandoned token.slot

/-- The entry is occupied under the generation of the token, or its slot is lost. -/
def Kept (registry : SlotRegistry Tid) (token : SlotToken) : Prop :=
  registry.Holds token ∨ registry.Abandoned token.slot

theorem Withheld.kept (withheld : registry.Withheld token) : registry.Kept token :=
  withheld.imp_left And.left

section

variable (wellFormed : registry.WellFormed)

include wellFormed

theorem findTokenUnlocked_of_holds (holds : registry.Holds token) :
    registry.findTokenUnlocked token = some token.slot := by
  have inBounds := (wellFormed.issued token.slot holds.1).trans_le wellFormed.nextSlotLe
  simp [findTokenUnlocked, holds.1, holds.2, inBounds]

theorem WellFormed.abandoned_discard {index : ℕ}
    (occupied : (registry.entries index).occupied) :
    (registry.discardUnlocked index).Abandoned index where
  issued := by simpa using wellFormed.issued index occupied
  free := registry.discardUnlocked_occupied_self index
  notQueued := by
    rw [discardUnlocked_reusableWindow]
    exact wellFormed.notQueued occupied

theorem Kept.notQueued (kept : registry.Kept token) : token.slot ∉ registry.reusableWindow := by
  rcases kept with holds | abandoned
  · exact wellFormed.notQueued holds.1
  · exact abandoned.notQueued

theorem Kept.issued (kept : registry.Kept token) : token.slot < registry.nextSlot := by
  rcases kept with holds | abandoned
  · exact wellFormed.issued _ holds.1
  · exact abandoned.issued

end

variable [DecidableEq Tid] [Inhabited Tid]
  {call : RegistryCall Tid} {earlier later : List (RegistryCall Tid)}

variable {generation : ℕ}

theorem Dead.call_refused (dead : registry.Dead generation)
    (carries : call.generation = some generation) :
    (machine.reply registry call).ok = false ∧ machine.next registry call = registry := by
  cases call with
  | reserveInsert | snapshotExitPending | quarantine => cases carries
  | compareRemove tid | markDetached tid =>
    cases carries
    simp only [reply, next, machine, compareRemove, markDetached]
    split
    · exact ⟨rfl, rfl⟩
    · cases found : registry.findUnlocked tid with
      | none => exact ⟨rfl, rfl⟩
      | some index =>
        have differs := dead.unheld index (findUnlocked_some found).2.1
        simp [differs, RegistryReply.ok]
  | compareRemoveToken token | beginRetire token | completeRetire token | deferRetire token
  | markKernelTid token | markFinalDestructor token =>
    cases carries
    simp only [reply, next, machine, compareRemoveToken, beginRetire,
      completeRetire, deferRetire, markKernelTid, markFinalDestructor,
      dead.findTokenUnlocked]
    split <;> exact ⟨rfl, rfl⟩

section

variable (changes : Effect registry call after)
  (fits : ∀ tid, call = .reserveInsert tid → registry.takeSlot.isSome →
    registry.nextGeneration + 1 < 2 ^ 64)

include changes fits

theorem Effect.held_before :
    registry.nextGeneration ≤ after.nextGeneration ∧
      ∀ index, (after.entries index).occupied →
        ((registry.entries index).occupied = true ∧
          (after.entries index).token = (registry.entries index).token) ∨
        (after.entries index).token = ⟨index, registry.nextGeneration + 1⟩ := by
  cases changes with
  | idle | scan => exact ⟨le_rfl, fun index held => .inl ⟨held, rfl⟩⟩
  | mark changed entry _ _ occupied marked =>
    refine ⟨le_rfl, fun index held => .inl ?_⟩
    by_cases same : index = changed
    · subst same
      rw [setEntry_entries_self]
      exact ⟨occupied, marked.token⟩
    · rw [registry.setEntry_entries_of_ne changed entry same] at held ⊢
      exact ⟨held, rfl⟩
  | retire changed occupied | restore changed occupied =>
    refine ⟨le_rfl, fun index held => .inl ?_⟩
    by_cases same : index = changed
    · subst same
      rw [setEntry_entries_self]
      exact ⟨occupied, rfl⟩
    · rw [registry.setEntry_entries_of_ne changed _ same] at held ⊢
      exact ⟨held, rfl⟩
  | abandon changed | recycle changed =>
    refine ⟨by simp [enqueueReusableUnlocked], fun index held => .inl ?_⟩
    have same := (discardUnlocked_of_occupied _ changed held).2
    rw [same] at held
    exact ⟨held, congrArg SlotEntry.token same⟩
  | issue tid slot taken available =>
    rcases takeSlot_frame available with ⟨_, _, takenGeneration, _⟩
    have generationEq :
        issueGeneration (taken.discardOld (registry.findUnlocked tid)).nextGeneration =
          registry.nextGeneration + 1 := by
      rw [(taken.discardOld_frame _).2.2.1, takenGeneration]
      exact WellFormed.issueGeneration_eq (fits tid rfl (by rw [available]; rfl))
    refine ⟨?_, ?_⟩
    · change registry.nextGeneration ≤ issueGeneration _
      omega
    · intro index held
      by_cases same : index = slot
      · subst same
        right
        simp [occupy, generationEq]
      · left
        have unchanged := (issue_frame available rfl).2.2 index same held
        rw [unchanged] at held ⊢
        exact ⟨held, rfl⟩

theorem Effect.issued_before (issued : generation ≤ registry.nextGeneration) {index : ℕ}
    (held : (after.entries index).occupied)
    (same : (after.entries index).token.generation = generation) :
    (registry.entries index).occupied ∧
      (registry.entries index).token.generation = generation := by
  rcases (changes.held_before fits).2 index held with ⟨heldBefore, token⟩ | token
  · rw [token] at same
    exact ⟨heldBefore, same⟩
  · rw [token] at same
    dsimp only at same
    omega

theorem Dead.effect (dead : registry.Dead generation) : after.Dead generation := by
  refine ⟨dead.issued.trans (changes.held_before fits).1, fun index held same => ?_⟩
  have before := changes.issued_before fits dead.issued held same
  exact dead.unheld index before.1 before.2

theorem Issued.effect (issued : registry.Issued token) : after.Issued token := by
  refine ⟨issued.issued.trans (changes.held_before fits).1, fun index held same => ?_⟩
  have before := changes.issued_before fits issued.issued held same
  exact issued.slotEq index before.1 before.2

end

theorem reserveInsert_reply {tid : Tid}
    (reserved : machine.reply registry (.reserveInsert tid) = .reserved (some token)) :
    ∃ taken, registry.takeSlot = some (token.slot, taken) ∧
      ((machine.next registry (.reserveInsert tid)).entries token.slot).occupied ∧
      ((machine.next registry (.reserveInsert tid)).entries token.slot).token = token := by
  simp only [reply, next, machine, reserveInsert] at reserved ⊢
  split at reserved
  · cases reserved
  next initialized =>
    cases available : registry.takeSlot with
    | none =>
      rw [available] at reserved
      cases reserved
    | some pair =>
      rw [available] at reserved
      simp only [RegistryReply.reserved.injEq, Option.some.injEq] at reserved
      have slotEq : token.slot = pair.1 := by
        rw [← reserved]
        simp [occupy]
      refine ⟨pair.2, by rw [slotEq], ?_, ?_⟩
      · simp [initialized, slotEq, occupy]
      · simpa [initialized, slotEq] using reserved

variable {capacity : ℕ}

theorem issued_run {calls : List (RegistryCall Tid)}
    (few : (empty capacity : SlotRegistry Tid).reservations calls < 2 ^ 64)
    (reserved : .reserved (some token) ∈ machine.replies (empty capacity) calls) :
    (machine.run (empty capacity) calls).Issued token := by
  rcases mem_replies reserved with ⟨earlier, call, later, rfl, answer⟩
  have split : earlier ++ call :: later = (earlier ++ [call]) ++ later := by simp
  rw [split] at few ⊢
  apply run_continuation (motive := fun state => state.Issued token) few
  · have fewer := (reservations_append_left (earlier ++ [call]) later).trans_lt few
    have wellFormed := (wellFormed_run capacity (earlier ++ [call]) fewer).1
    rw [run_append, run_cons, run_nil] at wellFormed ⊢
    cases call with
    | reserveInsert =>
      rcases reserveInsert_reply answer with ⟨_, _, occupied, tokenEq⟩
      refine ⟨?_, ?_⟩
      · have bounded := wellFormed.generationLe token.slot occupied
        rwa [tokenEq] at bounded
      · intro index held same
        apply wellFormed.generationInjective index token.slot held occupied
        rw [same, tokenEq]
    | _ => cases answer
  · intro current after call history _ _ _ effect fits issued
    exact issued.effect effect fits

theorem dead_run
    (few : (empty capacity : SlotRegistry Tid).reservations (earlier ++ later) < 2 ^ 64)
    (dead : (machine.run (empty capacity) earlier).Dead generation) :
    (machine.run (empty capacity) (earlier ++ later)).Dead generation := by
  apply run_continuation (motive := fun state => state.Dead generation) few dead
  intro current after call history _ _ _ effect fits holds
  exact holds.effect effect fits

/-- The call puts the slot of an entry of the given generation into the ring. -/
def PutsInRing (registry : SlotRegistry Tid) (call : RegistryCall Tid) (generation : ℕ) : Prop :=
  ∃ slot, (machine.next registry call).reusableWindow = registry.reusableWindow ++ [slot] ∧
    (registry.entries slot).token.generation = generation

theorem beginRetire_withheld (accepted : (machine.reply registry (.beginRetire token)).ok) :
    (machine.next registry (.beginRetire token)).Withheld token := by
  simp only [reply, next, machine, beginRetire] at accepted ⊢
  split at accepted
  · cases accepted
  next initialized =>
    cases found : registry.findTokenUnlocked token with
    | none => simp [found, RegistryReply.ok] at accepted
    | some index =>
      rcases findTokenUnlocked_some found with ⟨_, occupied, tokenEq⟩
      have slotEq : token.slot = index := congrArg SlotToken.slot tokenEq
      have generationEq := congrArg SlotToken.generation tokenEq
      left
      simp only [found] at accepted ⊢
      split at accepted
      · cases accepted
      next notRetiring =>
        simp [initialized, notRetiring, Holds, slotEq, occupied, generationEq]

section

variable (wellFormed : registry.WellFormed)

include wellFormed

theorem Effect.appended {slot : ℕ} (effect : Effect registry call after)
    (appended : after.reusableWindow = registry.reusableWindow ++ [slot]) :
    (registry.entries slot).occupied ∧ (after.entries slot).occupied = false := by
  rcases effect.reusableWindow wellFormed with same | ⟨index, window, freed⟩ | ⟨index, popped⟩
  · rw [same] at appended
    simp at appended
  · rw [window] at appended
    simp only [List.append_cancel_left_eq, List.cons.injEq, and_true] at appended
    exact appended ▸ freed
  · have lengths := congrArg List.length popped
    simp [appended] at lengths
    omega

theorem PutsInRing.dead (puts : registry.PutsInRing call generation)
    (fits : ∀ tid, call = .reserveInsert tid → registry.takeSlot.isSome →
      registry.nextGeneration + 1 < 2 ^ 64) : (machine.next registry call).Dead generation := by
  rcases puts with ⟨slot, appended, rfl⟩
  have effect := effect_next registry call
  rcases effect.appended wellFormed appended with ⟨occupied, freed⟩
  have bounded := wellFormed.generationLe slot occupied
  refine ⟨bounded.trans (effect.held_before fits).1, fun index held same => ?_⟩
  have before := effect.issued_before fits bounded held same
  exact ne_of_free freed held
    (wellFormed.generationInjective index slot before.1 occupied before.2).symm

theorem PutsInRing.not_dead (puts : registry.PutsInRing call generation)
    : ¬registry.Dead generation := by
  rcases puts with ⟨slot, appended, rfl⟩
  intro dead
  exact dead.unheld slot ((effect_next registry call).appended wellFormed appended).1 rfl

theorem Effect.held_after {slot : ℕ} (effect : Effect registry call after)
    (occupied : (registry.entries slot).occupied) :
    (after.Holds ⟨slot, (registry.entries slot).token.generation⟩ ∧
      ((registry.entries slot).retiring = true → (after.entries slot).retiring ∨
        call = .deferRetire ⟨slot, (registry.entries slot).token.generation⟩)) ∨
    after.Abandoned slot ∨
    slot ∈ after.reusableWindow ∧ ((registry.entries slot).retiring = false ∨
      call = .completeRetire ⟨slot, (registry.entries slot).token.generation⟩ true) := by
  have same (unchanged : after.entries slot = registry.entries slot) :
      after.Holds ⟨slot, (registry.entries slot).token.generation⟩ ∧
        ((registry.entries slot).retiring = true → (after.entries slot).retiring ∨
          call = .deferRetire ⟨slot, (registry.entries slot).token.generation⟩) := by
    rw [Holds, unchanged]
    exact ⟨⟨occupied, rfl⟩, .inl⟩
  cases effect with
  | idle | scan => exact .inl (same rfl)
  | mark index entry _ _ _ marked =>
    left
    by_cases here : slot = index
    · subst here
      dsimp only [Holds]
      rw [setEntry_entries_self, marked.token]
      exact ⟨⟨marked.occupied.trans occupied, rfl⟩, fun retiring =>
        .inl (marked.retiring.trans retiring)⟩
    · exact same (registry.setEntry_entries_of_ne index entry here)
  | retire index =>
    left
    by_cases here : slot = index
    · subst here
      rw [Holds, setEntry_entries_self]
      exact ⟨⟨occupied, rfl⟩, fun _ => .inl rfl⟩
    · exact same (registry.setEntry_entries_of_ne index _ here)
  | restore index =>
    left
    by_cases here : slot = index
    · subst here
      rw [Holds, setEntry_entries_self]
      exact ⟨⟨occupied, rfl⟩, fun _ => .inr rfl⟩
    · exact same (registry.setEntry_entries_of_ne index _ here)
  | abandon index held =>
    by_cases here : slot = index
    · subst here
      exact .inr (.inl (wellFormed.abandoned_discard held))
    · exact .inl (same (registry.discardUnlocked_entries_of_ne index here))
  | recycle index _ held permitted =>
    by_cases here : slot = index
    · subst here
      refine .inr (.inr ⟨?_, permitted⟩)
      rw [discardUnlocked_reusableWindow, wellFormed.reusableWindow_enqueue held]
      simp
    · exact .inl (same (discardUnlocked_entries_of_ne _ index here))
  | issue tid issued taken available =>
    have takenSlot := wellFormed.takeSlot_taken available
    rcases issue_frame available rfl with ⟨nextSlot, window, others⟩
    have takenOccupied : (taken.entries slot).occupied := by
      rw [(takeSlot_frame available).1]
      exact occupied
    cases held : (((taken.discardOld (registry.findUnlocked tid)).occupy issued tid).entries
        slot).occupied with
    | true => exact .inl (same (others slot (ne_of_free takenSlot.free takenOccupied).symm held))
    | false =>
      refine .inr (.inl ⟨(wellFormed.issued slot occupied).trans_le nextSlot, held, ?_⟩)
      rw [window]
      exact takenSlot.wellFormed.notQueued takenOccupied

theorem Withheld.effect (withheld : registry.Withheld token)
    (effect : Effect registry call after) (notCompleted : call = .completeRetire token true →
      (machine.reply registry call).ok = false)
    (notDeferred : call = .deferRetire token → (machine.reply registry call).ok = false) :
    after.Withheld token := by
  rcases withheld with ⟨holds, retiring⟩ | abandoned
  · have found := findTokenUnlocked_of_holds wellFormed holds
    have cases := effect.held_after wellFormed holds.1
    rw [holds.2] at cases
    rcases cases with ⟨still, kept⟩ | lost | ⟨_, notRetiring | completes⟩
    · rcases kept retiring with stillRetiring | defers
      · exact .inl ⟨still, stillRetiring⟩
      · have refused := notDeferred defers
        subst defers
        simp [reply, machine, deferRetire, wellFormed.initialized, found, retiring,
          RegistryReply.ok] at refused
    · exact .inr lost
    · exact absurd (notRetiring.symm.trans retiring) (by decide)
    · have refused := notCompleted completes
      subst completes
      simp [reply, machine, completeRetire, wellFormed.initialized, found, retiring,
        RegistryReply.ok] at refused
  · exact .inr (abandoned.effect wellFormed effect)

end

theorem Kept.slot_ne (kept : registry.Kept token) (wellFormed : registry.WellFormed)
    {handed : SlotToken} {tid : Tid}
    (reserved : machine.reply registry (.reserveInsert tid) = .reserved (some handed)) :
    handed.slot ≠ token.slot := by
  rcases reserveInsert_reply reserved with ⟨_, available, _⟩
  have issued := kept.issued wellFormed
  have notQueued := kept.notQueued wellFormed
  intro same
  rcases wellFormed.takeSlot_window available with popped | ⟨_, _, _⟩
  · apply notQueued
    rw [popped, same]
    exact List.mem_cons_self
  · omega

theorem withheld_run (few : (empty capacity : SlotRegistry Tid).reservations
      (earlier ++ .beginRetire token :: later) < 2 ^ 64)
    (accepted : (machine.reply (machine.run (empty capacity) earlier)
      (.beginRetire token)).ok) (pending : ∀ history call, history ++ [call] <+: later →
      call = .completeRetire token true ∨ call = .deferRetire token →
      (machine.reply (machine.run (empty capacity)
        (earlier ++ .beginRetire token :: history)) call).ok = false) :
    (machine.run (empty capacity) (earlier ++ .beginRetire token :: later)).Withheld token := by
  have split : ∀ rest, earlier ++ .beginRetire token :: rest =
      (earlier ++ [.beginRetire token]) ++ rest := by simp
  rw [split] at few ⊢
  apply run_continuation (motive := fun state => state.Withheld token) few
  · rw [run_append, run_cons, run_nil]
    exact beginRetire_withheld accepted
  · intro current after call history initialPart currentEq wellFormed effect _ withheld
    rw [currentEq] at withheld wellFormed effect
    rw [← split] at withheld wellFormed effect
    exact withheld.effect wellFormed effect
      (fun completes => pending history call initialPart (.inl completes))
      (fun defers => pending history call initialPart (.inr defers))

/-- Calls with a lost generation are refused, a generation recycles its slot at most once, and a
retiring slot is not handed out. -/
theorem stale_tokens_refused {capacity : ℕ} {mutexReady : Bool}
    (started : init capacity mutexReady = some registry) :
    (∀ (earlier later : List (RegistryCall Tid)) (token : SlotToken) (call : RegistryCall Tid),
      registry.reservations (earlier ++ later) < 2 ^ 64 →
      .reserved (some token) ∈ machine.replies registry earlier →
      ¬(machine.run registry earlier).Holds token →
      call.generation = some token.generation →
      (machine.reply (machine.run registry (earlier ++ later)) call).ok = false ∧
        machine.next (machine.run registry (earlier ++ later)) call =
          machine.run registry (earlier ++ later)) ∧
    (∀ (earlier between : List (RegistryCall Tid)) (first second : RegistryCall Tid)
      (generation : ℕ),
      registry.reservations (earlier ++ first :: between) < 2 ^ 64 →
      (machine.run registry earlier).PutsInRing first generation →
      ¬(machine.run registry (earlier ++ first :: between)).PutsInRing second generation) ∧
    (∀ (earlier later : List (RegistryCall Tid)) (token handed : SlotToken) (tid : Tid),
      registry.reservations (earlier ++ .beginRetire token :: later) < 2 ^ 64 →
      (machine.reply (machine.run registry earlier) (.beginRetire token)).ok = true →
      (∀ history call, history ++ [call] <+: later →
        call = .completeRetire token true ∨ call = .deferRetire token →
        (machine.reply (machine.run registry
          (earlier ++ .beginRetire token :: history)) call).ok = false) →
      machine.reply (machine.run registry (earlier ++ .beginRetire token :: later))
        (.reserveInsert tid) = .reserved (some handed) →
      handed.slot ≠ token.slot) := by
  have initial := eq_empty_of_init started
  subst initial
  refine ⟨?_, ?_, ?_⟩
  · intro earlier later token call few reserved lost carries
    have fewer := (reservations_append_left earlier later).trans_lt few
    have dead := (issued_run fewer reserved).dead lost
    exact (dead_run few dead).call_refused carries
  · intro earlier between first second generation few puts again
    have split : earlier ++ first :: between = (earlier ++ [first]) ++ between := by simp
    have wellFormed := (wellFormed_run capacity _ few).1
    apply again.not_dead wellFormed
    rw [split] at few ⊢
    apply dead_run few
    have fewer := (reservations_append_left (earlier ++ [first]) between).trans_lt few
    rw [run_append, run_cons, run_nil]
    exact puts.dead (wellFormed_run capacity earlier
      ((reservations_append_left earlier [first]).trans_lt fewer)).1
      (fits_of_reservations fewer)
  · intro earlier later token handed tid few accepted pending reserved
    have withheld := withheld_run few accepted pending
    exact withheld.kept.slot_ne (wellFormed_run capacity _ few).1 reserved

/-- A removed entry keeps its generation number but its token is refused. -/
theorem stale_tokens_refused_removed :
    (machine.reply (machine.run (empty 1 : SlotRegistry ℕ)
      ([.reserveInsert 7, .quarantine 7] ++ [])) (.beginRetire ⟨0, 1⟩)).ok = false :=
  ((stale_tokens_refused (rfl : init 1 true = some (empty 1 : SlotRegistry ℕ))).1
    [.reserveInsert 7, .quarantine 7] [] ⟨0, 1⟩ (.beginRetire ⟨0, 1⟩)
    (by decide) (by decide) (by unfold Holds; decide) rfl).1

/-- A deferred entry is removable again, so that its slot can be handed out although the retirement
was never completed. -/
theorem deferred_slot_reissued :
    ¬∀ (later : List (RegistryCall ℕ)) (handed : SlotToken),
      (machine.reply (machine.run (empty 1 : SlotRegistry ℕ) [.reserveInsert 7])
        (.beginRetire ⟨0, 1⟩)).ok = true →
      (∀ history, history ++ [.completeRetire ⟨0, 1⟩ true] <+: later →
        (machine.reply (machine.run (empty 1 : SlotRegistry ℕ)
          ([.reserveInsert 7] ++ .beginRetire ⟨0, 1⟩ :: history))
          (.completeRetire ⟨0, 1⟩ true)).ok = false) →
      machine.reply (machine.run (empty 1 : SlotRegistry ℕ)
        ([.reserveInsert 7] ++ .beginRetire ⟨0, 1⟩ :: later)) (.reserveInsert 8) =
          .reserved (some handed) →
      handed.slot ≠ 0 := by
  intro claimed
  apply claimed [.deferRetire ⟨0, 1⟩, .compareRemoveToken ⟨0, 1⟩ true] ⟨0, 2⟩ (by decide) _
    (by decide) rfl
  intro history initialPart
  have completes : .completeRetire ⟨0, 1⟩ true ∈
      ([.deferRetire ⟨0, 1⟩, .compareRemoveToken ⟨0, 1⟩ true] : List (RegistryCall ℕ)) :=
    initialPart.subset (by simp)
  simp at completes

end SlotRegistry

end Peak
