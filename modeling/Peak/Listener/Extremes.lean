import Peak.Listener.CallTimes

/-!
# The shortest and the longest call

The maximum in a slot is that of all calls of the hook. The minimum starts at zero and is only
replaced by a first duration if the counter, which is advanced when a call is entered, stands at one
when it returns. A first call in which the hook is called again leaves a minimum of zero for good.
-/

namespace Peak

open List Option Function SlotCounters ThreadStacks NestedTrace

universe u

variable {Hook : Type u} [DecidableEq Hook] {context : ThreadContext}
  {record : CallRecord (HookedCall Hook) ℚ}

def finishedCalls (record : CallRecord (HookedCall Hook) ℚ) (hook : Hook) :
    List (FinishedCall (HookedCall Hook) ℚ) :=
  record.finished.filter (·.label.hook = hook)

def durations (record : CallRecord (HookedCall Hook) ℚ) (hook : Hook) : Set ℚ :=
  { duration | ∃ call ∈ finishedCalls record hook, call.duration = duration }

/-- The call of the hook which was entered first has returned before any other. -/
def FirstCallReturnsFirst (record : CallRecord (HookedCall Hook) ℚ) (hook : Hook) : Prop :=
  ∃ first later, finishedCalls record hook = first :: later ∧ ∀ call ∈ later, first.id ≤ call.id

instance (record : CallRecord (HookedCall Hook) ℚ) (hook : Hook) :
    Decidable (FirstCallReturnsFirst record hook) :=
  match calls : finishedCalls record hook with
  | [] => isFalse fun ⟨_, _, isFirst, _⟩ => by simp [calls] at isFirst
  | first :: later => decidable_of_iff (∀ call ∈ later, first.id ≤ call.id) <| by
      simp [FirstCallReturnsFirst, calls]

def FirstCallReturned (record : CallRecord (HookedCall Hook) ℚ) (hook : Hook) : Prop :=
  ∃ first later, finishedCalls record hook = first :: later ∧
    (∀ call ∈ later, first.id ≤ call.id) ∧
    ∀ call ∈ record.opened, call.label.hook = hook → first.id ≤ call.id

@[mk_iff]
structure SlotCounters.Extremes (slot : SlotCounters) (record : CallRecord (HookedCall Hook) ℚ)
    (hook : Hook) : Prop where
  unset : finishedCalls record hook = [] → slot.minTime = 0 ∧ slot.maxTime = 0
  greatest : finishedCalls record hook ≠ [] → IsGreatest (durations record hook) slot.maxTime
  least : FirstCallReturned record hook → IsLeast (durations record hook) slot.minTime
  stuck : ¬FirstCallReturned record hook → slot.minTime = 0

theorem SlotCounters.Extremes.congr {slot slot' : SlotCounters} {hook : Hook}
    {record' : CallRecord (HookedCall Hook) ℚ} (extremes : slot.Extremes record hook)
    (minTime : slot'.minTime = slot.minTime) (maxTime : slot'.maxTime = slot.maxTime)
    (finished : finishedCalls record' hook = finishedCalls record hook)
    (returned : FirstCallReturned record' hook ↔ FirstCallReturned record hook) :
    slot'.Extremes record' hook := by
  have sameDurations : durations record' hook = durations record hook := by
    rw [durations, finished, durations]
  rw [extremes_iff] at extremes ⊢
  rwa [minTime, maxTime, finished, returned, sameDurations]

theorem firstCallReturned_enter
    (numbered : record.Numbered) (call : HookedCall Hook) (time : ℚ) (hook : Hook) :
    FirstCallReturned (record.enter call time) hook ↔ FirstCallReturned record hook := by
  constructor
  · rintro ⟨first, later, isFirst, older, oldest⟩
    exact ⟨first, later, isFirst, older, fun other otherMem => oldest other (.tail _ otherMem)⟩
  · rintro ⟨first, later, isFirst, older, oldest⟩
    refine ⟨first, later, isFirst, older, ?_⟩
    have firstMem : first ∈ record.finished := by
      have inFinished : first ∈ finishedCalls record hook := by
        rw [isFirst]
        exact .head _
      exact mem_of_mem_filter inFinished
    intro other otherMem isHook
    rcases mem_cons.mp otherMem with rfl | earlier
    · exact (numbered.finished_lt first firstMem).le
    · exact oldest other earlier isHook

theorem SlotCounters.Extremes.enter {slots : Hook → SlotCounters}
    (extremes : ∀ hook, (slots hook).Extremes record hook) (numbered : record.Numbered)
    (call : HookedCall Hook) (time : ℚ) (hook : Hook) :
    (update slots call.hook (slots call.hook).countCall hook).Extremes
      (record.enter call time) hook := by
  have returned := firstCallReturned_enter numbered call time hook
  by_cases same : hook = call.hook
  · subst same
    rw [update_self]
    exact (extremes _).congr rfl rfl rfl returned
  · rw [update_of_ne same]
    exact (extremes hook).congr rfl rfl rfl returned

section Finish

variable {record : CallRecord (HookedCall Hook) ℚ} {call : OpenCall (HookedCall Hook) ℚ}
  {rest : List (OpenCall (HookedCall Hook) ℚ)} {time : ℚ} {hook : Hook}

theorem finishedCalls_finish_other (other : call.label.hook ≠ hook) :
    finishedCalls (record.finish call rest time) hook = finishedCalls record hook := by
  simp [finishedCalls, CallRecord.finish, other]

theorem finishedCalls_finish_same :
    finishedCalls (record.finish call rest time) call.label.hook =
      finishedCalls record call.label.hook ++
        [⟨call.id, call.label, call.start, time, rest.head?.map (·.id)⟩] := by
  simp [finishedCalls, CallRecord.finish]

theorem durations_finish_same :
    durations (record.finish call rest time) call.label.hook =
      insert (time - call.start) (durations record call.label.hook) := by
  ext duration
  simp only [durations, finishedCalls_finish_same, mem_append, mem_singleton]
  constructor
  · rintro ⟨done, earlier | rfl, rfl⟩
    · exact .inr ⟨done, earlier, rfl⟩
    · exact .inl rfl
  · rintro (rfl | ⟨done, doneMem, rfl⟩)
    · exact ⟨_, .inr rfl, rfl⟩
    · exact ⟨done, .inl doneMem, rfl⟩

theorem firstCallReturned_finish_other (innermost : record.opened = call :: rest)
    (other : call.label.hook ≠ hook) :
    FirstCallReturned (record.finish call rest time) hook ↔ FirstCallReturned record hook := by
  simp only [FirstCallReturned, finishedCalls_finish_other other, innermost,
    forall_mem_cons, other, false_imp_iff, true_and]
  rfl

theorem firstCallReturned_finish_again (innermost : record.opened = call :: rest)
    (returned : finishedCalls record call.label.hook ≠ []) :
    FirstCallReturned (record.finish call rest time) call.label.hook ↔
      FirstCallReturned record call.label.hook := by
  simp only [FirstCallReturned, finishedCalls_finish_same, innermost, forall_mem_cons]
  constructor
  · rintro ⟨_, _, isFirst, older, oldest⟩
    rcases exists_cons_of_ne_nil returned with ⟨first', later', isFirst'⟩
    rw [isFirst', cons_append, cons.injEq] at isFirst
    rcases isFirst with ⟨rfl, rfl⟩
    refine ⟨first', later', isFirst', ?_, ?_, oldest⟩
    · exact fun done doneMem => older done (mem_append_left _ doneMem)
    · exact fun _ => older _ (mem_append_right _ (mem_singleton_self _))
  · rintro ⟨first, later, isFirst, older, younger, oldest⟩
    refine ⟨first, later ++ _, by rw [isFirst, cons_append], ?_, oldest⟩
    exact forall_mem_append.mpr ⟨older, forall_mem_singleton.mpr (younger trivial)⟩

theorem firstCallReturned_finish_first (numbered : record.Numbered)
    (conserved : record.Conserved (·.hook = call.label.hook))
    (innermost : record.opened = call :: rest)
    (none : finishedCalls record call.label.hook = []) :
    FirstCallReturned (record.finish call rest time) call.label.hook ↔
      record.entered.countP (·.hook = call.label.hook) = 1 := by
  have noneFinished : record.finished.countP (·.label.hook = call.label.hook) = 0 := by
    rw [countP_eq_length_filter, length_eq_zero_iff]
    exact none
  rw [conserved, noneFinished, innermost, countP_cons_of_pos (by simp)]
  have alone : rest.countP (·.label.hook = call.label.hook) + 1 + 0 = 1 ↔
      ∀ other ∈ rest, other.label.hook ≠ call.label.hook := by
    simp
  rw [alone, FirstCallReturned, finishedCalls_finish_same, none]
  have descending := numbered.descending
  rw [innermost, pairwise_cons] at descending
  constructor
  · rintro ⟨_, _, isFirst, _, oldest⟩ other otherMem isHook
    rw [nil_append, cons.injEq] at isFirst
    have older := oldest other otherMem isHook
    rw [← isFirst.1] at older
    exact absurd (descending.1 other otherMem) (Nat.not_lt.mpr older)
  · intro noOther
    exact ⟨_, [], rfl, nofun, fun other otherMem isHook => absurd isHook (noOther other otherMem)⟩

end Finish

section Slot

variable {slot : SlotCounters} {record : CallRecord (HookedCall Hook) ℚ}
  {call : OpenCall (HookedCall Hook) ℚ} {rest : List (OpenCall (HookedCall Hook) ℚ)} {time : ℚ}

theorem SlotCounters.Extremes.finish_first
    (extremes : slot.Extremes record call.label.hook) (sums : slot.Sums record call.label.hook)
    (numbered : record.Numbered) (conserved : record.Conserved (·.hook = call.label.hook))
    (innermost : record.opened = call :: rest)
    (none : finishedCalls record call.label.hook = []) (positive : 0 < time - call.start)
    (exclusive : ℚ) :
    (slot.addDuration (time - call.start) exclusive).Extremes (record.finish call rest time)
      call.label.hook := by
  rcases extremes.unset none with ⟨minimum, maximum⟩
  have only : durations (record.finish call rest time) call.label.hook = {time - call.start} := by
    have empty : durations record call.label.hook = ∅ := by
      simp [durations, none]
    rw [durations_finish_same, empty, insert_empty_eq]
  refine ⟨?_, ?_, ?_, ?_⟩
  · intro empty
    simp [finishedCalls_finish_same] at empty
  · intro _
    rw [only, addDuration, maximum]
    simp [positive]
  · rw [firstCallReturned_finish_first numbered conserved innermost none, ← sums.1]
    intro alone
    rw [only, addDuration]
    simp [alone]
  · rw [firstCallReturned_finish_first numbered conserved innermost none, ← sums.1]
    intro others
    simp [addDuration, minimum, others, positive.not_gt]

theorem SlotCounters.Extremes.finish_again
    (extremes : slot.Extremes record call.label.hook) (sums : slot.Sums record call.label.hook)
    (conserved : record.Conserved (·.hook = call.label.hook))
    (innermost : record.opened = call :: rest)
    (returned : finishedCalls record call.label.hook ≠ []) (positive : 0 < time - call.start)
    (exclusive : ℚ) :
    (slot.addDuration (time - call.start) exclusive).Extremes (record.finish call rest time)
      call.label.hook := by
  have several : slot.numCalls ≠ 1 := by
    have someReturned : 0 < record.finished.countP (·.label.hook = call.label.hook) := by
      rw [countP_eq_length_filter]
      exact length_pos_iff.mpr returned
    have counted : slot.numCalls = rest.countP (·.label.hook = call.label.hook) + 1 +
        record.finished.countP (·.label.hook = call.label.hook) := by
      rw [sums.1, conserved, innermost, countP_cons_of_pos (by simp)]
    omega
  refine ⟨?_, ?_, ?_, ?_⟩
  · intro empty
    simp [finishedCalls_finish_same] at empty
  · intro _
    have greatest := (extremes.greatest returned).insert (time - call.start)
    rw [durations_finish_same]
    rw [max_comm, max_def_lt] at greatest
    exact greatest
  · rw [firstCallReturned_finish_again innermost returned, durations_finish_same]
    intro first
    have least := (extremes.least first).insert (time - call.start)
    simpa [addDuration, several, min_def_lt] using least
  · rw [firstCallReturned_finish_again innermost returned]
    intro notFirst
    simp [addDuration, several, extremes.stuck notFirst, positive.not_gt]

end Slot

theorem SlotCounters.Extremes.finish {slots : Hook → SlotCounters}
    (extremes : ∀ hook, (slots hook).Extremes record hook)
    (sums : ∀ hook, (slots hook).Sums record hook) (numbered : record.Numbered)
    (conserved : ∀ hook, record.Conserved (·.hook = hook))
    {call : OpenCall (HookedCall Hook) ℚ} {rest : List (OpenCall (HookedCall Hook) ℚ)}
    (innermost : record.opened = call :: rest) {time : ℚ} (positive : 0 < time - call.start)
    (exclusive : ℚ) (hook : Hook) :
    (update slots call.label.hook ((slots call.label.hook).addDuration
        (time - call.start) exclusive) hook).Extremes (record.finish call rest time) hook := by
  by_cases same : hook = call.label.hook
  · subst same
    rw [update_self]
    by_cases none : finishedCalls record call.label.hook = []
    · exact (extremes _).finish_first (sums _) numbered (conserved _) innermost none positive _
    · exact (extremes _).finish_again (sums _) (conserved _) innermost none positive _
  · have other : call.label.hook ≠ hook := Ne.symm same
    rw [update_of_ne same]
    exact (extremes hook).congr rfl rfl (finishedCalls_finish_other other)
      (firstCallReturned_finish_other innermost other)

def Positive (record : CallRecord (HookedCall Hook) ℚ) : Prop :=
  ∀ call ∈ record.finished, call.start < call.stop

instance (record : CallRecord (HookedCall Hook) ℚ) : Decidable (Positive record) :=
  inferInstanceAs (Decidable (∀ call ∈ record.finished, call.start < call.stop))

structure Bounded (state : ThreadStacks Hook) (trace : NestedTrace Hook) : Prop where
  accounted : Accounted state trace
  conserved : ∀ hook, trace.record.Conserved (·.hook = hook)
  extremes : Positive trace.record → ∀ hook, (state.thread.slots hook).Extremes trace.record hook

theorem bounded_fresh : Bounded (.fresh : ThreadStacks Hook) .start where
  accounted := accounted_fresh
  conserved := fun _ => rfl
  extremes := by
    intro _ hook
    refine ⟨fun _ => ⟨rfl, rfl⟩, fun returned => absurd rfl returned, ?_, fun _ => rfl⟩
    rintro ⟨_, _, isFirst, _⟩
    cases isFirst

theorem Bounded.step {state state' : ThreadStacks Hook} {trace trace' : NestedTrace Hook}
    (bounded : Bounded state trace) (recording : context.Recording)
    {event : CallbackEvent Hook} (nested : trace.step event = some trace')
    (run : state.step context event = some state') : Bounded state' trace' := by
  rcases bounded with ⟨accounted, conserved, extremes⟩
  have numbered := accounted.follows.timed.numbered
  rcases (accounted.follows.step recording nested run).2 with
    ⟨call, time, sameRecord, slots, _⟩ | ⟨call, _, time, innermost, sameRecord, _, slots, _⟩
  · refine ⟨accounted.step recording nested run, ?_, ?_⟩
    · rw [sameRecord]
      exact fun hook => (conserved hook).enter call time
    · rw [sameRecord, slots]
      exact fun positive => SlotCounters.Extremes.enter (extremes positive) numbered call time
  · refine ⟨accounted.step recording nested run, ?_, ?_⟩
    · rw [sameRecord]
      exact fun hook => (conserved hook).finish innermost time
    · rw [sameRecord, slots]
      intro positive hook
      have positiveBefore : Positive trace.record := fun done doneMem =>
        positive done (mem_append_left _ doneMem)
      have took : 0 < time - call.start := sub_pos.mpr
        (positive _ (mem_append_right _ (mem_singleton_self _)))
      exact SlotCounters.Extremes.finish (extremes positiveBefore) accounted.sums numbered
        conserved innermost took _ hook

def flatHistory : List (CallbackEvent Unit) :=
  let call : HookedCall Unit := ⟨false, (), 1, 10, 100, 0⟩
  let isLive : ℕ → ℕ → Bool := fun _ _ => true
  [.enter call isLive 1000, .leave call 3000, .enter call isLive 4000, .leave call 5000]

def recursiveHistory : List (CallbackEvent Unit) :=
  let outer : HookedCall Unit := ⟨false, (), 1, 10, 100, 0⟩
  let inner : HookedCall Unit := ⟨false, (), 1, 10, 90, 0⟩
  let isLive : ℕ → ℕ → Bool := fun _ _ => true
  [.enter outer isLive 1000, .enter inner isLive 2000, .leave inner 3000, .leave outer 5000]

def firstSlotContext : ThreadContext := ⟨some 0, 8, false, false⟩

end Peak
