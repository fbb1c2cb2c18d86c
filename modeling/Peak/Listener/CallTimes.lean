import Peak.Common.Runs
import Peak.Listener.Stacks

/-!
# The times of the hooked calls

Along every trace of nested calls the slots of the thread hold the number of calls of each
hook, the sum of their durations, and the sum of what remains of the durations without the
calls made directly from them.
-/

namespace Peak

open NestedTrace Function

universe u

variable {Hook : Type u} {context : ThreadContext} {record : CallRecord (HookedCall Hook) ℚ}

structure NestedTrace.Timed (trace : NestedTrace Hook) : Prop where
  numbered : trace.record.Numbered
  balanced : trace.record.Balanced
  timely : trace.record.Timely (peakSecond trace.now) trace.record.opened
  started : ∀ call ∈ trace.record.opened, call.start ≤ peakSecond trace.now

theorem NestedTrace.timed_start : (start : NestedTrace Hook).Timed where
  numbered := CallRecord.numbered_empty
  balanced := CallRecord.balanced_empty
  timely := trivial
  started := nofun

variable {trace : NestedTrace Hook} {now : ℕ}

theorem NestedTrace.Timed.enter (timed : trace.Timed) (later : trace.now ≤ now)
    (call : HookedCall Hook) : Timed ⟨trace.record.enter call (peakSecond now), now⟩ := by
  have seconds := peakSecond_le_iff.mpr later
  refine ⟨timed.numbered.enter _ _, timed.balanced.enter timed.numbered _ _,
    timed.timely.enter timed.numbered seconds call, ?_⟩
  intro other otherMem
  rcases List.mem_cons.mp otherMem with rfl | earlier
  · exact le_rfl
  · exact (timed.started other earlier).trans seconds

variable {call : OpenCall (HookedCall Hook) ℚ} {rest : List (OpenCall (HookedCall Hook) ℚ)}

theorem NestedTrace.Timed.finish (timed : trace.Timed)
    (innermost : trace.record.opened = call :: rest) (later : trace.now ≤ now) :
    Timed ⟨trace.record.finish call rest (peakSecond now), now⟩ := by
  refine ⟨timed.numbered.finish innermost _, timed.balanced.finish timed.numbered innermost _,
    timed.timely.finish timed.numbered innermost _, ?_⟩
  intro other otherMem
  have started := timed.started
  rw [innermost] at started
  exact (started other (.tail _ otherMem)).trans (peakSecond_le_iff.mpr later)

theorem NestedTrace.Timed.nestedTime_le (timed : trace.Timed)
    (innermost : trace.record.opened = call :: rest) (later : trace.now ≤ now) :
    trace.record.nestedTime call.id ≤ peakSecond now - call.start := by
  have timely := timed.timely.later (peakSecond_le_iff.mpr later)
  rw [innermost] at timely
  exact timely.1

variable [DecidableEq Hook] {event : CallbackEvent Hook}

theorem NestedTrace.step_cases {after : NestedTrace Hook} (stepped : trace.step event = some after)
    :
    (∃ call isLive now, event = .enter call isLive now ∧ trace.now ≤ now ∧
        (∀ outer ∈ trace.record.opened, InProgress isLive call.stackAddress outer.label) ∧
        after = ⟨trace.record.enter call (peakSecond now), now⟩) ∨
      ∃ call rest now, event = .leave call.label now ∧ trace.now ≤ now ∧
        trace.record.opened = call :: rest ∧
        after = ⟨trace.record.finish call rest (peakSecond now), now⟩ := by
  cases event with
  | enter call isLive now =>
    rw [step] at stepped
    split at stepped
    next admitted =>
      cases stepped
      exact .inl ⟨call, isLive, now, rfl, admitted.1, admitted.2, rfl⟩
    · cases stepped
  | leave _ now =>
    rw [step] at stepped
    split at stepped
    · cases stepped
    next call rest innermost =>
      split at stepped
      next admitted =>
        rcases admitted with ⟨later, rfl⟩
        cases stepped
        exact .inr ⟨call, rest, now, rfl, later, innermost, rfl⟩
      · cases stepped

def SlotCounters.Sums (slot : SlotCounters) (record : CallRecord (HookedCall Hook) ℚ)
    (hook : Hook) : Prop :=
  slot.numCalls = record.entered.countP (·.hook = hook) ∧
    slot.totalTime = record.totalTime (·.hook = hook) ∧
    slot.exclusiveTime = record.exclusiveTime (·.hook = hook)

theorem SlotCounters.Sums.enter {slots : Hook → SlotCounters}
    (sums : ∀ hook, (slots hook).Sums record hook)
    (call : HookedCall Hook) (time : ℚ) (hook : Hook) :
    (update slots call.hook (slots call.hook).countCall hook).Sums
      (record.enter call time) hook := by
  rcases sums hook with ⟨calls, total, exclusive⟩
  by_cases same : hook = call.hook
  · subst same
    rw [update_self]
    refine ⟨?_, total, exclusive⟩
    simp [SlotCounters.countCall, CallRecord.enter, calls]
  · rw [update_of_ne same]
    refine ⟨?_, total, exclusive⟩
    simp [CallRecord.enter, calls, Ne.symm same]

theorem exclusiveDuration_eq {duration nested : ℚ} (fits : nested ≤ duration) :
    exclusiveDuration duration nested = duration - nested := by
  rw [exclusiveDuration]
  split
  next whole =>
    rw [le_antisymm fits whole, sub_self]
  · rfl

theorem SlotCounters.Sums.finish {slots : Hook → SlotCounters}
    (sums : ∀ hook, (slots hook).Sums record hook)
    (numbered : record.Numbered) (innermost : record.opened = call :: rest) {time : ℚ}
    (fits : record.nestedTime call.id ≤ time - call.start) (hook : Hook) :
    (update slots call.label.hook ((slots call.label.hook).addDuration
        (time - call.start)
        (exclusiveDuration (time - call.start) (record.nestedTime call.id))) hook).Sums
      (record.finish call rest time) hook := by
  rcases sums hook with ⟨calls, total, exclusive⟩
  rw [SlotCounters.Sums, CallRecord.totalTime_finish, numbered.exclusiveTime_finish innermost]
  by_cases same : hook = call.label.hook
  · subst same
    rw [update_self, exclusiveDuration_eq fits]
    refine ⟨calls, ?_, ?_⟩
    · simp [SlotCounters.addDuration, total]
    · simp [SlotCounters.addDuration, exclusive]
  · rw [update_of_ne same]
    refine ⟨calls, ?_, ?_⟩
    · simp [total, Ne.symm same]
    · simp [exclusive, Ne.symm same]

def CallRecorded (before after : ListenerThread Hook)
    (record record' : CallRecord (HookedCall Hook) ℚ) : Prop :=
  (∃ call time, record' = record.enter call time ∧ Counted before after call.hook) ∨
    ∃ call rest time, record.opened = call :: rest ∧ record' = record.finish call rest time ∧
      record.nestedTime call.id ≤ time - call.start ∧
      Finished before after call.label.hook (time - call.start) (record.nestedTime call.id)

structure Follows (state : ThreadStacks Hook) (trace : NestedTrace Hook) : Prop where
  agree : StacksAgree state trace
  timed : trace.Timed

variable {state : ThreadStacks Hook}

theorem Follows.step {state' : ThreadStacks Hook} {trace' : NestedTrace Hook}
    (follows : Follows state trace) (recording : context.Recording)
    (nested : trace.step event = some trace') (run : state.step context event = some state') :
    Follows state' trace' ∧
      CallRecorded state.thread state'.thread trace.record trace'.record := by
  rcases follows with ⟨agree, timed⟩
  rcases step_cases nested with
    ⟨call, _, now, rfl, later, inProgress, rfl⟩ | ⟨call, rest, now, rfl, later, innermost, rfl⟩
  · rcases agree.beginInvocation recording timed.numbered inProgress run with ⟨agree', counted⟩
    exact ⟨⟨agree', timed.enter later call⟩, .inl ⟨call, peakSecond now, rfl, counted⟩⟩
  · have finishedTimed := timed.finish innermost later
    have started : call.start ≤ peakSecond now := by
      have startedBefore := timed.started call (by rw [innermost]; exact .head _)
      exact startedBefore.trans (peakSecond_le_iff.mpr later)
    rcases agree.endInvocation recording timed.numbered innermost started run with
      ⟨agree', finished⟩
    exact ⟨⟨agree', finishedTimed⟩, .inr ⟨call, rest, peakSecond now, innermost, rfl,
      timed.nestedTime_le innermost later, finished⟩⟩

/-- The slots hold the sums of the calls, and no duration was cut off. -/
structure Accounted (state : ThreadStacks Hook) (trace : NestedTrace Hook) : Prop where
  follows : Follows state trace
  sums : ∀ hook, (state.thread.slots hook).Sums trace.record hook
  unclamped : ∀ duration ∈ state.thread.durations, duration.2 ≤ duration.1

theorem accounted_fresh : Accounted (.fresh : ThreadStacks Hook) .start where
  follows := ⟨stacksAgree_fresh, timed_start⟩
  sums := fun _ => ⟨rfl, rfl, rfl⟩
  unclamped := nofun

theorem Accounted.step {state' : ThreadStacks Hook} {trace' : NestedTrace Hook}
    (accounted : Accounted state trace) (recording : context.Recording)
    (nested : trace.step event = some trace') (run : state.step context event = some state') :
    Accounted state' trace' := by
  rcases accounted with ⟨follows, sums, unclamped⟩
  rcases follows.step recording nested run with ⟨follows', recorded⟩
  refine ⟨follows', ?_, ?_⟩
  · intro hook
    rcases recorded with ⟨call, time, sameRecord, slots, _⟩ |
      ⟨call, _, time, innermost, sameRecord, fits, slots, _⟩
    · rw [sameRecord, slots]
      exact SlotCounters.Sums.enter sums call time hook
    · rw [sameRecord, slots]
      exact SlotCounters.Sums.finish sums follows.timed.numbered innermost fits hook
  · rcases recorded with ⟨call, time, _, _, durations⟩ |
      ⟨call, _, time, _, _, fits, _, durations⟩
    · rw [durations]
      exact unclamped
    · rw [durations]
      exact List.forall_mem_append.mpr ⟨unclamped, List.forall_mem_singleton.mpr fits⟩

theorem accounted_run (recording : context.Recording) {history : List (CallbackEvent Hook)}
    (nested : history.foldlM step .start = some trace)
    (run : history.foldlM (ThreadStacks.step context) .fresh = some state) :
    Accounted state trace :=
  foldlM_related (fun accounted stepped traced => accounted.step recording traced stepped)
    accounted_fresh run nested

/-- A call of the first hook, from which the second one calls itself in place. -/
def nestedHistory : List (CallbackEvent Bool) :=
  let outer : HookedCall Bool := ⟨false, true, 1, 10, 100, 0⟩
  let inner : HookedCall Bool := ⟨true, false, 2, 20, 90, 0⟩
  let again : HookedCall Bool := ⟨false, false, 2, 20, 90, 0⟩
  let isLive : ℕ → ℕ → Bool := fun _ _ => true
  [.enter outer isLive 1000, .enter inner isLive 2000, .enter again isLive 3000,
    .leave again 5000, .leave inner 9000, .leave outer 10000]

end Peak
