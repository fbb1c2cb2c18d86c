import Mathlib.Algebra.Order.Field.Basic
import Mathlib.Data.Rat.Cast.Order
import Peak.Common.NestedCalls
import Peak.Listener.Invocation

/-!
# The stacks of a thread along nested calls

As long as every call returns before the one it was made from, both stacks hold
exactly the calls in progress: an entry for each of them, in order, and an entry of
Gum for each call of the generic dispatch. No callback then abandons an entry.
-/

namespace Peak

open ListenerThread Function List

universe u

variable {isLive : ℕ → ℕ → Bool}

structure NestedTrace (Hook : Type u) where
  record : CallRecord (HookedCall Hook) ℚ
  now : ℕ

namespace NestedTrace

variable {Hook : Type u} [DecidableEq Hook]

def start : NestedTrace Hook := ⟨.empty, 0⟩

/-- An entered call finds a call in progress to be so: its frame is above the new one, or the same
and still live. -/
def InProgress (isLive : ℕ → ℕ → Bool) (stackAddress : ℕ) (call : HookedCall Hook) : Prop :=
  stackAddress < call.stackAddress ∨
    call.stackAddress = stackAddress ∧ isLive call.functionContext call.stackAddress = true

instance (isLive : ℕ → ℕ → Bool) (stackAddress : ℕ) :
    DecidablePred (@InProgress Hook isLive stackAddress) := fun _ =>
  inferInstanceAs (Decidable (_ ∨ _))

/-- The trace goes on with a callback. The clock is monotone, no frame is skipped, and the innermost
call returns. -/
def step (trace : NestedTrace Hook) : CallbackEvent Hook → Option (NestedTrace Hook)
  | .enter call isLive now =>
    if trace.now ≤ now ∧
        ∀ outer ∈ trace.record.opened, InProgress isLive call.stackAddress outer.label then
      some ⟨trace.record.enter call (peakSecond now), now⟩
    else
      none
  | .leave call now =>
    match trace.record.opened with
    | [] => none
    | outer :: rest =>
      if trace.now ≤ now ∧ outer.label = call then
        some ⟨trace.record.finish outer rest (peakSecond now), now⟩
      else
        none

end NestedTrace

section Entries

variable {Hook : Type u}

/-- The entry of a call, with the time of its children and the depth of Gum's stack below. -/
structure Describes (entry : InvocationEntry Hook) (call : OpenCall (HookedCall Hook) ℚ)
    (nested : ℚ) (depth : ℕ) : Prop where
  listener : entry.listener = some call.label.hook
  functionContext : entry.functionContext =
    if call.label.fast then call.label.functionContext else call.label.function
  stackAddress : entry.stackAddress = call.label.stackAddress
  gumStackDepth : entry.gumStackDepth = depth
  fastDispatch : entry.fastDispatch = call.label.fast
  childTime : entry.childTime = nested
  startNs : call.label.fast → peakSecond entry.startNs = call.start

def gumInvocations (call : OpenCall (HookedCall Hook) ℚ) (level : ℕ) : List GumInvocation :=
  if call.label.fast then
    []
  else
    [⟨call.label.functionContext, call.label.function, call.label.stackAddress,
      ⟨call.start, level, true⟩⟩]

def StacksHold (entries : ℕ → InvocationEntry Hook) (nested : ℕ → ℚ) :
    List (OpenCall (HookedCall Hook) ℚ) → ℕ → List GumInvocation → Prop
  | [], level, gumStack => level = 0 ∧ gumStack = []
  | call :: rest, level, gumStack =>
    ∃ below older, level = below + 1 ∧ gumStack = older ++ gumInvocations call level ∧
      Describes (entries below) call (nested call.id) older.length ∧
      StacksHold entries nested rest below older

variable {entries other : ℕ → InvocationEntry Hook} {nested nested' : ℕ → ℚ}
  {calls : List (OpenCall (HookedCall Hook) ℚ)} {level : ℕ} {gumStack : List GumInvocation}

section

variable (holds : StacksHold entries nested calls level gumStack)

include holds

theorem StacksHold.length_eq : level = calls.length := by
  induction calls generalizing level gumStack with
  | nil => exact holds.1
  | cons _ rest ih =>
    rcases holds with ⟨_, _, rfl, _, _, rest⟩
    rw [length_cons, ih rest]

theorem StacksHold.congr (sameEntries : ∀ index < level, other index = entries index)
    (sameTimes : ∀ call ∈ calls, nested' call.id = nested call.id) :
    StacksHold other nested' calls level gumStack := by
  induction calls generalizing level gumStack with
  | nil => exact holds
  | cons _ rest ih =>
    rcases holds with ⟨below, older, rfl, gumEq, describes, rest⟩
    rw [forall_mem_cons] at sameTimes
    refine ⟨below, older, rfl, gumEq, ?_, ih rest ?_ sameTimes.2⟩
    · rw [sameEntries below (Nat.lt_succ_self below), sameTimes.1]
      exact describes
    · exact fun index isBelow => sameEntries index (Nat.lt_succ_of_lt isBelow)

theorem StacksHold.mem_gumStack
    {invocation : GumInvocation} (invocationMem : invocation ∈ gumStack) :
    ∃ call ∈ calls, invocation.functionContext = call.label.functionContext ∧
      invocation.stackAddress = call.label.stackAddress := by
  induction calls generalizing level gumStack with
  | nil =>
    rw [holds.2] at invocationMem
    cases invocationMem
  | cons call rest ih =>
    rcases holds with ⟨_, _, rfl, rfl, _, rest⟩
    rcases mem_append.mp invocationMem with earlier | last
    · rcases ih rest earlier with ⟨outer, outerMem, same⟩
      exact ⟨outer, .tail _ outerMem, same⟩
    · refine ⟨call, .head _, ?_⟩
      rw [gumInvocations] at last
      split at last
      · cases last
      · rw [mem_singleton.mp last]
        exact ⟨rfl, rfl⟩

end

end Entries

section Live

variable {Hook : Type u} {entries : ℕ → InvocationEntry Hook}
  {nested : ℕ → ℚ} {calls : List (OpenCall (HookedCall Hook) ℚ)} {level : ℕ}
  {gumStack : List GumInvocation} {isLive : ℕ → ℕ → Bool} {stackAddress : ℕ}

theorem StacksHold.reapUnwound_eq (holds : StacksHold entries nested calls level gumStack)
    (inProgress : ∀ call ∈ calls, NestedTrace.InProgress isLive stackAddress call.label) :
    invocationStackReapUnwound isLive stackAddress gumStack = gumStack := by
  have kept : ∀ invocation ∈ gumStack,
      (stackAddress < invocation.stackAddress ||
        invocation.stackAddress = stackAddress &&
          isLive invocation.functionContext invocation.stackAddress) = true := by
    intro invocation invocationMem
    rcases holds.mem_gumStack invocationMem with ⟨call, callMem, sameContext, sameAddress⟩
    have progress := inProgress call callMem
    rw [NestedTrace.InProgress, ← sameAddress, ← sameContext] at progress
    simpa using progress
  rw [invocationStackReapUnwound]
  cases reversed : gumStack.reverse with
  | nil => exact (reverse_eq_nil_iff.mp reversed).symm
  | cons last =>
    have lastMem : last ∈ gumStack := by
      rw [← mem_reverse, reversed]
      exact .head _
    rw [dropWhile_cons_of_neg, ← reversed, reverse_reverse]
    rw [kept last lastMem]
    decide

theorem StacksHold.entryIsLive (holds : StacksHold entries nested calls level gumStack)
    (inProgress : ∀ call ∈ calls, NestedTrace.InProgress isLive stackAddress call.label)
    (positive : 0 < level) :
    entryIsLive isLive gumStack stackAddress (entries (level - 1)) := by
  cases calls with
  | nil => exact absurd holds.1 (Nat.ne_of_gt positive)
  | cons call =>
    rcases holds with ⟨_, _, rfl, rfl, describes, _⟩
    rw [Nat.add_sub_cancel, entryIsLive, describes.fastDispatch,
      describes.functionContext, describes.stackAddress, describes.gumStackDepth]
    cases fast : call.label.fast with
    | true =>
      have progress := inProgress call (.head _)
      rcases progress with above | ⟨same, live⟩
      · simp [above]
      · rw [same] at live
        simp [same, live]
    | false => simp [invocationStackEntryMatches, gumInvocations, fast]

theorem abandonWhile_eq_self [DecidableEq Hook] {stale : InvocationEntry Hook → Bool}
    {thread : ListenerThread Hook}
    (fresh : 0 < thread.level → stale (thread.entries (thread.level - 1)) = false)
    (rounds : ℕ) : abandonWhile stale rounds thread = thread := by
  cases rounds with
  | zero => rfl
  | succ =>
    rw [abandonWhile, if_neg]
    rintro ⟨positive, isStale⟩
    rw [fresh positive] at isStale
    cases isStale

end Live

/-- The thread has a valid slot, and its callbacks are recorded. -/
structure ThreadContext.Recording (context : ThreadContext) : Prop where
  mapped : ∃ slot < context.maxNumThreads, context.mappedSlot = some slot
  included : context.excluded = false
  active : context.suspended = false

/-- The stacks hold the open calls of the trace, and there is room for them. -/
structure StacksAgree {Hook : Type u} (state : ThreadStacks Hook) (trace : NestedTrace Hook) :
    Prop where
  idle : state.thread.inCallback = false
  heeded : state.thread.fastIgnoreLevel = 0
  mapped : state.thread.initialized →
    state.thread.selfMapped ≠ none ∧ state.thread.level ≤ state.thread.capacity ∧
      0 < state.thread.capacity
  unused : state.thread.initialized = false → state.thread.level = 0
  holds : StacksHold state.thread.entries trace.record.nestedTime trace.record.opened
    state.thread.level state.gumStack

section Callbacks

variable {Hook : Type u} {context : ThreadContext}

theorem stacksAgree_fresh : StacksAgree (.fresh : ThreadStacks Hook) .start where
  idle := rfl
  heeded := rfl
  mapped := nofun
  unused := fun _ => rfl
  holds := ⟨rfl, rfl⟩

variable (thread : ListenerThread Hook)

theorem ensureCapacity_spec (room : thread.level ≤ thread.capacity ∧ 0 < thread.capacity) :
    ∃ entries capacity,
      thread.ensureCapacity = { thread with entries := entries, capacity := capacity } ∧
        (∀ index < thread.level, entries index = thread.entries index) ∧
        thread.level + 1 ≤ capacity := by
  by_cases full : thread.level = thread.capacity
  · refine ⟨thread.growInvocationStack.entries, thread.capacity * 2, ?_, ?_, ?_⟩
    · rw [ensureCapacity, if_pos full]
      rfl
    · intro index isBelow
      simp [growInvocationStack, ← full, isBelow]
    · omega
  · refine ⟨thread.entries, thread.capacity, ?_, fun _ _ => rfl, ?_⟩
    · rw [ensureCapacity, if_neg full]
    · omega

variable (fill : InvocationEntry Hook → InvocationEntry Hook)

theorem pushInvocation_spec (room : thread.level ≤ thread.capacity ∧ 0 < thread.capacity) :
    ∃ entries capacity, ∃ base : InvocationEntry Hook, thread.pushInvocation fill =
        { thread with entries := entries, capacity := capacity, level := thread.level + 1 } ∧
      entries thread.level = fill { base with childTime := 0, fastDispatch := false } ∧
      (∀ index < thread.level, entries index = thread.entries index) ∧
      thread.level + 1 ≤ capacity := by
  rcases ensureCapacity_spec thread room with ⟨entries, capacity, grown, below, fits⟩
  refine ⟨update entries thread.level
    (fill { entries thread.level with childTime := 0, fastDispatch := false }), capacity,
    entries thread.level, ?_, update_self .., ?_, fits⟩
  · rw [pushInvocation, grown]
    rfl
  · intro index isBelow
    rw [update_of_ne (Nat.ne_of_lt isBelow)]
    exact below index isBelow

variable {state : ThreadStacks Hook} {trace : NestedTrace Hook}

theorem StacksAgree.threadStateInitialize (agree : StacksAgree state trace)
    (recording : context.Recording) :
    StacksAgree ⟨state.thread.threadStateInitialize context, state.gumStack⟩ trace ∧
      (state.thread.threadStateInitialize context).initialized := by
  by_cases initialized : state.thread.initialized
  · rw [ListenerThread.threadStateInitialize, if_pos initialized]
    exact ⟨agree, initialized⟩
  · rw [ListenerThread.threadStateInitialize, if_neg initialized]
    have empty := agree.unused (Bool.not_eq_true _ ▸ initialized)
    refine ⟨⟨agree.idle, agree.heeded, fun _ => ⟨?_, ?_⟩, nofun, ?_⟩, rfl⟩
    · rcases recording.mapped with ⟨_, valid, isMapped⟩
      simp [isMapped, valid]
    · simp [inlineCapacity]
    · have holds := agree.holds
      rw [empty] at holds
      exact holds

variable {now : ℕ} {call : HookedCall Hook}

theorem StacksAgree.push (agree : StacksAgree state trace) (numbered : trace.record.Numbered)
    (initialized : state.thread.initialized)
    {fill : InvocationEntry Hook → InvocationEntry Hook}
    (describes : ∀ base : InvocationEntry Hook,
      Describes (fill { base with childTime := 0, fastDispatch := false })
      ⟨trace.record.entered.length, call, peakSecond now⟩ 0 state.gumStack.length)
    (slots : Hook → SlotCounters) :
    StacksAgree
      ⟨{ state.thread.pushInvocation fill with slots := slots },
        state.gumStack ++ gumInvocations ⟨trace.record.entered.length, call, peakSecond now⟩
          (state.thread.level + 1)⟩
      ⟨trace.record.enter call (peakSecond now), now⟩ := by
  rcases agree.mapped initialized with ⟨mapped, room⟩
  rcases pushInvocation_spec state.thread fill room with
    ⟨entries, _, base, pushed, top, below, fits⟩
  rw [pushed]
  refine ⟨agree.idle, agree.heeded,
    fun _ => ⟨mapped, fits, Nat.lt_of_lt_of_le (Nat.succ_pos _) fits⟩, ?_, ?_⟩
  · intro uninitialized
    rw [initialized] at uninitialized
    cases uninitialized
  · refine ⟨state.thread.level, state.gumStack, rfl, rfl, ?_, ?_⟩
    · change Describes (entries state.thread.level) _
        (trace.record.nestedTime trace.record.entered.length) _
      rw [top, numbered.nestedTime_new]
      exact describes base
    · exact agree.holds.congr below fun _ _ => rfl

theorem pushInvocation_slots (room : thread.level ≤ thread.capacity ∧ 0 < thread.capacity) :
    (thread.pushInvocation fill).slots = thread.slots ∧
      (thread.pushInvocation fill).durations = thread.durations ∧
      (thread.pushInvocation fill).level = thread.level + 1 := by
  rcases pushInvocation_spec thread fill room with ⟨_, _, _, pushed, _⟩
  rw [pushed]
  exact ⟨rfl, rfl, rfl⟩

theorem threadStateInitialize_slots (context : ThreadContext) :
    (thread.threadStateInitialize context).slots = thread.slots ∧
      (thread.threadStateInitialize context).durations = thread.durations := by
  rw [threadStateInitialize]
  split
  · exact ⟨rfl, rfl⟩
  · exact ⟨rfl, rfl⟩

variable [DecidableEq Hook]

def Counted (before after : ListenerThread Hook) (hook : Hook) : Prop :=
  after.slots = update before.slots hook (before.slots hook).countCall ∧
    after.durations = before.durations

section

variable (agree : StacksAgree state trace)

include agree

theorem StacksAgree.onEnter (recording : context.Recording)
    (numbered : trace.record.Numbered) (generic : call.fast = false)
    (now : ℕ) :
    ∃ thread data, state.thread.onEnter context call.hook call.function call.stackAddress
        state.gumStack.length now = (thread, data) ∧
      StacksAgree ⟨thread, state.gumStack ++
          [⟨call.functionContext, call.function, call.stackAddress, data⟩]⟩
        ⟨trace.record.enter call (peakSecond now), now⟩ ∧
      Counted state.thread thread call.hook := by
  rcases agree.threadStateInitialize recording with ⟨agree', initialized⟩
  rcases agree'.mapped initialized with ⟨mapped, room⟩
  have ignored : ¬(state.thread.inCallback = true ∨ context.excluded ∨
      context.suspended) := by
    simp [agree.idle, recording.included, recording.active]
  rw [ListenerThread.onEnter, if_neg ignored]
  rw [if_neg mapped]
  refine ⟨_, _, rfl, ?_, ?_⟩
  · have invocation : gumInvocations ⟨trace.record.entered.length, call, peakSecond now⟩
        ((state.thread.threadStateInitialize context).level + 1) =
        [⟨call.functionContext, call.function, call.stackAddress,
          ⟨peakSecond now, (state.thread.threadStateInitialize context).level + 1, true⟩⟩] := by
      simp [gumInvocations, generic]
    rw [(pushInvocation_slots _ _ room).2.2, ← invocation]
    refine agree'.push numbered initialized (fun base => ?_) _
    constructor <;> simp [generic]
  · rcases threadStateInitialize_slots state.thread context with ⟨sameSlots, sameDurations⟩
    rcases pushInvocation_slots (state.thread.threadStateInitialize context) _ room with
      ⟨pushedSlots, pushedDurations, _⟩
    constructor
    · rw [updateSlot, pushedSlots, sameSlots]
    · rw [updateSlot, pushedDurations, sameDurations]

theorem StacksAgree.fastReapUnwound_eq
    {stackAddress : ℕ} (inProgress : ∀ outer ∈ trace.record.opened,
      NestedTrace.InProgress isLive stackAddress outer.label) (active : Hook → ℕ) :
    { state.thread with fastActive := active }.fastReapUnwound isLive state.gumStack
      stackAddress = { state.thread with fastActive := active } := by
  apply abandonWhile_eq_self
  intro positive
  rw [agree.holds.entryIsLive inProgress positive]
  rfl

theorem StacksAgree.fastOnEnter (numbered : trace.record.Numbered)
    (fast : call.fast)
    (inProgress : ∀ outer ∈ trace.record.opened,
      NestedTrace.InProgress isLive call.stackAddress outer.label) {thread : ListenerThread Hook}
    (entered : state.thread.fastOnEnter context call.hook isLive state.gumStack
      call.functionContext call.stackAddress call.callerReturnAddress now = (.invoke, thread)) :
    StacksAgree ⟨thread, state.gumStack⟩ ⟨trace.record.enter call (peakSecond now), now⟩ ∧
      Counted state.thread thread call.hook := by
  rw [ListenerThread.fastOnEnter] at entered
  split at entered
  · cases entered
  · split at entered
    · cases entered
    next initialized =>
      split at entered
      · cases entered
      · rw [fastActiveAdd] at entered
        split at entered
        · cases entered
        next added =>
          split at added
          · cases added
          · cases added
            rw [agree.fastReapUnwound_eq inProgress] at entered
            have agree' : StacksAgree ⟨{ state.thread with
                fastActive := update state.thread.fastActive call.hook
                  (state.thread.fastActive call.hook + 1) }, state.gumStack⟩ trace :=
              { agree with }
            have ready : state.thread.initialized := by simpa using initialized
            have room := (agree.mapped ready).2
            cases entered
            constructor
            · have invocation : gumInvocations ⟨trace.record.entered.length, call, peakSecond now⟩
                  (state.thread.level + 1) = [] := by
                simp [gumInvocations, fast]
              rw [← append_nil state.gumStack, ← invocation]
              refine agree'.push numbered ready (fun base => ?_) _
              constructor <;> simp [fast, gumInvocations]
            · constructor
              · rw [updateSlot, (pushInvocation_slots _ _ ?_).1]
                exact room
              · rw [updateSlot, (pushInvocation_slots _ _ ?_).2.1]
                exact room

theorem StacksAgree.beginInvocation {after : ThreadStacks Hook}
    (recording : context.Recording) (numbered : trace.record.Numbered)
    (inProgress : ∀ outer ∈ trace.record.opened,
      NestedTrace.InProgress isLive call.stackAddress outer.label)
    (entered : state.beginInvocation context call isLive now = some after) :
    StacksAgree after ⟨trace.record.enter call (peakSecond now), now⟩ ∧
      Counted state.thread after.thread call.hook := by
  rw [ThreadStacks.beginInvocation, agree.holds.reapUnwound_eq inProgress] at entered
  cases fast : call.fast with
  | true =>
    simp only [fast, if_true] at entered
    split at entered
    next thread invoked =>
      cases entered
      exact agree.fastOnEnter numbered fast inProgress invoked
    · cases entered
  | false =>
    rcases agree.onEnter recording numbered fast now with
      ⟨_, _, run, agree', counted⟩
    simp only [fast, run] at entered
    cases entered
    exact ⟨agree', counted⟩

end

def Finished (before after : ListenerThread Hook) (hook : Hook) (duration nested : ℚ) : Prop :=
  after.slots = update before.slots hook
      ((before.slots hook).addDuration duration (exclusiveDuration duration nested)) ∧
    after.durations = before.durations ++ [(duration, nested)]

variable {call : OpenCall (HookedCall Hook) ℚ} {rest : List (OpenCall (HookedCall Hook) ℚ)}

theorem StacksHold.finishCall {thread : ListenerThread Hook} {gumStack : List GumInvocation}
    {record : CallRecord (HookedCall Hook) ℚ} (numbered : record.Numbered)
    (innermost : record.opened = call :: rest)
    (holds : StacksHold thread.entries record.nestedTime rest thread.level gumStack) (hook : Hook)
    (time nested : ℚ) :
    StacksHold (thread.finishCall hook (time - call.start) nested).entries
      (record.finish call rest time).nestedTime rest thread.level gumStack := by
  cases rest with
  | nil => exact holds
  | cons =>
    rcases holds with ⟨below, older, levelEq, gumEq, describes, restHolds⟩
    have entriesEq : (thread.finishCall hook (time - call.start) nested).entries =
        update thread.entries below { thread.entries below with
          childTime := (thread.entries below).childTime + (time - call.start) } := by
      simp [finishCall, updateSlot, updateEntry, levelEq]
    rw [entriesEq]
    refine ⟨below, older, levelEq, gumEq, ?_, restHolds.congr ?_ ?_⟩
    · rw [update_self, CallRecord.nestedTime_finish_outer]
      exact { describes with childTime := by rw [describes.childTime] }
    · exact fun index isBelow => update_of_ne (Nat.ne_of_lt isBelow) ..
    · exact numbered.nestedTime_finish_other innermost

theorem finishCall_eq (thread : ListenerThread Hook) (hook : Hook) (duration nested : ℚ) :
    ∃ slots entries durations, thread.finishCall hook duration nested =
      { thread with slots := slots, entries := entries, durations := durations } := by
  rw [finishCall]
  split
  · exact ⟨_, _, _, rfl⟩
  · exact ⟨_, _, _, rfl⟩

theorem finishCall_finished (hook : Hook) (duration nested : ℚ) :
    Finished thread (thread.finishCall hook duration nested) hook duration nested := by
  rw [finishCall]
  split
  · exact ⟨rfl, rfl⟩
  · exact ⟨rfl, rfl⟩

theorem StacksAgree.finishCall (agree : StacksAgree state trace) (numbered : trace.record.Numbered)
    (innermost : trace.record.opened = call :: rest) {below : ℕ} {older : List GumInvocation}
    (levelEq : state.thread.level = below + 1)
    (restHolds : StacksHold state.thread.entries trace.record.nestedTime rest below older)
    (hook : Hook) (now : ℕ) (nested : ℚ) :
    StacksAgree
      ⟨{ state.thread with level := below }.finishCall hook (peakSecond now - call.start) nested,
        older⟩
      ⟨trace.record.finish call rest (peakSecond now), now⟩ := by
  have used : state.thread.initialized := by
    by_contra unused
    have empty := agree.unused (Bool.not_eq_true _ ▸ unused)
    omega
  rcases finishCall_eq { state.thread with level := below } hook (peakSecond now - call.start)
    nested with ⟨_, entries, _, finished⟩
  have entriesEq : ({ state.thread with level := below }.finishCall hook
    (peakSecond now - call.start) nested).entries = entries := by rw [finished]
  rw [finished]
  refine ⟨agree.idle, agree.heeded, fun _ => ?_, fun unused => ?_, entriesEq ▸
    StacksHold.finishCall numbered innermost restHolds hook (peakSecond now) nested⟩
  · rcases agree.mapped used with ⟨mapped, _, positive⟩
    exact ⟨mapped, by change below ≤ state.thread.capacity; omega, positive⟩
  · exact absurd used (Bool.not_eq_true _ ▸ unused)

theorem peakSecond_le_iff {left right : ℕ} : peakSecond left ≤ peakSecond right ↔ left ≤ right := by
  rw [peakSecond, peakSecond, div_le_div_iff_of_pos_right (by norm_num), Nat.cast_le]

theorem peakSecond_sub {start : ℕ} (later : start ≤ now) :
    ((now - start : ℕ) : ℚ) / 10 ^ 9 = peakSecond now - peakSecond start := by
  rw [peakSecond, peakSecond, Nat.cast_sub later, sub_div]

section

variable (agree : StacksAgree state trace) (recording : context.Recording)

include agree recording

theorem StacksAgree.fastOnLeave
    (numbered : trace.record.Numbered) (innermost : trace.record.opened = call :: rest)
    (fast : call.label.fast) (later : call.start ≤ peakSecond now) :
    ∃ thread, state.thread.fastOnLeave context call.label.hook call.label.functionContext
        call.label.stackAddress now = (thread, state.gumStack.length) ∧
      StacksAgree ⟨thread, state.gumStack⟩ ⟨trace.record.finish call rest (peakSecond now), now⟩ ∧
      Finished state.thread thread call.label.hook (peakSecond now - call.start)
        (trace.record.nestedTime call.id) := by
  have holds := agree.holds
  rw [innermost] at holds
  rcases holds with ⟨below, older, levelEq, gumEq, describes, restHolds⟩
  have olderEq : older = state.gumStack := by
    rw [gumEq, gumInvocations, if_pos fast, append_nil]
  rw [olderEq] at describes restHolds
  have used : state.thread.initialized := by
    by_contra unused
    have empty := agree.unused (Bool.not_eq_true _ ▸ unused)
    omega
  have found : abandonWhile (fun entry =>
      entry.listener ≠ some call.label.hook ∨ entry.functionContext ≠ call.label.functionContext ∨
        entry.stackAddress ≠ call.label.stackAddress) state.thread.level state.thread =
      state.thread := by
    apply abandonWhile_eq_self
    intro _
    rw [levelEq, Nat.add_sub_cancel]
    simp [describes.listener, describes.functionContext, describes.stackAddress, fast]
  have started := describes.startNs fast
  have elapsed : (state.thread.entries below).startNs ≤ now := by
    rw [← peakSecond_le_iff, started]
    exact later
  rw [ListenerThread.fastOnLeave, if_neg (by simp [agree.idle, used]), found]
  simp only [levelEq, Nat.add_sub_cancel, recording.active,
    peakSecond_sub elapsed, started, describes.childTime,
    describes.gumStackDepth]
  have agree' := agree.finishCall numbered innermost levelEq restHolds call.label.hook now
    (trace.record.nestedTime call.id)
  refine ⟨_, rfl, { agree' with }, ?_⟩
  exact finishCall_finished { state.thread with level := below } _ _ _

theorem StacksAgree.onLeave
    (numbered : trace.record.Numbered) (innermost : trace.record.opened = call :: rest)
    (generic : call.label.fast = false) (now : ℕ) :
    ∃ older invocation, state.gumStack = older ++ [invocation] ∧
      StacksAgree
        ⟨state.thread.onLeave context call.label.hook invocation.data now, older⟩
        ⟨trace.record.finish call rest (peakSecond now), now⟩ ∧
      Finished state.thread
        (state.thread.onLeave context call.label.hook invocation.data now)
        call.label.hook (peakSecond now - call.start) (trace.record.nestedTime call.id) := by
  have holds := agree.holds
  rw [innermost] at holds
  rcases holds with ⟨below, older, levelEq, gumEq, describes, restHolds⟩
  have topEq : state.thread.abandonTop = { state.thread with level := below } := by
    rw [abandonTop, abandonEntry, levelEq, Nat.add_sub_cancel, describes.fastDispatch, generic]
  have popped : state.thread.popInvocation ⟨call.start, state.thread.level, true⟩ =
      some ({ state.thread with level := below }, trace.record.nestedTime call.id) := by
    rw [popInvocation, if_neg (by simp [levelEq])]
    simp only [abandonTo, Nat.sub_self, iterate_zero, id_eq, topEq]
    rw [levelEq, Nat.add_sub_cancel, describes.childTime]
  have left : state.thread.onLeave context call.label.hook
      ⟨call.start, state.thread.level, true⟩ now =
      { state.thread with level := below }.finishCall call.label.hook
        (peakSecond now - call.start) (trace.record.nestedTime call.id) := by
    rw [ListenerThread.onLeave, if_neg (by simp [agree.idle]),
      if_neg (by simp [recording.active]), popped]
  refine ⟨older, ⟨call.label.functionContext, call.label.function, call.label.stackAddress,
    ⟨call.start, state.thread.level, true⟩⟩, ?_, ?_, ?_⟩
  · rw [gumEq, gumInvocations, if_neg (by simp [generic])]
  · rw [left]
    exact agree.finishCall numbered innermost levelEq restHolds call.label.hook now _
  · rw [left]
    exact finishCall_finished { state.thread with level := below } _ _ _

theorem StacksAgree.beginInvocation_isSome
    (call : HookedCall Hook) (isLive : ℕ → ℕ → Bool) (now : ℕ)
    (taken : call.fast →
      state.thread.initialized ∧ state.thread.fastActive call.hook ≠ 2 ^ 32 - 1) :
    (state.beginInvocation context call isLive now).isSome := by
  rw [ThreadStacks.beginInvocation]
  cases fast : call.fast with
  | true =>
    rcases taken fast with ⟨initialized, room⟩
    have mapped := (agree.mapped initialized).1
    simp only [ListenerThread.fastOnEnter, agree.idle, recording.included,
      agree.heeded, recording.active, initialized, mapped, ListenerThread.fastActiveAdd, room]
    simp
  | false => rfl

theorem StacksAgree.endInvocation {after : ThreadStacks Hook}
    (numbered : trace.record.Numbered)
    (innermost : trace.record.opened = call :: rest) (later : call.start ≤ peakSecond now)
    (left : state.endInvocation context call.label now = some after) :
    StacksAgree after ⟨trace.record.finish call rest (peakSecond now), now⟩ ∧
      Finished state.thread after.thread call.label.hook (peakSecond now - call.start)
        (trace.record.nestedTime call.id) := by
  rw [ThreadStacks.endInvocation] at left
  cases fast : call.label.fast with
  | true =>
    rcases agree.fastOnLeave recording numbered innermost fast later with
      ⟨_, run, agree', finished⟩
    simp only [fast, run, invocationStackReapToDepth, take_length] at left
    cases left
    exact ⟨agree', finished⟩
  | false =>
    rcases agree.onLeave recording numbered innermost fast now with
      ⟨_, _, gumEq, agree', finished⟩
    simp only [fast, gumEq, getLast?_concat, dropLast_concat] at left
    cases left
    exact ⟨agree', finished⟩

theorem StacksAgree.endInvocation_isSome (numbered : trace.record.Numbered)
    (innermost : trace.record.opened = call :: rest) (now : ℕ) :
    (state.endInvocation context call.label now).isSome := by
  rw [ThreadStacks.endInvocation]
  cases fast : call.label.fast with
  | true => rfl
  | false =>
    rcases agree.onLeave recording numbered innermost fast now with ⟨_, _, gumEq, _⟩
    simp [gumEq]

end

end Callbacks

end Peak
