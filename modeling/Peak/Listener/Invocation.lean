import Peak.Listener.Counters

/-!
# The invocation callbacks of a thread

Each thread keeps a stack with one entry for every hooked call in progress. Gum's generic dispatch
stores the data of a call in its own invocation stack and pops the entry by its recorded level; the
direct dispatch searches the entry by the address of the frame. Both update the slot of the thread
in the listener of the hook.

A callback runs as one step. Times are exact, and the slots are those at the index of the thread.
-/

namespace Peak

universe u

def peakSecond (nanoseconds : ℕ) : ℚ := nanoseconds / 10 ^ 9

structure InvocationEntry (Hook : Type u) where
  listener : Option Hook
  functionContext : ℕ
  callerReturnAddress : ℕ
  stackAddress : ℕ
  gumStackDepth : ℕ
  startNs : ℕ
  childTime : ℚ
  fastDispatch : Bool

def InvocationEntry.blank {Hook : Type u} : InvocationEntry Hook :=
  ⟨none, 0, 0, 0, 0, 0, 0, false⟩

structure InvocationData where
  startTime : ℚ
  stackLevel : ℕ
  initialized : Bool

structure GumInvocation where
  functionContext : ℕ
  function : ℕ
  stackAddress : ℕ
  data : InvocationData

def exclusiveDuration (totalDuration childDuration : ℚ) : ℚ :=
  if childDuration ≥ totalDuration then 0 else totalDuration - childDuration

structure ThreadContext where
  mappedSlot : Option ℕ
  maxNumThreads : ℕ
  excluded : Bool
  suspended : Bool

/-- The number of entries in `entries_inline`. -/
def inlineCapacity : ℕ := 16

/-- `PeakGeneralThreadState`, with the slots and the direct calls of the thread. `durations` are the
arguments for which an exclusive duration was computed. -/
structure ListenerThread (Hook : Type u) where
  level : ℕ
  capacity : ℕ
  entries : ℕ → InvocationEntry Hook
  selfMapped : Option ℕ
  initialized : Bool
  inCallback : Bool
  fastIgnoreLevel : ℕ
  droppedThreadNoted : Bool
  droppedThreads : ℕ
  droppedCalls : ℕ
  slots : Hook → SlotCounters
  fastActive : Hook → ℕ
  durations : List (ℚ × ℚ)

inductive FastEnterResult where
  | invoke
  | skip
  | fallback

namespace ListenerThread

variable {Hook : Type u} [DecidableEq Hook]

def fresh : ListenerThread Hook where
  level := 0
  capacity := 0
  entries := fun _ => .blank
  selfMapped := none
  initialized := false
  inCallback := false
  fastIgnoreLevel := 0
  droppedThreadNoted := false
  droppedThreads := 0
  droppedCalls := 0
  slots := fun _ => .zero
  fastActive := fun _ => 0
  durations := []

def threadStateInitialize (thread : ListenerThread Hook) (context : ThreadContext) :
    ListenerThread Hook :=
  if thread.initialized then
    thread
  else
    { thread with
      level := 0
      capacity := inlineCapacity
      selfMapped := context.mappedSlot.filter (· < context.maxNumThreads)
      initialized := true
      droppedThreadNoted := false }

def noteDroppedCurrentThread (thread : ListenerThread Hook) : ListenerThread Hook :=
  { thread with
    droppedCalls := thread.droppedCalls + 1
    droppedThreads :=
      if thread.droppedThreadNoted then thread.droppedThreads else thread.droppedThreads + 1
    droppedThreadNoted := true }

def updateSlot (thread : ListenerThread Hook) (hook : Hook)
    (update : SlotCounters → SlotCounters) : ListenerThread Hook :=
  { thread with slots := Function.update thread.slots hook (update (thread.slots hook)) }

/-- The count stops at `G_MAXUINT`. -/
def fastActiveAdd (thread : ListenerThread Hook) (hook : Hook) : Option (ListenerThread Hook) :=
  if thread.fastActive hook = 2 ^ 32 - 1 then
    none
  else
    some { thread with
      fastActive := Function.update thread.fastActive hook (thread.fastActive hook + 1) }

def fastActiveRemove (thread : ListenerThread Hook) (hook : Hook) : ListenerThread Hook :=
  { thread with
    fastActive := Function.update thread.fastActive hook (thread.fastActive hook - 1) }

def updateEntry (thread : ListenerThread Hook) (index : ℕ)
    (update : InvocationEntry Hook → InvocationEntry Hook) : ListenerThread Hook :=
  { thread with entries := Function.update thread.entries index (update (thread.entries index)) }

def growInvocationStack (thread : ListenerThread Hook) : ListenerThread Hook :=
  { thread with
    entries := fun index => if index < thread.capacity then thread.entries index else .blank
    capacity := thread.capacity * 2 }

def ensureCapacity (thread : ListenerThread Hook) : ListenerThread Hook :=
  if thread.level = thread.capacity then thread.growInvocationStack else thread

def pushInvocation (thread : ListenerThread Hook)
    (fill : InvocationEntry Hook → InvocationEntry Hook) : ListenerThread Hook :=
  let thread := thread.ensureCapacity
  { thread.updateEntry thread.level
      fun entry => fill { entry with childTime := 0, fastDispatch := false } with
    level := thread.level + 1 }

/-- The part of `abandon_entry` which concerns the thread. -/
def abandonEntry (thread : ListenerThread Hook) (entry : InvocationEntry Hook) :
    ListenerThread Hook :=
  match entry.fastDispatch, entry.listener with
  | true, some hook => thread.fastActiveRemove hook
  | _, _ => thread

def abandonTop (thread : ListenerThread Hook) : ListenerThread Hook :=
  { thread.abandonEntry (thread.entries (thread.level - 1)) with level := thread.level - 1 }

def abandonTo (thread : ListenerThread Hook) (level : ℕ) : ListenerThread Hook :=
  abandonTop^[thread.level - level] thread

/-- The time of the children of the popped entry, unless the pop is refused. -/
def popInvocation (thread : ListenerThread Hook) (data : InvocationData) :
    Option (ListenerThread Hook × ℚ) :=
  if !data.initialized ∨ thread.level = 0 ∨ data.stackLevel = 0 ∨
      thread.level < data.stackLevel then
    none
  else
    let thread := thread.abandonTo data.stackLevel
    some (thread.abandonTop, (thread.entries (thread.level - 1)).childTime)

/-- The duration of a call is added to the slot, and to the entry of the calling call. -/
def finishCall (thread : ListenerThread Hook) (hook : Hook) (duration childDuration : ℚ) :
    ListenerThread Hook :=
  let thread := { thread.updateSlot hook fun slot =>
      slot.addDuration duration (exclusiveDuration duration childDuration) with
    durations := thread.durations ++ [(duration, childDuration)] }
  if 0 < thread.level then
    thread.updateEntry (thread.level - 1) fun entry =>
      { entry with childTime := entry.childTime + duration }
  else
    thread

/-- `on_enter`, which returns the data of the invocation. The data of a call that is not
recorded is not initialized. -/
def onEnter (thread : ListenerThread Hook) (context : ThreadContext) (hook : Hook)
    (function stackAddress gumStackDepth now : ℕ) : ListenerThread Hook × InvocationData :=
  if thread.inCallback ∨ context.excluded ∨ context.suspended then
    (thread, ⟨0, 0, false⟩)
  else
    let thread := thread.threadStateInitialize context
    if thread.selfMapped = none then
      (thread.noteDroppedCurrentThread, ⟨0, 0, false⟩)
    else
      let thread := thread.pushInvocation fun entry => { entry with
        listener := some hook
        functionContext := function
        stackAddress := stackAddress
        gumStackDepth := gumStackDepth }
      (thread.updateSlot hook .countCall, ⟨peakSecond now, thread.level, true⟩)

def abandonCurrentInvocation (thread : ListenerThread Hook) (data : InvocationData) :
    ListenerThread Hook :=
  match thread.popInvocation data with
  | none => thread
  | some (thread, _) =>
    if 0 < thread.level then
      thread.updateEntry thread.level fun entry => { entry with childTime := 0 }
    else
      thread

def onLeave (thread : ListenerThread Hook) (context : ThreadContext) (hook : Hook)
    (data : InvocationData) (now : ℕ) : ListenerThread Hook :=
  if !data.initialized ∨ thread.inCallback then
    thread
  else if context.suspended then
    thread.abandonCurrentInvocation data
  else
    match thread.popInvocation data with
    | none => thread
    | some (thread, childDuration) =>
      thread.finishCall hook (peakSecond now - data.startTime) childDuration

end ListenerThread

def invocationStackEntryMatches (gumStack : List GumInvocation)
    (depth function stackAddress : ℕ) : Bool :=
  match gumStack[depth]? with
  | none => false
  | some invocation =>
    invocation.function = function && invocation.stackAddress = stackAddress

/-- Gum's own entries below the address of a live frame are dropped from the end.
`isLive` is `unwind_frame_is_live`. -/
def invocationStackReapUnwound (isLive : ℕ → ℕ → Bool) (liveStackAddress : ℕ)
    (gumStack : List GumInvocation) : List GumInvocation :=
  (gumStack.reverse.dropWhile fun invocation =>
    !(liveStackAddress < invocation.stackAddress ||
      invocation.stackAddress = liveStackAddress &&
        isLive invocation.functionContext invocation.stackAddress)).reverse

def invocationStackReapToDepth (targetDepth : ℕ) (gumStack : List GumInvocation) :
    List GumInvocation :=
  gumStack.take targetDepth

namespace ListenerThread

variable {Hook : Type u} [DecidableEq Hook]

/-- The entry belongs to a call that is still in progress when a frame at the address is
entered. -/
def entryIsLive (isLive : ℕ → ℕ → Bool) (gumStack : List GumInvocation) (stackAddress : ℕ)
    (entry : InvocationEntry Hook) : Bool :=
  if entry.fastDispatch then
    entry.stackAddress = 0 || stackAddress < entry.stackAddress ||
      (entry.stackAddress = stackAddress && isLive entry.functionContext entry.stackAddress)
  else
    invocationStackEntryMatches gumStack entry.gumStackDepth entry.functionContext
      entry.stackAddress

/-- Entries are abandoned from the top while a condition holds. The level bounds the number of
rounds. -/
def abandonWhile (stale : InvocationEntry Hook → Bool) : ℕ → ListenerThread Hook →
    ListenerThread Hook
  | 0, thread => thread
  | rounds + 1, thread =>
    if 0 < thread.level ∧ stale (thread.entries (thread.level - 1)) then
      abandonWhile stale rounds thread.abandonTop
    else
      thread

def fastReapUnwound (thread : ListenerThread Hook) (isLive : ℕ → ℕ → Bool)
    (gumStack : List GumInvocation) (stackAddress : ℕ) : ListenerThread Hook :=
  abandonWhile (fun entry => !entryIsLive isLive gumStack stackAddress entry) thread.level thread

def fastOnEnter (thread : ListenerThread Hook) (context : ThreadContext) (hook : Hook)
    (isLive : ℕ → ℕ → Bool) (gumStack : List GumInvocation)
    (functionContext stackAddress callerReturnAddress now : ℕ) :
    FastEnterResult × ListenerThread Hook :=
  if thread.inCallback ∨ context.excluded ∨ thread.fastIgnoreLevel ≠ 0 ∨ context.suspended then
    (.skip, thread)
  else if !thread.initialized then
    (.fallback, thread)
  else if thread.selfMapped = none then
    (.skip, thread.noteDroppedCurrentThread)
  else
    match thread.fastActiveAdd hook with
    | none => (.fallback, thread)
    | some thread =>
      let thread := thread.fastReapUnwound isLive gumStack stackAddress
      let thread := thread.pushInvocation fun entry => { entry with
        listener := some hook
        functionContext := functionContext
        callerReturnAddress := callerReturnAddress
        stackAddress := stackAddress
        gumStackDepth := gumStack.length
        fastDispatch := true
        startNs := now }
      (.invoke, thread.updateSlot hook .countCall)

/-- `fast_on_leave` with the depth of Gum's stack that it returns. -/
def fastOnLeave (thread : ListenerThread Hook) (context : ThreadContext) (hook : Hook)
    (functionContext stackAddress now : ℕ) : ListenerThread Hook × ℕ :=
  if thread.inCallback ∨ !thread.initialized then
    (thread, 0)
  else
    let thread := abandonWhile (fun entry => entry.listener ≠ some hook ∨
      entry.functionContext ≠ functionContext ∨ entry.stackAddress ≠ stackAddress)
      thread.level thread
    if thread.level = 0 then
      (thread, 0)
    else
      let entry := thread.entries (thread.level - 1)
      let thread := { thread with level := thread.level - 1 }
      let thread :=
        if context.suspended then
          thread
        else
          thread.finishCall hook (((now - entry.startNs : ℕ) : ℚ) / 10 ^ 9) entry.childTime
      (thread.fastActiveRemove hook, entry.gumStackDepth)

end ListenerThread

structure HookedCall (Hook : Type u) where
  fast : Bool
  hook : Hook
  functionContext : ℕ
  function : ℕ
  stackAddress : ℕ
  callerReturnAddress : ℕ
deriving DecidableEq

inductive CallbackEvent (Hook : Type u) where
  | enter (call : HookedCall Hook) (isLive : ℕ → ℕ → Bool) (now : ℕ)
  | leave (call : HookedCall Hook) (now : ℕ)

structure ThreadStacks (Hook : Type u) where
  thread : ListenerThread Hook
  gumStack : List GumInvocation

namespace ThreadStacks

variable {Hook : Type u} [DecidableEq Hook] (context : ThreadContext)

def fresh : ThreadStacks Hook := ⟨.fresh, []⟩

/-- The beginning of a call. A direct dispatch that the listener refuses is handed to the generic
one, and is no event of its own. -/
def beginInvocation (state : ThreadStacks Hook) (call : HookedCall Hook)
    (isLive : ℕ → ℕ → Bool) (now : ℕ) : Option (ThreadStacks Hook) :=
  let gumStack := invocationStackReapUnwound isLive call.stackAddress state.gumStack
  if call.fast then
    match state.thread.fastOnEnter context call.hook isLive gumStack call.functionContext
        call.stackAddress call.callerReturnAddress now with
    | (.invoke, thread) => some ⟨thread, gumStack⟩
    | _ => none
  else
    let (thread, data) := state.thread.onEnter context call.hook call.function
      call.stackAddress gumStack.length now
    some ⟨thread, gumStack ++ [⟨call.functionContext, call.function, call.stackAddress, data⟩]⟩

def endInvocation (state : ThreadStacks Hook) (call : HookedCall Hook) (now : ℕ) :
    Option (ThreadStacks Hook) :=
  if call.fast then
    let (thread, depth) := state.thread.fastOnLeave context call.hook call.functionContext
      call.stackAddress now
    some ⟨thread, invocationStackReapToDepth depth state.gumStack⟩
  else
    match state.gumStack.getLast? with
    | none => none
    | some invocation =>
      some ⟨state.thread.onLeave context call.hook invocation.data now, state.gumStack.dropLast⟩

def step (state : ThreadStacks Hook) : CallbackEvent Hook → Option (ThreadStacks Hook)
  | .enter call isLive now => state.beginInvocation context call isLive now
  | .leave call now => state.endInvocation context call now

end ThreadStacks

end Peak
