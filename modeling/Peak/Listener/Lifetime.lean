import Mathlib.Algebra.BigOperators.Group.Finset.Basic
import Mathlib.Algebra.Order.BigOperators.Group.Multiset
import Peak.Common.Machine

/-!
# The lifetime of fast invocations

The calls of an enabled fast listener are not counted in the usage counter of the trampoline, but
by each thread in a slot of the listener. Before the hook is detached,
`gum_interceptor_peak_prepare_fast_detach` closes the slots and adds their sum to the usage counter.
From then on each call takes itself off the counter when it ends.

A call ends by returning, or its frame is abandoned when the stack is unwound or the thread exits.
Abandoning a frame and preparing the detachment are modelled access by access; the detaching thread
holds the mutex of the interceptor. Entering and leaving are one step each.
-/

namespace Peak

/-- The accesses of `peak_general_listener_abandon_entry`. -/
inductive AbandonPc where
  | idle
  | loadClosing
  | awaitSeed
  | register
  | confirmOpen
  | retreat
  | loadActive (afterSeed : Bool)
  | storeActive (afterSeed : Bool) (seen : ℕ)
  | unregister
  | awaitRelease
  | readDestroyed
  | loadEnabled
  | countActive (slot total : ℕ)
  | clearRedirect
  | decrement
deriving DecidableEq

/-- The accesses of `gum_interceptor_peak_prepare_fast_detach`. -/
inductive PreparePc where
  | idle
  | readRedirect
  | disable
  | close
  | awaitAbandoners
  | sum (slot total : ℕ)
  | readUsage (active : ℕ)
  | loadRelease (active : ℕ) (current : ℤ)
  | seed (active : ℕ)
  | publish (active : ℕ)
  | clear

/-- A thread with its slot. The frames are numbered by their entry, the innermost comes first. A
frame being abandoned is kept until this is done. -/
structure FastThread where
  frames : List ℕ
  active : ℕ
  pc : AbandonPc

structure FastLifetime where
  enabled : Bool
  releaseRequired : Bool
  lifetimeClosing : Bool
  lifetimeAbandoners : ℕ
  /-- `trampoline_usage_counter`. -/
  usage : ℤ
  /-- `write_redirect_data` holds the fast listener. -/
  redirect : Bool
  destroyed : Bool
  threads : ℕ → FastThread
  prepare : PreparePc
  /-- The results of the calls of `gum_interceptor_peak_prepare_fast_detach`. -/
  prepared : List Bool
  /-- The open invocations counted by Gum. -/
  generic : ℕ
  entered : ℕ
  /-- The frames there were when `active_close` first found no abandoner. -/
  atClose : Option (Multiset ℕ)
  /-- The frames on whose behalf the usage counter was decremented. -/
  released : Multiset ℕ

namespace FastLifetime

/-- The state which `gum_interceptor_peak_enable_fast_listener` leaves. It requires that the usage
counter is zero. -/
def enableFastListener : FastLifetime where
  enabled := true
  releaseRequired := false
  lifetimeClosing := false
  lifetimeAbandoners := 0
  usage := 0
  redirect := true
  destroyed := false
  threads := fun _ => ⟨[], 0, .idle⟩
  prepare := .idle
  prepared := []
  generic := 0
  entered := 0
  atClose := none
  released := 0

variable (capacity : ℕ) (state : FastLifetime)

def live : Multiset ℕ :=
  ∑ thread ∈ Finset.range capacity, ((state.threads thread).frames : Multiset ℕ)

def activeSum : ℕ :=
  ∑ thread ∈ Finset.range capacity, (state.threads thread).active

def setThread (thread : ℕ) (value : FastThread) : FastLifetime :=
  { state with threads := Function.update state.threads thread value }

def goto (thread : ℕ) (pc : AbandonPc) : FastLifetime :=
  state.setThread thread { state.threads thread with pc := pc }

def pushFrame (thread : ℕ) : FastLifetime :=
  { state.setThread thread
      { state.threads thread with
        frames := state.entered :: (state.threads thread).frames
        active := (state.threads thread).active + 1 } with
    entered := state.entered + 1 }

def dropFrame (thread : ℕ) : FastLifetime :=
  state.setThread thread
    { state.threads thread with frames := (state.threads thread).frames.tail, pc := .idle }

def addUsage (amount : ℤ) : FastLifetime :=
  { state with usage := (state.usage + amount).bmod (2 ^ 32) }

/-- The usage counter is decremented for the innermost frame of the thread. -/
def releaseFrame (thread : ℕ) : FastLifetime :=
  { state.addUsage (-1) with
    released := ((state.threads thread).frames.take 1 : Multiset ℕ) + state.released }

def clearRedirect : FastLifetime :=
  { state with redirect := false }

/-- A direct call, from `peak_gum_context_fast_listener_for_enter` to
`peak_general_listener_fast_on_enter`. -/
def enter (thread : ℕ) : Option FastLifetime :=
  let caller := state.threads thread
  if thread < capacity ∧ caller.pc = .idle ∧ state.redirect ∧ state.enabled ∧
      caller.active ≠ 2 ^ 32 - 1 then
    some (state.pushFrame thread)
  else
    none

/-- `peak_general_listener_fast_active_remove`. -/
def removeActive (thread seen : ℕ) (next : AbandonPc) : FastLifetime :=
  state.setThread thread
    { state.threads thread with
      active := if 0 < seen then seen - 1 else (state.threads thread).active
      pc := next }

def clearDisabled : FastLifetime :=
  { state with
    redirect :=
      if !state.enabled ∧ state.activeSum capacity = 0 ∧ !state.destroyed then false
      else state.redirect }

/-- A direct return, from `_gum_function_context_end_invocation`. It waits for the seed if the slots
are closed. -/
def leave (thread : ℕ) : Option FastLifetime :=
  let caller := state.threads thread
  if thread < capacity ∧ caller.pc = .idle ∧ caller.frames ≠ [] ∧ state.redirect then
    let removed := state.removeActive thread caller.active .idle
    if state.lifetimeClosing then
      if state.releaseRequired then
        some (((removed.clearDisabled capacity).releaseFrame thread).dropFrame thread)
      else
        none
    else
      some (removed.dropFrame thread)
  else
    none

def startAbandon (thread : ℕ) : Option FastLifetime :=
  let caller := state.threads thread
  if thread < capacity ∧ caller.pc = .idle ∧ caller.frames ≠ [] then
    some (state.goto thread .loadClosing)
  else
    none

/-- The next access of `peak_general_listener_fast_abandon_remove` or, after it, of
`gum_interceptor_peak_release_fast_invocation`. -/
def abandon (thread : ℕ) : Option FastLifetime :=
  if thread < capacity then
    match (state.threads thread).pc with
    | .idle => none
    | .loadClosing =>
      some (state.goto thread (if state.lifetimeClosing then .awaitSeed else .register))
    | .awaitSeed =>
      some (if state.releaseRequired then state.goto thread (.loadActive true) else state)
    | .register =>
      some ({ state with lifetimeAbandoners := state.lifetimeAbandoners + 1 }.goto thread
        .confirmOpen)
    | .confirmOpen =>
      some (state.goto thread (if state.lifetimeClosing then .retreat else .loadActive false))
    | .retreat =>
      some ({ state with lifetimeAbandoners := state.lifetimeAbandoners - 1 }.goto thread
        .loadClosing)
    | .loadActive afterSeed =>
      some (state.goto thread (.storeActive afterSeed (state.threads thread).active))
    | .storeActive afterSeed seen =>
      some (state.removeActive thread seen (if afterSeed then .awaitRelease else .unregister))
    | .unregister =>
      some ({ state with lifetimeAbandoners := state.lifetimeAbandoners - 1 }.dropFrame thread)
    | .awaitRelease =>
      some (if state.releaseRequired then state.goto thread .readDestroyed else state)
    | .readDestroyed =>
      some (state.goto thread (if state.destroyed then .decrement else .loadEnabled))
    | .loadEnabled =>
      some (state.goto thread (if state.enabled then .decrement else .countActive 0 0))
    | .countActive slot total =>
      some (state.goto thread (
        if slot < capacity then
          .countActive (slot + 1) (total + (state.threads slot).active)
        else if total = 0 then .clearRedirect else .decrement))
    | .clearRedirect =>
      some (state.clearRedirect.goto thread .decrement)
    | .decrement =>
      some ((state.releaseFrame thread).dropFrame thread)
  else
    none

def prepareGoto (pc : PreparePc) : FastLifetime :=
  { state with prepare := pc }

def prepareReturn (result : Bool) : FastLifetime :=
  { state with prepare := .idle, prepared := result :: state.prepared }

/-- The result of `peak_general_listener_fast_active_close`. -/
def clampTotal (total : ℕ) : ℕ :=
  if total ≤ 2 ^ 32 - 1 then total else 2 ^ 32 - 1

/-- The next access of `gum_interceptor_peak_prepare_fast_detach`, which starts once more when it
has returned. -/
def prepareFastDetach : FastLifetime :=
  match state.prepare with
  | .idle => state.prepareGoto .readRedirect
  | .readRedirect =>
    if state.redirect then state.prepareGoto .disable else state.prepareReturn true
  | .disable => { state with enabled := false, prepare := .close }
  | .close => { state with lifetimeClosing := true, prepare := .awaitAbandoners }
  | .awaitAbandoners =>
    if state.lifetimeAbandoners = 0 then
      { state with
        atClose := state.atClose <|> some (state.live capacity)
        prepare := .sum 0 0 }
    else
      state
  | .sum slot total =>
    if slot < capacity then
      state.prepareGoto (.sum (slot + 1) (total + (state.threads slot).active))
    else
      state.prepareGoto (.readUsage (clampTotal total))
  | .readUsage active => state.prepareGoto (.loadRelease active state.usage)
  | .loadRelease active current =>
    if state.releaseRequired then
      state.prepareReturn true
    else if 0 ≤ current ∧ (active : ℤ) ≤ 2 ^ 31 - 1 - current then
      state.prepareGoto (if active = 0 then .publish active else .seed active)
    else
      state.prepareReturn false
  | .seed active => (state.addUsage active).prepareGoto (.publish active)
  | .publish active =>
    let published := { state with releaseRequired := true }
    if active = 0 then published.prepareGoto .clear else published.prepareReturn true
  | .clear => state.clearRedirect.prepareReturn true

/-- The steps of the threads, the detaching thread and Gum. `invalidate` is a call which finds other
listeners. -/
inductive Event where
  | enter (thread : ℕ)
  | leave (thread : ℕ)
  | startAbandon (thread : ℕ)
  | abandon (thread : ℕ)
  | prepareFastDetach
  | beginGeneric
  | endGeneric
  | invalidate
  | destroy

def step (state : FastLifetime) : Event → Option FastLifetime
  | .enter thread => state.enter capacity thread
  | .leave thread => state.leave capacity thread
  | .startAbandon thread => state.startAbandon capacity thread
  | .abandon thread => state.abandon capacity thread
  | .prepareFastDetach => some (state.prepareFastDetach capacity)
  | .beginGeneric => some { state.addUsage 1 with generic := state.generic + 1 }
  | .endGeneric =>
    if 0 < state.generic then
      some { state.addUsage (-1) with generic := state.generic - 1 }
    else
      none
  | .invalidate => some { state with enabled := false }
  | .destroy => some { state with destroyed := true }

end FastLifetime

end Peak
