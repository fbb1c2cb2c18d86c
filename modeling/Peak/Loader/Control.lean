import Mathlib.Algebra.Order.BigOperators.Group.Finset
import Peak.Loader.Queue

/-!
# The control of the loader

The shutdown passes its stages in order. What it has waited for stays as it is: once
the controller is shut down nothing is queued and no drain begins, so that in the end
PEAK has no reference left.
-/

namespace Peak.Loader

open Function

variable {Handle Call Drain : Type}

theorem queue_eq_nil {state : Loader Handle Call Drain}
    (counts : state.pendingOwnership = state.queue.countP AttachRequest.pending)
    (resolved : state.pendingOwnership = 0) (isEmpty : state.popRequest = none) :
    state.queue = [] := by
  rw [counts, List.countP_eq_zero] at resolved
  cases queue : state.queue with
  | nil => rfl
  | cons request =>
    have settled : ¬ request.pending := resolved request (by simp [queue])
    have waits : ¬ request.drainable := by
      intro drainable
      simp [popRequest, queue, drainable] at isEmpty
    cases isState : request.state <;>
      simp [AttachRequest.pending, AttachRequest.drainable, isState] at settled waits

variable [Fintype Drain]

structure ControlView (Handle Drain : Type) where
  controller : ControllerState
  guardOwner : Bool
  route : GuardRoute
  queue : List (AttachRequest Handle)
  pendingOwnership : ℕ
  activeDrains : ℕ
  retained : List (Handle × ℕ)
  owner : OwnerPc Handle
  drains : Drain → DrainPc Handle
  shutdown : ShutdownPc Handle

def view (state : Loader Handle Call Drain) : ControlView Handle Drain where
  controller := state.controller
  guardOwner := state.guardOwner
  route := state.route
  queue := state.queue
  pendingOwnership := state.pendingOwnership
  activeDrains := state.activeDrains
  retained := state.retained
  owner := state.owner
  drains := state.drains
  shutdown := state.shutdown

structure Controlled (view : ControlView Handle Drain) : Prop where
  drains : view.activeDrains = ∑ drain, (view.drains drain).active
  opened : view.controller = .opened → view.guardOwner ∧ view.shutdown.stage = 0
  guarded : view.guardOwner = false → view.pendingOwnership = 0
  closing : 1 ≤ view.shutdown.stage → view.controller = .shuttingDown
  quiet : 2 ≤ view.shutdown.stage → view.activeDrains = 0
  resolved : 4 ≤ view.shutdown.stage → view.pendingOwnership = 0
  joined : 7 ≤ view.shutdown.stage → view.owner = .exited
  emptied : 8 ≤ view.shutdown.stage → view.queue = []
  released : 9 ≤ view.shutdown.stage → view.retained = []
  routed : view.route ≠ .routed → 8 ≤ view.shutdown.stage

namespace Controlled

variable {state after : Loader Handle Call Drain}

section

variable (controlled : Controlled state.view)

include controlled

theorem enqueue (opened : state.controller = .opened)
    (queue : List (AttachRequest Handle)) (count : ℕ) :
    Controlled { state.view with queue := queue, pendingOwnership := count } := by
  rcases controlled.opened opened with ⟨guardOwner, _⟩
  refine { controlled with guarded := ?_, resolved := ?_, emptied := ?_ }
  · intro unguarded
    cases guardOwner.symm.trans unguarded
  all_goals
    intro late
    change _ ≤ state.view.shutdown.stage at late
    omega

theorem resolve (early : state.shutdown.stage < 8)
    (queue : List (AttachRequest Handle)) {count : ℕ} (fewer : count ≤ state.pendingOwnership) :
    Controlled { state.view with queue := queue, pendingOwnership := count } :=
  { controlled with
    guarded := fun unguarded => Nat.le_zero.mp (controlled.guarded unguarded ▸ fewer)
    resolved := fun late => Nat.le_zero.mp (controlled.resolved late ▸ fewer)
    emptied := fun late => absurd late (Nat.not_le.mpr early) }

theorem stage_of_mem {request : AttachRequest Handle}
    (isQueued : request ∈ state.queue) : state.shutdown.stage < 8 := by
  by_contra late
  have empty : state.queue = [] := controlled.emptied (not_lt.mp late)
  rw [empty] at isQueued
  cases isQueued

theorem stage_of_owner (runs : state.owner ≠ .exited) : state.shutdown.stage < 7 := by
  by_contra late
  exact runs (controlled.joined (not_lt.mp late))

theorem setOwner (early : state.shutdown.stage < 7)
    (owner : OwnerPc Handle) : Controlled { state.view with owner := owner } :=
  { controlled with joined := fun late => absurd late (Nat.not_le.mpr early) }

theorem active_le (drain : Drain) : (state.drains drain).active ≤ state.activeDrains := by
  have sum : state.activeDrains = ∑ drain, (state.drains drain).active := controlled.drains
  rw [sum]
  exact Finset.single_le_sum (f := fun drain => (state.drains drain).active)
    (fun _ _ => Nat.zero_le _) (Finset.mem_univ drain)

theorem stage_of_drain {drain : Drain}
    (active : (state.drains drain).active = 1) : state.shutdown.stage < 2 := by
  by_contra late
  have none : state.activeDrains = 0 := controlled.quiet (not_lt.mp late)
  have counted := controlled.active_le drain
  omega

theorem atStage {pc : ShutdownPc Handle}
    (same : pc.stage = state.shutdown.stage) : Controlled { state.view with shutdown := pc } := by
  constructor
  all_goals simp only [same]
  exacts [controlled.drains, controlled.opened, controlled.guarded, controlled.closing,
    controlled.quiet, controlled.resolved, controlled.joined, controlled.emptied,
    controlled.released, controlled.routed]

theorem advance (shuttingDown : state.controller = .shuttingDown) {pc : ShutdownPc Handle}
    (next : pc.stage = state.shutdown.stage + 1)
    (quiet : pc.stage = 2 → state.activeDrains = 0)
    (resolved : pc.stage = 4 → state.pendingOwnership = 0)
    (joined : pc.stage = 7 → state.owner = .exited) (emptied : pc.stage = 8 → state.queue = [])
    (released : pc.stage = 9 → state.retained = []) :
    Controlled { state.view with shutdown := pc } := by
  -- a condition of an earlier stage holds already
  have passed : ∀ {bound : ℕ} {condition : Prop}, (pc.stage = bound → condition) →
      (bound ≤ state.shutdown.stage → condition) → bound ≤ pc.stage → condition := by
    intro bound condition now before reached
    by_cases earlier : bound ≤ state.shutdown.stage
    · exact before earlier
    · exact now (by omega)
  exact {
    drains := controlled.drains
    opened := fun opened => by cases shuttingDown.symm.trans opened
    guarded := controlled.guarded
    closing := fun _ => shuttingDown
    quiet := passed quiet controlled.quiet
    resolved := passed resolved controlled.resolved
    joined := passed joined controlled.joined
    emptied := passed emptied controlled.emptied
    released := passed released controlled.released
    routed := fun rerouted => by
      have late : 8 ≤ state.shutdown.stage := controlled.routed rerouted
      change 8 ≤ pc.stage
      omega }

end

end Controlled

variable {state after : Loader Handle Call Drain} {drain : Drain}

section

variable (controlled : Controlled state.view)

include controlled

theorem controlled_owner (runs : state.owner ≠ .exited)
    (same : after.view = { state.view with owner := after.owner }) : Controlled after.view := by
  rw [same]
  exact controlled.setOwner (controlled.stage_of_owner runs) after.owner

theorem controlled_resolve (runs : state.owner ≠ .exited)
    (queue : List (AttachRequest Handle)) {count : ℕ} (fewer : count ≤ state.pendingOwnership)
    (owner : OwnerPc Handle) : Controlled { state.view with
      queue := queue, pendingOwnership := count, owner := owner } := by
  have early := controlled.stage_of_owner runs
  have resolved := controlled.resolve (by omega) queue fewer
  exact { resolved with joined := fun late => absurd late (Nat.not_le.mpr early) }

theorem controlled_enqueue [DecidableEq Handle] (handle : Handle)
    (bindingFlags : BindingFlags) (scope : AttachScope) :
    Controlled (state.enqueueRequest handle bindingFlags scope).view := by
  by_cases opened : state.controller = .opened
  · rcases enqueueRequest_other state handle bindingFlags scope with ⟨queue, _, count, changed⟩
    rw [changed]
    exact controlled.enqueue opened queue count
  · have unchanged : state.enqueueRequest handle bindingFlags scope = state := by
      simp [enqueueRequest, opened]
    rw [unchanged]
    exact controlled

variable [DecidableEq Drain]

theorem controlled_drain {pc : DrainPc Handle}
    (active : (state.drains drain).active = 1)
    (same : after.view = { state.view with
      drains := update state.drains drain pc
      queue := after.queue
      retained := after.retained })
    (still : pc.active = 1) : Controlled after.view := by
  have early := controlled.stage_of_drain active
  have sum : ∑ other, (update state.drains drain pc other).active =
      ∑ other, (state.drains other).active := by
    rcases sum_update DrainPc.active state.drains drain pc with ⟨_, before, updated⟩
    rw [updated, before, active, still]
  rw [same]
  refine { controlled with
    drains := controlled.drains.trans sum.symm
    emptied := ?_
    released := ?_ }
  · intro late
    change 8 ≤ state.shutdown.stage at late
    omega
  · intro late
    change 9 ≤ state.shutdown.stage at late
    omega

theorem controlled_activity {pc : DrainPc Handle} {count : ℕ}
    (balance : count + (state.drains drain).active = state.activeDrains + pc.active)
    (quiet : 2 ≤ state.shutdown.stage → count = 0) : Controlled { state.view with
      drains := update state.drains drain pc, activeDrains := count } := by
  rcases sum_update DrainPc.active state.drains drain pc with ⟨_, _, _⟩
  have sum : state.activeDrains = ∑ other, (state.drains other).active := controlled.drains
  refine { controlled with drains := ?_, quiet := quiet }
  change count = ∑ other, (update state.drains drain pc other).active
  omega

end

variable [DecidableEq Handle] [DecidableEq Call] [DecidableEq Drain]

theorem controlled_move {event : LoaderEvent Handle Call Drain} (controlled : Controlled state.view)
    (counts : state.pendingOwnership = state.queue.countP AttachRequest.pending)
    (move : Move state event after) : Controlled after.view := by
  have closing : 1 ≤ state.shutdown.stage → state.controller = .shuttingDown := controlled.closing
  cases move with
  | load _ _ handle => cases handle <;> exact controlled
  | enqueue _ handle bindingFlags scope =>
    exact controlled_enqueue controlled handle bindingFlags scope
  | transfer _ _ _ _ found =>
    apply controlled.resolve (controlled.stage_of_mem (List.mem_of_find?_eq_some found))
    split
    · exact Nat.sub_le _ _
    · exact le_rfl
  | select _ waiting => exact controlled_resolve controlled (by simp [waiting]) _ le_rfl _
  | own ticket reference token request pinned | resolveUnpinned ticket request pinned =>
    exact controlled_resolve controlled (by simp [pinned]) _ (Nat.sub_le _ _) _
  | owner pc works | acquire handle pc works | closeOwned reference pc works =>
    exact controlled_owner controlled works.runs rfl
  | beginDrain _ _ idle opened =>
    have stage : state.shutdown.stage = 0 := (controlled.opened opened).2
    exact controlled_activity controlled (by rw [idle]; rfl) (by omega)
  | take _ _ _ _ _ _ looping =>
    exact controlled_drain controlled (by rw [looping]; rfl) rfl rfl
  | drain _ _ goesOn => exact controlled_drain controlled goesOn.active rfl goesOn.still
  | retain _ _ _ _ _ _ _ popped =>
    exact controlled_drain controlled (by rw [popped]; rfl) rfl rfl
  | requeue _ _ _ _ _ _ attached =>
    exact controlled_drain controlled (by rw [attached]; rfl) rfl rfl
  | endDrain drain _ ending =>
    have active : (state.drains drain).active = 1 := by rw [ending]; rfl
    have early := controlled.stage_of_drain active
    have counted := controlled.active_le drain
    refine controlled_activity controlled ?_ (by omega)
    change state.activeDrains - 1 + _ = state.activeDrains + 0
    omega
  | drainClose drain reference handles closing | drainEnds drain closing =>
    have inactive : (state.drains drain).active = 0 := by rw [closing]; rfl
    have goesOn : ∀ {pc : DrainPc Handle}, pc.active = 0 → Controlled { state.view with
        drains := update state.drains drain pc, activeDrains := state.activeDrains } :=
      fun still => controlled_activity controlled (by rw [inactive, still]) controlled.quiet
    exact goesOn rfl
  | enable allowed =>
    have stage : state.shutdown.stage = 0 := by
      by_contra started
      exact allowed (closing (Nat.pos_of_ne_zero started))
    refine { controlled with
      opened := fun _ => ⟨rfl, stage⟩
      guarded := fun cleared => by cases cleared
      closing := ?_ }
    intro started
    change 1 ≤ state.shutdown.stage at started
    omega
  | shutDown idle =>
    have shutDown : Controlled ({ state with controller := .shuttingDown }).view :=
      { controlled with opened := (fun opened => by cases opened), closing := fun _ => rfl }
    refine shutDown.advance rfl (by simp [setShutdown, idle, ShutdownPc.stage])
      ?_ ?_ ?_ ?_ ?_ <;> rintro ⟨⟩
  | advance pc _ advances =>
    refine controlled.advance (closing advances.started) advances.next advances.quiet
      advances.resolved advances.joined ?_ fun late => absurd late advances.released
    intro (late : pc.stage = 8)
    have next := advances.next
    have stage : 4 ≤ state.shutdown.stage := by omega
    have resolved : state.pendingOwnership = 0 := controlled.resolved stage
    exact queue_eq_nil counts resolved (advances.emptied late)
  | clearOwner here =>
    have stage : state.shutdown.stage = 4 := by rw [here]; rfl
    have shuttingDown := closing (by omega)
    have resolved : state.pendingOwnership = 0 := controlled.resolved stage.ge
    have cleared : Controlled ({ state with guardOwner := false }).view :=
      { controlled with
        opened := fun opened => by cases shuttingDown.symm.trans opened
        guarded := fun _ => resolved }
    refine cleared.advance shuttingDown (by simp [setShutdown, here, ShutdownPc.stage])
      ?_ ?_ ?_ ?_ ?_ <;> rintro ⟨⟩
  | discard _ _ rest discarding queue _ isStage =>
    have stage : state.shutdown.stage = 7 := by rw [discarding]; rfl
    have kept : Controlled ({ state with queue := rest }).view :=
      controlled.resolve (by omega) rest le_rfl
    exact kept.atStage (isStage.trans stage.symm)
  | closeTaken _ _ _ same => exact controlled.atStage same
  | release finished =>
    have stage : state.shutdown.stage = 8 := by rw [finished]; rfl
    have taken : Controlled ({ state with retained := [] }).view :=
      { controlled with released := fun _ => rfl }
    refine taken.advance (closing (by omega))
      (by simp [setShutdown, finished, ShutdownPc.stage]) ?_ ?_ ?_ ?_ (fun _ => rfl) <;> rintro ⟨⟩
  | timeOut =>
    have never {bound : ℕ} {condition : Prop} (late : bound + 1 ≤ 0) : condition :=
      absurd late (Nat.not_succ_le_zero _)
    refine { controlled with
      opened := fun opened => ⟨(controlled.opened opened).1, rfl⟩
      closing := never, quiet := never, resolved := never, joined := never, emptied := never
      released := never
      routed := fun rerouted => ?_ }
    have late : 8 ≤ state.shutdown.stage := controlled.routed rerouted
    omega
  | setRoute _ late => exact { controlled with routed := fun _ => late }
  | turn | receive | close | unload | withdraw =>
    -- the other moves of the application are not part of the view
    exact controlled

end Peak.Loader
