import Mathlib.Algebra.BigOperators.Group.Finset.Piecewise
import Mathlib.Algebra.Order.BigOperators.Group.Finset
import Mathlib.Tactic.Abel
import Peak.Listener.Lifetime

/-!
# The handover of fast invocations to the usage counter

A frame is on the near or on the far side of the seed when `active_close` finds no abandoner any
more. The threads which removed a frame without looking at the usage counter have finished then, and
every later removal waits until the sum of the slots has been added to the counter.
-/

namespace Peak

open Finset Function

namespace AbandonPc

variable {pc : AbandonPc}

def removed : AbandonPc → ℕ
  | unregister | awaitRelease | readDestroyed | loadEnabled | countActive _ _ | clearRedirect
  | decrement => 1
  | _ => 0

/-- The thread is counted in `fast_lifetime_abandoners`. -/
def registered : AbandonPc → ℕ
  | confirmOpen | retreat | loadActive false | storeActive false _ | unregister => 1
  | _ => 0

def beforeSeed : AbandonPc → Bool
  | loadActive false | storeActive false _ | unregister => true
  | _ => false

def afterSeed : AbandonPc → Bool
  | loadActive true | storeActive true _ | awaitRelease | readDestroyed | loadEnabled
  | countActive _ _ | clearRedirect | decrement => true
  | _ => false

theorem decided_of_removed (removed : pc.removed ≠ 0) :
    pc.beforeSeed ∨ pc.afterSeed := by
  cases pc <;> simp_all [AbandonPc.removed, beforeSeed, afterSeed]

theorem registered_of_beforeSeed (early : pc.beforeSeed) : pc.registered = 1 := by
  cases pc with
  | loadActive afterSeed => cases afterSeed <;> simp_all [beforeSeed, registered]
  | storeActive afterSeed => cases afterSeed <;> simp_all [beforeSeed, registered]
  | _ => simp_all [beforeSeed, registered]

end AbandonPc

/-- The slots have been added to the usage counter, but this is not published yet. -/
def PreparePc.seeded : PreparePc → Bool
  | publish _ => true
  | _ => false

/-- The slot counts the frames of the thread except for one which has already been taken off. -/
structure FastThread.Consistent (thread : FastThread) : Prop where
  counted : thread.active + thread.pc.removed = thread.frames.length
  occupied : thread.pc ≠ .idle → thread.frames ≠ []
  loaded : ∀ afterSeed seen, thread.pc = .storeActive afterSeed seen → seen = thread.active

namespace FastLifetime

variable {capacity : ℕ} {state : FastLifetime}

variable {thread : ℕ}

theorem sum_update_add {M : Type*} [AddCommMonoid M] {f : ℕ → M} (inRange : thread < capacity)
    (value : M) :
    ∑ i ∈ range capacity, update f thread value i + f thread =
      ∑ i ∈ range capacity, f i + value := by
  have mem : thread ∈ range capacity := mem_range.mpr inRange
  rw [sum_update_of_mem mem, ← erase_eq, ← add_sum_erase _ f mem]
  abel

theorem comp_setThread {M : Type*} (measure : FastThread → M) (thread : ℕ) (value : FastThread) :
    (fun i => measure ((state.setThread thread value).threads i)) =
      update (fun i => measure (state.threads i)) thread (measure value) := by
  funext i
  simp only [setThread, update_apply]
  split <;> rfl

theorem sum_setThread_add {M : Type*} [AddCommMonoid M] (state : FastLifetime)
    (measure : FastThread → M) (inRange : thread < capacity) (value : FastThread) :
    ∑ i ∈ range capacity, measure ((state.setThread thread value).threads i) +
        measure (state.threads thread) =
      ∑ i ∈ range capacity, measure (state.threads i) + measure value := by
  rw [comp_setThread]
  exact sum_update_add inRange _

theorem live_setThread (state : FastLifetime) (inRange : thread < capacity) (value : FastThread) :
    (state.setThread thread value).live capacity + (state.threads thread).frames =
      state.live capacity + value.frames :=
  sum_setThread_add state (fun other => (other.frames : Multiset ℕ)) inRange value

theorem activeSum_eq_zero_iff :
    state.activeSum capacity = 0 ↔ ∀ i < capacity, (state.threads i).active = 0 := by
  simp [activeSum]

theorem activeSum_le {next : FastLifetime}
    (lower : ∀ i, (next.threads i).active ≤ (state.threads i).active) :
    next.activeSum capacity ≤ state.activeSum capacity :=
  sum_le_sum fun i _ => lower i

variable (capacity state)

structure Slots : Prop where
  consistent : ∀ i, (state.threads i).Consistent
  registered : state.lifetimeAbandoners = ∑ i ∈ range capacity, (state.threads i).pc.registered
  older : ∀ frame ∈ state.live capacity, frame < state.entered
  distinct : (state.live capacity).Nodup

/-- The order in which the flags are raised, and what the threads may do meanwhile. -/
structure Gates : Prop where
  late : ∀ i, (state.threads i).pc.afterSeed → state.releaseRequired
  closed : state.atClose ≠ none → state.lifetimeClosing ∧ state.enabled = false ∧
    ∀ i < capacity, (state.threads i).pc.beforeSeed = false
  seeded : state.releaseRequired → state.atClose ≠ none
  succeeded : true ∈ state.prepared → state.releaseRequired

/-- The redirection is given up, or is about to be, when all slots are zero. -/
structure Redirection : Prop where
  scanned : ∀ i slot, (state.threads i).pc = .countActive slot 0 →
    ∀ j < slot, (state.threads j).active = 0
  zero : ∀ i, (state.threads i).pc = .clearRedirect → state.activeSum capacity = 0
  cleared : state.redirect = false → state.releaseRequired ∧ state.activeSum capacity = 0

/-- The frames are part of the usage counter. -/
def counted : Bool :=
  state.releaseRequired || state.prepare.seeded

/-- What has been added to the usage counter and taken off again. -/
structure Ledger : Prop where
  usage : state.usage = ((state.generic +
    if state.counted then (state.live capacity).card else 0 : ℕ) : ℤ).bmod (2 ^ 32)
  untouched : state.releaseRequired = false → state.released = 0
  balanced : ∀ frames, state.atClose = some frames →
    frames.Nodup ∧ state.released + state.live capacity = frames

/-- What is known at each access of `gum_interceptor_peak_prepare_fast_detach`. -/
def Phase : Prop :=
  match state.prepare with
  | .idle | .readRedirect | .disable => True
  | .close => state.enabled = false
  | .awaitAbandoners => state.enabled = false ∧ state.lifetimeClosing
  | .sum slot total => state.atClose ≠ none ∧ slot ≤ capacity ∧
      (state.releaseRequired = false → total = ∑ i ∈ range slot, (state.threads i).active)
  | .readUsage active | .loadRelease active _ => state.atClose ≠ none ∧
      (state.releaseRequired = false → active = clampTotal (state.activeSum capacity))
  | .seed active | .publish active => state.atClose ≠ none ∧
      state.releaseRequired = false ∧ active = state.activeSum capacity
  | .clear => state.releaseRequired = true ∧ state.activeSum capacity = 0

structure Handover : Prop where
  slots : state.Slots capacity
  gates : state.Gates capacity
  redirection : state.Redirection capacity
  ledger : state.Ledger capacity
  phase : state.Phase capacity

variable {capacity state}

theorem Slots.activeSum_add_removed (slots : state.Slots capacity) :
    state.activeSum capacity + ∑ i ∈ range capacity, (state.threads i).pc.removed =
      (state.live capacity).card := by
  rw [activeSum, live, Multiset.card_sum, ← sum_add_distrib]
  exact sum_congr rfl fun i _ => (slots.consistent i).counted

variable {abandoners : ℕ}

theorem Slots.registered_setThread (slots : state.Slots capacity) (inRange : thread < capacity)
    {value : FastThread} (registered : abandoners + (state.threads thread).pc.registered =
      state.lifetimeAbandoners + value.pc.registered) :
    abandoners = ∑ i ∈ range capacity,
      ((state.setThread thread value).threads i).pc.registered := by
  have sums := sum_setThread_add state (·.pc.registered) inRange value
  rw [← slots.registered, ← registered] at sums
  exact (Nat.add_right_cancel sums).symm

theorem Handover.activeSum_eq_card (handover : state.Handover capacity)
    (closed : state.atClose ≠ none) (unseeded : state.releaseRequired = false) :
    state.activeSum capacity = (state.live capacity).card := by
  rw [← handover.slots.activeSum_add_removed, sum_eq_zero, add_zero]
  intro i inRange
  by_contra removed
  rcases AbandonPc.decided_of_removed removed with early | late
  · rw [(handover.gates.closed closed).2.2 i (mem_range.mp inRange)] at early
    cases early
  · rw [handover.gates.late i late] at unseeded
    cases unseeded

theorem goto_self (thread : ℕ) (pc : AbandonPc) :
    (state.goto thread pc).threads thread = { state.threads thread with pc := pc } := by
  simp [goto, setThread]

variable {other : ℕ}

theorem goto_other (different : other ≠ thread) (pc : AbandonPc) :
    (state.goto thread pc).threads other = state.threads other := by
  simp [goto, setThread, different]

@[simp]
theorem goto_frames (thread : ℕ) (pc : AbandonPc) (i : ℕ) :
    ((state.goto thread pc).threads i).frames = (state.threads i).frames := by
  by_cases same : i = thread
  · rw [same, goto_self]
  · rw [goto_other same]

@[simp]
theorem goto_active (thread : ℕ) (pc : AbandonPc) (i : ℕ) :
    ((state.goto thread pc).threads i).active = (state.threads i).active := by
  by_cases same : i = thread
  · rw [same, goto_self]
  · rw [goto_other same]

@[simp]
theorem live_goto (thread : ℕ) (pc : AbandonPc) :
    (state.goto thread pc).live capacity = state.live capacity := by
  simp [live]

@[simp]
theorem activeSum_goto (thread : ℕ) (pc : AbandonPc) :
    (state.goto thread pc).activeSum capacity = state.activeSum capacity := by
  simp [activeSum]

structure Admits (capacity : ℕ) (state : FastLifetime) (thread : ℕ) (pc : AbandonPc) :
    Prop where
  occupied : pc ≠ .idle → (state.threads thread).frames ≠ []
  loaded : ∀ afterSeed seen, pc = .storeActive afterSeed seen → seen = (state.threads thread).active
  late : pc.afterSeed → state.releaseRequired
  early : state.atClose ≠ none → pc.beforeSeed = false
  scanned : ∀ slot, pc = .countActive slot 0 → ∀ j < slot, (state.threads j).active = 0
  zero : pc = .clearRedirect → state.activeSum capacity = 0

/-- The thread goes on to `pc`, and the flags are left as they are. -/
structure Moves (state next : FastLifetime) (thread : ℕ) (pc : AbandonPc) : Prop where
  self : (next.threads thread).pc = pc
  others : ∀ i, i ≠ thread → (next.threads i).pc = (state.threads i).pc
  release : next.releaseRequired = state.releaseRequired
  atClose : next.atClose = state.atClose
  closing : next.lifetimeClosing = state.lifetimeClosing
  enabled : next.enabled = state.enabled
  prepared : next.prepared = state.prepared
  prepare : next.prepare = state.prepare
  redirect : next.redirect = state.redirect

section Move

variable {next : FastLifetime} {pc : AbandonPc} (admits : state.Admits capacity thread pc)
  (moves : state.Moves next thread pc)

include admits moves

theorem Gates.move (gates : state.Gates capacity) : next.Gates capacity where
  late := by
    intro i late
    rw [moves.release]
    by_cases same : i = thread
    · rw [same, moves.self] at late
      exact admits.late late
    · rw [moves.others i same] at late
      exact gates.late i late
  closed := by
    rw [moves.atClose, moves.closing, moves.enabled]
    intro closed
    rcases gates.closed closed with ⟨isClosing, disabled, decided⟩
    refine ⟨isClosing, disabled, fun i inRange => ?_⟩
    by_cases same : i = thread
    · rw [same, moves.self]
      exact admits.early closed
    · rw [moves.others i same]
      exact decided i inRange
  seeded := by
    rw [moves.release, moves.atClose]
    exact gates.seeded
  succeeded := by
    rw [moves.release, moves.prepared]
    exact gates.succeeded

theorem Redirection.move (redirection : state.Redirection capacity)
    (lower : ∀ i, (next.threads i).active ≤ (state.threads i).active) :
    next.Redirection capacity where
  scanned := by
    intro i slot atScan j earlier
    refine Nat.le_zero.mp ((lower j).trans (Nat.le_zero.mpr ?_))
    by_cases same : i = thread
    · rw [same, moves.self] at atScan
      exact admits.scanned slot atScan j earlier
    · rw [moves.others i same] at atScan
      exact redirection.scanned i slot atScan j earlier
  zero := by
    intro i atClear
    refine Nat.le_zero.mp ((activeSum_le lower).trans (Nat.le_zero.mpr ?_))
    by_cases same : i = thread
    · rw [same, moves.self] at atClear
      exact admits.zero atClear
    · rw [moves.others i same] at atClear
      exact redirection.zero i atClear
  cleared := by
    rw [moves.redirect, moves.release]
    intro given
    rcases redirection.cleared given with ⟨seeded, zero⟩
    exact ⟨seeded, Nat.le_zero.mp (zero ▸ activeSum_le lower)⟩

end Move

theorem Handover.goto {pc : AbandonPc} (handover : state.Handover capacity)
    (inRange : thread < capacity)
    (registered : abandoners + (state.threads thread).pc.registered =
      state.lifetimeAbandoners + pc.registered)
    (removed : pc.removed = (state.threads thread).pc.removed)
    (admits : state.Admits capacity thread pc) :
    ({ state with lifetimeAbandoners := abandoners }.goto thread pc).Handover capacity := by
  have moves : state.Moves ({ state with lifetimeAbandoners := abandoners }.goto thread pc)
      thread pc :=
    ⟨by rw [goto_self], fun i different => by rw [goto_other different], rfl, rfl, rfl, rfl, rfl,
      rfl, rfl⟩
  rcases handover with ⟨slots, gates, redirection, ledger, phase⟩
  constructor
  case slots =>
    refine ⟨?_, ?_, ?_, ?_⟩
    · intro i
      by_cases same : i = thread
      · rw [same, goto_self]
        refine ⟨?_, admits.occupied, admits.loaded⟩
        have counted := (slots.consistent thread).counted
        rw [← removed] at counted
        exact counted
      · rw [goto_other same]
        exact slots.consistent i
    · exact slots.registered_setThread inRange registered
    · rw [live_goto]
      exact slots.older
    · rw [live_goto]
      exact slots.distinct
  case gates => exact gates.move admits moves
  case redirection => exact redirection.move admits moves fun i => by rw [goto_active]
  case ledger =>
    refine ⟨?_, ledger.untouched, ?_⟩
    · rw [live_goto]
      exact ledger.usage
    · rw [live_goto]
      exact ledger.balanced
  case phase =>
    rw [Phase]
    simp only [activeSum_goto, goto_active]
    exact phase

theorem removeActive_self (thread seen : ℕ) (pc : AbandonPc) :
    ((state.removeActive thread seen pc).threads thread).pc = pc := by
  simp [removeActive, setThread]

theorem removeActive_other (different : other ≠ thread) (seen : ℕ) (pc : AbandonPc) :
    (state.removeActive thread seen pc).threads other = state.threads other := by
  simp [removeActive, setThread, different]

@[simp]
theorem removeActive_frames (thread seen : ℕ) (pc : AbandonPc) (i : ℕ) :
    ((state.removeActive thread seen pc).threads i).frames = (state.threads i).frames := by
  by_cases same : i = thread
  · simp [removeActive, setThread, same]
  · rw [removeActive_other same]

@[simp]
theorem live_removeActive (thread seen : ℕ) (pc : AbandonPc) :
    (state.removeActive thread seen pc).live capacity = state.live capacity := by
  simp [live]

theorem removeActive_active_le (thread : ℕ) (pc : AbandonPc) (i : ℕ) :
    ((state.removeActive thread (state.threads thread).active pc).threads i).active ≤
      (state.threads i).active := by
  by_cases same : i = thread
  · subst same
    simp only [removeActive, setThread, update_self]
    split <;> omega
  · rw [removeActive_other same]

theorem Phase.lower {next : FastLifetime} {pc : AbandonPc} (phase : state.Phase capacity)
    (allowed : state.atClose ≠ none → state.releaseRequired)
    (moves : state.Moves next thread pc)
    (lower : next.activeSum capacity ≤ state.activeSum capacity) : next.Phase capacity := by
  rw [Phase, moves.prepare, moves.release, moves.atClose, moves.closing, moves.enabled]
  rw [Phase] at phase
  cases position : state.prepare with
  | idle | readRedirect | disable => trivial
  | close | awaitAbandoners => simpa [position] using phase
  | sum =>
    simp only [position] at phase
    exact ⟨phase.1, phase.2.1, fun unseeded => by simp [allowed phase.1] at unseeded⟩
  | readUsage active | loadRelease active current =>
    simp only [position] at phase
    exact ⟨phase.1, fun unseeded => by simp [allowed phase.1] at unseeded⟩
  | seed active | publish active =>
    simp only [position] at phase
    simp [allowed phase.1] at phase
  | clear =>
    simp only [position] at phase
    exact ⟨phase.1, Nat.le_zero.mp (phase.2 ▸ lower)⟩

theorem Handover.removeActive (handover : state.Handover capacity) (inRange : thread < capacity)
    {next : AbandonPc} (registered : abandoners + (state.threads thread).pc.registered =
      state.lifetimeAbandoners + next.registered) (present : (state.threads thread).pc.removed = 0)
    (removed : next.removed = 1) (occupied : (state.threads thread).frames ≠ [])
    (admits : state.Admits capacity thread next)
    (allowed : state.atClose ≠ none → state.releaseRequired) :
    ({ state with lifetimeAbandoners := abandoners }.removeActive thread
      (state.threads thread).active next).Handover capacity := by
  have moves : state.Moves ({ state with lifetimeAbandoners := abandoners }.removeActive thread
      (state.threads thread).active next) thread next :=
    ⟨removeActive_self _ _ _, fun i different => by rw [removeActive_other different], rfl, rfl,
      rfl, rfl, rfl, rfl, rfl⟩
  rcases handover with ⟨slots, gates, redirection, ledger, phase⟩
  constructor
  case slots =>
    refine ⟨?_, slots.registered_setThread inRange registered, ?_, ?_⟩
    · intro i
      by_cases same : i = thread
      · subst same
        have positive : 0 < (state.threads i).active := by
          have counted := (slots.consistent i).counted
          rw [present, add_zero] at counted
          rw [counted]
          exact List.length_pos_iff.mpr occupied
        refine ⟨?_, ?_, ?_⟩
        · have counted := (slots.consistent i).counted
          simp only [FastLifetime.removeActive, setThread, update_self, positive, if_true]
          omega
        · intro _
          rw [removeActive_frames]
          exact occupied
        · intro afterSeed seen atStore
          rw [removeActive_self] at atStore
          rw [atStore] at removed
          cases removed
      · rw [removeActive_other same]
        exact slots.consistent i
    · rw [live_removeActive]
      exact slots.older
    · rw [live_removeActive]
      exact slots.distinct
  case gates => exact gates.move admits moves
  case redirection => exact redirection.move admits moves (removeActive_active_le thread next)
  case ledger =>
    refine ⟨?_, ledger.untouched, ?_⟩
    · rw [live_removeActive]
      exact ledger.usage
    · rw [live_removeActive]
      exact ledger.balanced
  case phase =>
    exact phase.lower allowed moves (activeSum_le (removeActive_active_le thread next))

theorem dropFrame_self (thread : ℕ) :
    (state.dropFrame thread).threads thread =
      { state.threads thread with
        frames := (state.threads thread).frames.tail, pc := .idle } := by
  simp [dropFrame, setThread]

theorem dropFrame_other (different : other ≠ thread) :
    (state.dropFrame thread).threads other = state.threads other := by
  simp [dropFrame, setThread, different]

theorem moves_dropFrame (state : FastLifetime) (thread : ℕ) :
    state.Moves (state.dropFrame thread) thread .idle :=
  ⟨by rw [dropFrame_self], fun i different => by rw [dropFrame_other different], rfl, rfl, rfl,
    rfl, rfl, rfl, rfl⟩

@[simp]
theorem dropFrame_active (thread : ℕ) (i : ℕ) :
    ((state.dropFrame thread).threads i).active = (state.threads i).active := by
  by_cases same : i = thread
  · rw [same, dropFrame_self]
  · rw [dropFrame_other same]

@[simp]
theorem activeSum_dropFrame (thread : ℕ) :
    (state.dropFrame thread).activeSum capacity = state.activeSum capacity := by
  simp [activeSum]

theorem live_dropFrame (state : FastLifetime) (inRange : thread < capacity) :
    ((state.threads thread).frames.take 1 : Multiset ℕ) + (state.dropFrame thread).live capacity =
      state.live capacity := by
  have sums := live_setThread state inRange
    { state.threads thread with frames := (state.threads thread).frames.tail, pc := .idle }
  have split : ((state.threads thread).frames : Multiset ℕ) =
      (state.threads thread).frames.take 1 + (state.threads thread).frames.tail := by
    rw [Multiset.coe_add, ← List.drop_one, List.take_append_drop]
  rw [split, ← add_assoc] at sums
  rw [add_comm]
  exact add_right_cancel sums

theorem idle_admits (capacity : ℕ) (state : FastLifetime) (thread : ℕ) :
    state.Admits capacity thread .idle where
  occupied := fun notIdle => absurd rfl notIdle
  loaded := nofun
  late := nofun
  early := fun _ => rfl
  scanned := nofun
  zero := nofun

theorem Slots.dropFrame (slots : state.Slots capacity) (inRange : thread < capacity)
    (abandoners : ℕ)
    (registered : abandoners + (state.threads thread).pc.registered = state.lifetimeAbandoners)
    (removed : (state.threads thread).pc.removed = 1) :
    ({ state with lifetimeAbandoners := abandoners }.dropFrame thread).Slots capacity := by
  have fewer : (({ state with lifetimeAbandoners := abandoners }.dropFrame thread).live capacity) ≤
      state.live capacity := by
    rw [← live_dropFrame state inRange]
    exact Multiset.le_add_left _ _
  refine ⟨?_, slots.registered_setThread inRange registered, ?_, ?_⟩
  · intro i
    by_cases same : i = thread
    · subst same
      rw [dropFrame_self]
      refine ⟨?_, fun notIdle => absurd rfl notIdle, nofun⟩
      have counted := (slots.consistent i).counted
      rw [removed] at counted
      simp only [List.length_tail, AbandonPc.removed]
      omega
    · rw [dropFrame_other same]
      exact slots.consistent i
  · intro frame frameMem
    exact slots.older frame (Multiset.mem_of_le fewer frameMem)
  · exact Multiset.nodup_of_le fewer slots.distinct

theorem Phase.dropFrame (phase : state.Phase capacity) (thread : ℕ) :
    (state.dropFrame thread).Phase capacity := by
  rw [Phase]
  simp only [activeSum_dropFrame, dropFrame_active]
  exact phase

section

variable (handover : state.Handover capacity)

include handover

theorem Handover.not_counted (notClosed : state.atClose = none) :
    state.releaseRequired = false ∧ state.counted = false := by
  have unseeded : state.releaseRequired = false := by
    by_contra seeded
    exact handover.gates.seeded (Bool.eq_true_of_not_eq_false seeded) notClosed
  refine ⟨unseeded, ?_⟩
  have phase := handover.phase
  rw [Phase] at phase
  cases position : state.prepare with
  | publish =>
    simp only [position] at phase
    exact absurd notClosed phase.1
  | _ =>
    rw [counted, unseeded, position]
    rfl

theorem Handover.dropFrame (inRange : thread < capacity)
    (abandoners : ℕ)
    (registered : abandoners + (state.threads thread).pc.registered = state.lifetimeAbandoners)
    (removed : (state.threads thread).pc.removed = 1) (notClosed : state.atClose = none) :
    ({ state with lifetimeAbandoners := abandoners }.dropFrame thread).Handover capacity := by
  have uncounted := (handover.not_counted notClosed).2
  have moves : state.Moves ({ state with lifetimeAbandoners := abandoners }.dropFrame thread)
      thread .idle :=
    { moves_dropFrame { state with lifetimeAbandoners := abandoners } thread with }
  rcases handover with ⟨slots, gates, redirection, ledger, phase⟩
  constructor
  case slots =>
    exact slots.dropFrame inRange abandoners registered removed
  case gates => exact gates.move (idle_admits capacity state thread) moves
  case redirection =>
    exact redirection.move (idle_admits capacity state thread) moves fun i => by
      rw [dropFrame_active]
  case ledger =>
    refine ⟨?_, ledger.untouched, ?_⟩
    · have usage := ledger.usage
      change state.usage = _
      rw [usage]
      change _ = ((state.generic + if state.counted then _ else 0 : ℕ) : ℤ).bmod (2 ^ 32)
      rw [uncounted]
      rfl
    · intro frames closed
      rw [notClosed] at closed
      cases closed
  case phase =>
    exact phase.dropFrame thread

theorem Handover.releaseFrame (inRange : thread < capacity)
    {here : AbandonPc} (position : (state.threads thread).pc = here)
    (unregistered : here.registered = 0) (removed : here.removed = 1)
    (seeded : state.releaseRequired) :
    ((state.releaseFrame thread).dropFrame thread).Handover capacity := by
  subst position
  have moves : state.Moves ((state.releaseFrame thread).dropFrame thread) thread .idle :=
    { moves_dropFrame (state.releaseFrame thread) thread with }
  rcases handover with ⟨slots, gates, redirection, ledger, phase⟩
  have split := live_dropFrame state inRange
  have single : ((state.threads thread).frames.take 1).length = 1 := by
    have counted := (slots.consistent thread).counted
    rw [List.length_take, ← counted]
    omega
  constructor
  case slots =>
    exact { slots.dropFrame inRange state.lifetimeAbandoners
      (by rw [unregistered, add_zero]) removed with }
  case gates => exact gates.move (idle_admits capacity state thread) moves
  case redirection =>
    exact redirection.move (idle_admits capacity state thread) moves fun i => by
      rw [dropFrame_active]
      rfl
  case ledger =>
    refine ⟨?_, fun unseeded => ?_, ?_⟩
    · have isCounted : state.counted := by
        simp [counted, seeded]
      have usage := ledger.usage
      have stillCounted : ((state.releaseFrame thread).dropFrame thread).counted :=
        isCounted
      rw [isCounted, if_pos rfl, ← split, Multiset.card_add, Multiset.coe_card, single] at usage
      rw [stillCounted, if_pos rfl]
      change (state.usage + -1).bmod (2 ^ 32) = ((state.generic +
        ((state.dropFrame thread).live capacity).card : ℕ) : ℤ).bmod (2 ^ 32)
      rw [usage, Int.bmod_add_bmod]
      congr 1
      omega
    · change state.releaseRequired = false at unseeded
      rw [seeded] at unseeded
      cases unseeded
    · intro frames closed
      rcases ledger.balanced frames closed with ⟨distinct, balanced⟩
      refine ⟨distinct, ?_⟩
      rw [← balanced, ← split, add_left_comm]
      exact add_assoc _ _ _
  case phase =>
    exact phase.dropFrame thread

theorem Handover.clearRedirect
    (seeded : state.releaseRequired) (zero : state.activeSum capacity = 0) :
    state.clearRedirect.Handover capacity := by
  rcases handover with ⟨slots, gates, redirection, ledger, phase⟩
  exact ⟨{ slots with }, { gates with }, { redirection with cleared := fun _ => ⟨seeded, zero⟩ },
    { ledger with }, phase⟩

theorem Handover.clearDisabled
    (seeded : state.releaseRequired) : (state.clearDisabled capacity).Handover capacity := by
  rw [FastLifetime.clearDisabled]
  split
  case isTrue drained => exact handover.clearRedirect seeded drained.2.1
  case isFalse => exact handover

end

end FastLifetime

end Peak
