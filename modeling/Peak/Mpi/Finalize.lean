import Mathlib.Data.Int.Notation
import Mathlib.Data.Nat.Notation
import Mathlib.Logic.Function.Basic

/-!
# The real MPI finalizer

One of the threads that enter the replacement of `PMPI_Finalize` in `src/mpi_interceptor.c` becomes
the owner and calls the real finalizer, the others wait for its result. A waiter which gives up
closes the state, but the owner does not look at the state again before its call, and the waiter
does not where the closing fails.

A step is one atomic access, or an operation on the mutex. What the environment decides is part of
the event.
-/

namespace Peak.Mpi

/-- `PeakMpiFinalizeState`. -/
inductive FinalizeState where
  | notRequested
  | requested
  | inProgress
  | done
  | failedClosed
deriving DecidableEq

inductive FinalizePc where
  | mark
  | load
  | claim
  | check
  | call
  | running
  | publish (result : ℤ)
  | lock (result : ℤ)
  | loadDone (result : ℤ) (locked : Bool)
  | setDone (result : ℤ) (locked : Bool) (seen : FinalizeState)
  | finish (result : ℤ) (locked : Bool)
  | wait
  | waitLock
  | waitLoad
  | sleep
  | unlock (seen : FinalizeState)
  | loadResult
  | close
  | disallow
  | returned
deriving DecidableEq

/-- The variables of the interceptor and what has happened, with the state at each call of the real
finalizer and each return. -/
structure Finalizer where
  state : FinalizeState
  result : ℤ
  allowed : Bool
  mutex : Bool
  pc : ℕ → FinalizePc
  owner : Option ℕ
  calls : List FinalizeState
  published : List ℤ
  returns : List (ℤ × FinalizeState)

inductive FinalizeEvent where
  /-- `mpi_interceptor_set_real_finalize_allowed`. -/
  | allow (allowed : Bool)
  | access (thread : ℕ) (succeeds : Bool) (answer : ℤ)

namespace Finalizer

def initial : Finalizer :=
  ⟨.notRequested, 0, false, false, fun _ => .mark, none, [], [], []⟩

variable (s : Finalizer)

def goto (thread : ℕ) (pc : FinalizePc) : Finalizer :=
  { s with pc := Function.update s.pc thread pc }

def return_ (thread : ℕ) (value : ℤ) : Finalizer :=
  { s with returns := (value, s.state) :: s.returns }.goto thread .returned

/-- The loop of `mpi_interceptor_finalize_mark_done` goes on with the state which it has seen. -/
def markDone (thread : ℕ) (result : ℤ) (locked : Bool) : Finalizer :=
  if s.state = .requested ∨ s.state = .inProgress then
    s.goto thread (.setDone result locked s.state)
  else
    s.goto thread (.finish result locked)

variable (errOther : ℤ)

def access (thread : ℕ) (succeeds : Bool) (answer : ℤ) : Option Finalizer :=
  match s.pc thread with
  -- `mpi_interceptor_mark_finalize_requested`
  | .mark =>
    some ({ s with state := if s.state = FinalizeState.notRequested then .requested
      else s.state }.goto thread .load)
  -- `mpi_interceptor_call_original_finalize_once`
  | .load => some <|
    match s.state with
    | .done => s.goto thread .loadResult
    | .failedClosed => s.return_ thread errOther
    | .inProgress => s.goto thread .wait
    | .requested => s.goto thread .claim
    | .notRequested => s.return_ thread 0
  | .claim => some <|
    if s.state = .requested then
      { s with state := .inProgress, owner := some thread }.goto thread .check
    else s.goto thread .load
  | .check => some (s.goto thread (if succeeds && s.allowed then .call else .publish 0))
  | .call => some <|
    if succeeds then { s with calls := s.state :: s.calls }.goto thread .running
    else s.goto thread (.publish 0)
  | .running => some (s.goto thread (.publish answer))
  -- `mpi_interceptor_finalize_publish_done`
  | .publish result =>
    some ({ s with result := result, published := result :: s.published }.goto thread
      (.lock result))
  | .lock result =>
    if !succeeds then some (s.goto thread (.loadDone result false))
    else if s.mutex then none
    else some ({ s with mutex := true }.goto thread (.loadDone result true))
  | .loadDone result locked => some (s.markDone thread result locked)
  | .setDone result locked seen => some <|
    if s.state = seen then { s with state := .done }.goto thread (.finish result locked)
    else s.markDone thread result locked
  | .finish result locked => some ({ s with mutex := s.mutex && !locked }.return_ thread result)
  -- `mpi_interceptor_wait_for_finalize_owner`
  | .wait => some (s.goto thread (if succeeds then .waitLock else .close))
  | .waitLock =>
    if !succeeds then some (s.goto thread .close)
    else if s.mutex then none
    else some ({ s with mutex := true }.goto thread .waitLoad)
  | .waitLoad => some <|
    if s.state = .inProgress then { s with mutex := false }.goto thread .sleep
    else s.goto thread (.unlock s.state)
  | .sleep =>
    if s.mutex then none
    else some ({ s with mutex := true }.goto thread
      (if succeeds then .waitLoad else .unlock .inProgress))
  | .unlock seen => some <|
    match seen with
    | .done => { s with mutex := false }.goto thread .loadResult
    | .failedClosed => { s with mutex := false }.return_ thread errOther
    | .inProgress => { s with mutex := false }.goto thread .close
    | .notRequested | .requested => { s with mutex := false }.return_ thread 0
  | .loadResult => some (s.return_ thread s.result)
  | .close => some <|
    if s.state = .inProgress then { s with state := .failedClosed }.goto thread .disallow
    else s.return_ thread errOther
  | .disallow => some ({ s with allowed := false }.return_ thread errOther)
  | .returned => none

def step : FinalizeEvent → Option Finalizer
  | .allow allowed => some { s with allowed := allowed }
  | .access thread succeeds answer => s.access errOther thread succeeds answer

/-- An access that has to wait for the mutex is tried again later. -/
def run (events : List FinalizeEvent) : Finalizer :=
  events.foldl (fun s event => (s.step errOther event).getD s) initial

inductive Follows : FinalizeState → FinalizeState → Prop
  | request : Follows .notRequested .requested
  | claim : Follows .requested .inProgress
  | finish : Follows .inProgress .done
  | close : Follows .inProgress .failedClosed

/-- The finalizer is called at most once and not after the closing, the state moves on only, and a
caller returns the published result, or the error where the state is closed. -/
structure Consistent : Prop where
  moves : ∀ event after, s.step errOther event = some after →
    after.state = s.state ∨ Follows s.state after.state
  once : s.calls.length ≤ 1
  inTime : .failedClosed ∉ s.calls
  returns : ∀ value state, (value, state) ∈ s.returns →
    value = errOther ∧ state = .failedClosed ∨ s.published = [value]

/-- A waiter that gave up exchanges the state before the owner sets it to `DONE`, but not between
the owner's exchange and call. -/
def Timely : FinalizeEvent → Prop
  | .allow _ => True
  | .access thread _ _ => s.pc thread = .close → s.state ≠ .done ∧
    (s.state = .inProgress → ∀ owner ∈ s.owner, s.pc owner ≠ .check ∧ s.pc owner ≠ .call)

instance : DecidablePred s.Timely
  | .allow _ => instDecidableTrue
  | .access thread _ _ => inferInstanceAs (Decidable (s.pc thread = .close → _))

/-- Each of the following steps is timely in the state before it. -/
def TimelyRun (errOther : ℤ) : Finalizer → List FinalizeEvent → Prop
  | _, [] => True
  | s, event :: events =>
    s.Timely event ∧ TimelyRun errOther ((s.step errOther event).getD s) events

def decidableTimelyRun (errOther : ℤ) :
    (s : Finalizer) → (events : List FinalizeEvent) → Decidable (TimelyRun errOther s events)
  | _, [] => instDecidableTrue
  | s, event :: events =>
    have := decidableTimelyRun errOther ((s.step errOther event).getD s) events
    inferInstanceAs (Decidable (s.Timely event ∧ _))

instance (events : List FinalizeEvent) : Decidable (TimelyRun errOther s events) :=
  decidableTimelyRun errOther s events

def Claimed : Prop :=
  s.state ≠ .notRequested ∧ s.state ≠ .requested

def ThreadSound (thread : ℕ) : FinalizePc → Prop
  | .mark | .returned => True
  | .load | .claim => s.state ≠ .notRequested
  | .check | .call => s.Claimed ∧ s.owner = some thread ∧ s.published = [] ∧ s.calls = []
  | .running | .publish _ => s.Claimed ∧ s.owner = some thread ∧ s.published = []
  | .lock result | .loadDone result _ | .finish result _ =>
    s.Claimed ∧ s.owner = some thread ∧ s.published = [result]
  | .setDone result _ seen =>
    s.Claimed ∧ s.owner = some thread ∧ s.published = [result] ∧ seen = .inProgress
  | .wait | .waitLock | .waitLoad | .sleep | .close => s.Claimed
  | .unlock seen => s.Claimed ∧ (seen = .inProgress ∨ seen = s.state)
  | .loadResult => s.state = .done
  | .disallow => s.state = .failedClosed

structure Sound : Prop where
  threads : ∀ thread, s.ThreadSound thread (s.pc thread)
  unclaimed : ¬s.Claimed → s.owner = none ∧ s.calls = [] ∧ s.published = []
  published : s.published = [] ∨ s.published = [s.result]
  done : s.state = .done → s.published ≠ []
  once : s.calls.length ≤ 1

/-- What timely steps keep: once the state is closed, the owner is not in front of the call. -/
structure InTime : Prop where
  calls : .failedClosed ∉ s.calls
  owner : s.state = .failedClosed → ∀ owner ∈ s.owner, s.pc owner ≠ .check ∧ s.pc owner ≠ .call
  returns : ∀ value state, (value, state) ∈ s.returns →
    value = errOther ∧ state = .failedClosed ∨ s.published = [value]

variable {s errOther} {thread : ℕ}

theorem sound_initial : initial.Sound := by
  constructor <;> simp [initial, ThreadSound, Claimed]

structure Leaves (s after : Finalizer) (thread : ℕ) : Prop where
  pc : ∀ other, other ≠ thread → after.pc other = s.pc other
  state : after.state = s.state ∨ Follows s.state after.state
  owner : s.Claimed → after.owner = s.owner
  record : s.owner ≠ some thread → after.calls = s.calls ∧ after.published = s.published

attribute [local grind] Follows
attribute [local grind =] goto return_ markDone Claimed

@[local grind =]
theorem goto_pc (pc : FinalizePc) (other : ℕ) :
    (s.goto thread pc).pc other = if other = thread then pc else s.pc other :=
  Function.update_apply ..

variable {succeeds : Bool} {answer : ℤ} {after : Finalizer}

theorem Sound.leaves (sound : s.Sound)
    (stepped : s.access errOther thread succeeds answer = some after) : s.Leaves after thread := by
  have here := sound.threads thread
  have unclaimed := sound.unclaimed
  unfold access at stepped
  cases position : s.pc thread <;> simp only [position, ThreadSound] at here stepped <;>
    constructor <;> grind

theorem ThreadSound.leaves {other : ℕ} (leaves : s.Leaves after thread) (different : other ≠ thread)
    (there : s.ThreadSound other (s.pc other)) : after.ThreadSound other (after.pc other) := by
  rw [leaves.pc other different]
  have state := leaves.state
  have owner := leaves.owner
  have record := leaves.record
  cases position : s.pc other <;> rw [position] at there <;>
    simp only [ThreadSound] at there ⊢ <;> grind

theorem Sound.access (sound : s.Sound)
    (stepped : s.access errOther thread succeeds answer = some after) : after.Sound := by
  have leaves := sound.leaves stepped
  have here := sound.threads thread
  have threads (there : after.ThreadSound thread (after.pc thread)) (other : ℕ) :
      after.ThreadSound other (after.pc other) := by
    by_cases same : other = thread
    · exact same ▸ there
    · exact (sound.threads other).leaves leaves same
  unfold Finalizer.access at stepped
  rcases sound with ⟨_, _, _, _, _⟩
  cases position : s.pc thread <;> simp only [position, ThreadSound] at here stepped <;>
    constructor <;> first | (apply threads; grind [ThreadSound]) | grind

theorem InTime.access (inTime : s.InTime errOther) (sound : s.Sound)
    (timely : s.Timely (.access thread succeeds answer))
    (stepped : s.access errOther thread succeeds answer = some after) :
    after.InTime errOther := by
  have here := sound.threads thread
  rcases sound with ⟨_, _, _, _, _⟩
  rcases inTime with ⟨_, _, _⟩
  unfold Finalizer.access at stepped
  cases position : s.pc thread with
  | close =>
    simp only [position, ThreadSound, Timely] at here stepped timely
    cases state : s.state <;> constructor <;> grind
  | _ =>
    simp only [position, ThreadSound] at here stepped
    constructor <;> grind

theorem Sound.step {event : FinalizeEvent} (sound : s.Sound)
    (stepped : s.step errOther event = some after) : after.Sound := by
  cases event with
  | allow =>
    cases stepped
    exact { sound with }
  | access => exact sound.access stepped

theorem InTime.step {event : FinalizeEvent} (inTime : s.InTime errOther) (sound : s.Sound)
    (timely : s.Timely event) (stepped : s.step errOther event = some after) :
    after.InTime errOther := by
  cases event with
  | allow =>
    cases stepped
    exact { inTime with }
  | access => exact inTime.access sound timely stepped

theorem inTime_run {events : List FinalizeEvent} (sound : s.Sound) (inTime : s.InTime errOther)
    (timely : TimelyRun errOther s events) :
    let after := events.foldl (fun s event => (s.step errOther event).getD s) s
    after.Sound ∧ after.InTime errOther := by
  induction events generalizing s with
  | nil => exact ⟨sound, inTime⟩
  | cons event events ih =>
    rcases timely with ⟨here, later⟩
    rw [List.foldl_cons]
    cases stepped : s.step errOther event with
    | none =>
      rw [stepped] at later
      exact ih sound inTime later
    | some =>
      rw [stepped] at later
      exact ih (sound.step stepped) (inTime.step sound here stepped) later

/-- In a run whose steps are timely, the finalizer is called once, in time, and with one result for
all callers. -/
theorem finalize_consistent (errOther : ℤ) (events : List FinalizeEvent)
    (timely : TimelyRun errOther initial events) : (run errOther events).Consistent errOther := by
  have kept : (run errOther events).Sound ∧ (run errOther events).InTime errOther :=
    inTime_run sound_initial (by constructor <;> simp [initial]) timely
  rcases kept with ⟨sound, inTime⟩
  refine ⟨?_, sound.once, inTime.calls, inTime.returns⟩
  intro event after stepped
  cases event with
  | allow =>
    cases stepped
    exact .inl rfl
  | access => exact (sound.leaves stepped).state

/-- The accesses of one thread, where the environment grants all of them. -/
def granted (thread count : ℕ) : List FinalizeEvent :=
  List.replicate count (.access thread true 0)

/-- A waiter gives up while the finalizer runs, and a third thread finds the state closed. -/
theorem finalize_consistent_threeCallers :
    let events := [.allow true] ++ granted 0 5 ++ granted 1 5 ++ [.access 1 false 0] ++
      granted 1 3 ++ [.access 0 true 7] ++ granted 0 4 ++ granted 2 2
    (run 16 events).Consistent 16 ∧ (run 16 events).calls = [.inProgress] ∧
      (run 16 events).returns = [(16, .failedClosed), (7, .failedClosed), (16, .failedClosed)] :=
  ⟨finalize_consistent 16 _ (by decide), by decide, by decide⟩

/-- The wait of the second thread ends early: before the owner calls the finalizer, or after it has
published the result. -/
theorem finalize_gaps :
    .failedClosed ∈ (run 16 ([.allow true] ++ granted 0 3 ++ granted 1 5 ++
      [.access 1 false 0] ++ granted 1 2 ++ granted 0 2)).calls ∧
    (16, .done) ∈ (run 16 ([.allow true] ++ granted 0 7 ++ granted 1 5 ++
      [.access 1 false 0] ++ granted 1 1 ++ granted 0 3 ++ granted 1 1)).returns := by
  decide

end Finalizer
end Peak.Mpi
