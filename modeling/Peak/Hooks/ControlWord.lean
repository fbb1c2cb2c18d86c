import Mathlib.Data.List.Induction
import Peak.Hooks.Batch

/-!
# The control word of a listener

The state of a hook, a request to detach it, the mark of an initial crossing and a generation share
one atomic word of `src/general_listener.c`. Callbacks, publications of states and the taking of
requests are loads and compare-exchanges of this word, in any order. Only a publication changes the
generation, so that a compare-exchange with an old snapshot fails, unless the 58 bits of the
generation have wrapped around.
-/

namespace Peak

/-- `callback_hook_control`. Each part has bits of its own, 58 of them for the generation. -/
structure HookControl where
  generation : ℕ
  crossing : Bool
  request : Bool
  state : HookState
deriving DecidableEq

namespace HookControl

/-- `peak_general_listener_first_attached_generation_is_adjacent`. -/
def Adjacent (unresolved attached : HookControl) : Prop :=
  unresolved.state = .unresolved ∧ attached.state = .attached ∧
    attached.generation = (unresolved.generation + 1) % 2 ^ 58

instance (unresolved attached : HookControl) : Decidable (Adjacent unresolved attached) :=
  inferInstanceAs (Decidable (_ ∧ _ ∧ _))

/-- `carried_initial_crossing`. -/
def carries (control : HookControl) (state : HookState) : Bool :=
  state = .attached && control.state = .unresolved && control.crossing

def publish (control : HookControl) (state : HookState) : HookControl :=
  ⟨(control.generation + 1) % 2 ^ 58, false, control.carries state, state⟩

end HookControl

/-- The next compare-exchange of a thread, with the snapshot that it expects. -/
inductive ControlPc where
  | idle
  | crossing (observed : HookControl) (unresolved : observed.state = .unresolved)
  | request (observed seen : HookControl) (unset : seen.state = .attached ∧ seen.request = false)
      (own : observed = seen ∨ observed.Adjacent seen)
  | publish (state : HookState) (seen : HookControl)
  | take (seen : HookControl) (requested : seen.state = .attached ∧ seen.request)

inductive ControlEvent where
  /-- A callback reaches the detach count, and loads the word. -/
  | callback (thread : ℕ)
  | publish (thread : ℕ) (state : HookState)
  | take (thread : ℕ)
  | exchange (thread : ℕ) (spurious : Bool)

/-- The word and the threads, with the numbers of publications and of requests set and taken. -/
structure ControlSystem where
  control : HookControl
  pc : ℕ → ControlPc
  publications : ℕ
  requests : ℕ
  taken : ℕ

namespace ControlSystem

def initial : ControlSystem :=
  ⟨⟨0, false, false, .unresolved⟩, fun _ => .idle, 0, 0, 0⟩

variable (s : ControlSystem)

def goto (thread : ℕ) (pc : ControlPc) : ControlSystem :=
  { s with pc := Function.update s.pc thread pc }

/-- `peak_general_listener_try_publish_detach_count_request_snapshot`, up to its exchange. -/
def tryRequest (thread : ℕ) (observed : HookControl)
    (own : observed = s.control ∨ observed.Adjacent s.control) : ControlSystem :=
  if unset : s.control.state = .attached ∧ s.control.request = false then
    s.goto thread (.request observed s.control unset own)
  else s.goto thread .idle

/-- `peak_general_listener_try_publish_detach_count_request`, up to its first exchange. -/
def callback (thread : ℕ) : ControlSystem :=
  if unresolved : s.control.state = .unresolved then
    if s.control.request || s.control.crossing then s
    else s.goto thread (.crossing s.control unresolved)
  else s.tryRequest thread s.control (.inl rfl)

/-- A failed exchange of a callback is repeated once if the hook was attached, the one of a
publication until it succeeds. -/
def exchange (thread : ℕ) (spurious : Bool) : ControlSystem :=
  match s.pc thread with
  | .idle => s
  | .crossing observed _ =>
    if s.control = observed then
      { s with control.crossing := true }.goto thread .idle
    else if adjacent : observed.Adjacent s.control then
      s.tryRequest thread observed (.inr adjacent)
    else s.goto thread .idle
  | .request _ seen _ _ =>
    if s.control = seen then
      { s with control.request := true, requests := s.requests + 1 }.goto thread .idle
    else s.goto thread .idle
  | .publish state seen =>
    if s.control = seen ∧ !spurious then
      { s with
        control := seen.publish state
        publications := s.publications + 1
        requests := s.requests + (seen.carries state).toNat }.goto thread .idle
    else s.goto thread (.publish state s.control)
  | .take seen _ =>
    if s.control = seen then
      { s with control.request := false, taken := s.taken + 1 }.goto thread .idle
    else s.goto thread .idle

/-- A thread starts an operation only when it is idle. -/
def step : ControlEvent → ControlSystem
  | .exchange thread spurious => s.exchange thread spurious
  | .callback thread =>
    match s.pc thread with
    | .idle => s.callback thread
    | _ => s
  | .publish thread state =>
    match s.pc thread with
    | .idle => s.goto thread (.publish state s.control)
    | _ => s
  | .take thread =>
    match s.pc thread with
    | .idle =>
      if requested : s.control.state = .attached ∧ s.control.request = true then
        s.goto thread (.take s.control requested)
      else s
    | _ => s

def run (events : List ControlEvent) : ControlSystem :=
  events.foldl step s

theorem run_append (earlier later : List ControlEvent) :
    s.run (earlier ++ later) = (s.run earlier).run later :=
  List.foldl_append

variable {s} {after : ControlSystem} {event : ControlEvent} {thread : ℕ}

/-- The callback that sets a request has observed the generation of the request, or the
unresolved generation before it. -/
def Sets (s : ControlSystem) (event : ControlEvent) : Prop :=
  ∃ thread spurious observed unset own, event = .exchange thread spurious ∧
    s.pc thread = .request observed s.control unset own ∧
    (observed.generation = s.control.generation ∨ observed.Adjacent s.control)

inductive Change (s : ControlSystem) (event : ControlEvent) : ControlSystem → Prop
  | same (pc : ℕ → ControlPc) : Change s event { s with pc }
  | crossing (pc : ℕ → ControlPc) (unresolved : s.control.state = .unresolved) :
      Change s event { s with control.crossing := true, pc }
  | request (pc : ℕ → ControlPc) (unset : s.control.state = .attached ∧ s.control.request = false)
      (sets : s.Sets event) :
      Change s event { s with control.request := true, pc, requests := s.requests + 1 }
  | publish (pc : ℕ → ControlPc) (state : HookState) :
      Change s event
        { s with
          control := s.control.publish state
          pc
          publications := s.publications + 1
          requests := s.requests + (s.control.carries state).toNat }
  | take (pc : ℕ → ControlPc) (requested : s.control.request) :
      Change s event { s with control.request := false, pc, taken := s.taken + 1 }

theorem change_tryRequest {observed : HookControl}
    (own : observed = s.control ∨ observed.Adjacent s.control) :
    Change s event (s.tryRequest thread observed own) := by
  unfold tryRequest
  split <;> exact .same _

theorem change_exchange (spurious : Bool) :
    Change s (.exchange thread spurious) (s.exchange thread spurious) := by
  unfold exchange
  split
  next => exact .same _
  next observed unresolved _ =>
    split
    next same => exact .crossing _ (same ▸ unresolved)
    next =>
      split
      · exact change_tryRequest _
      · exact .same _
  next observed seen unset own atPc =>
    split
    next same =>
      subst same
      refine .request _ unset ⟨thread, spurious, observed, unset, own, rfl, atPc, ?_⟩
      exact own.imp_left (congrArg HookControl.generation)
    next => exact .same _
  next =>
    split
    next same =>
      rw [← same.1]
      exact .publish _ _
    next => exact .same _
  next seen requested _ =>
    split
    next same => exact .take _ (same ▸ requested.2)
    next => exact .same _

theorem change_step (s : ControlSystem) (event : ControlEvent) : Change s event (s.step event) := by
  cases event with
  | exchange _ spurious => exact change_exchange spurious
  | callback =>
    simp only [step, callback]
    split
    · split
      · split <;> exact .same _
      · exact change_tryRequest _
    · exact .same _
  | publish =>
    simp only [step]
    split <;> exact .same _
  | take =>
    simp only [step]
    split
    · split <;> exact .same _
    · exact .same _

/-- A request is set while the hook is attached, a crossing while it is unresolved. No request is
taken twice. -/
structure Consistent (s : ControlSystem) : Prop where
  generation : s.control.generation = s.publications % 2 ^ 58
  request : s.control.request → s.control.state = .attached
  crossing : s.control.crossing → s.control.state = .unresolved
  taken : s.taken + s.control.request.toNat ≤ s.requests

theorem Consistent.change (consistent : s.Consistent) (change : Change s event after) :
    after.Consistent := by
  rcases consistent with ⟨generation, request, crossing, taken⟩
  cases change with
  | same => exact ⟨generation, request, crossing, taken⟩
  | crossing _ unresolved => exact ⟨generation, request, fun _ => unresolved, taken⟩
  | request _ unset =>
    refine ⟨generation, fun _ => unset.1, crossing, ?_⟩
    simp only [Bool.toNat_true] at taken ⊢
    omega
  | publish =>
    refine ⟨?_, ?_, nofun, ?_⟩
    · simp only [HookControl.publish]
      omega
    · simp only [HookControl.publish, HookControl.carries]
      grind
    · simp only [HookControl.publish]
      omega
  | take _ requested =>
    refine ⟨generation, nofun, crossing, ?_⟩
    simp only [requested, Bool.toNat_false, Bool.toNat_true] at taken ⊢
    omega

theorem consistent_run (events : List ControlEvent) : (initial.run events).Consistent := by
  induction events using List.reverseRecOn with
  | nil => exact ⟨rfl, nofun, nofun, Nat.le_refl _⟩
  | append_singleton _ event ih =>
    rw [run_append]
    exact ih.change (change_step _ event)

theorem crossing_run (crossing : s.control.crossing) (later : List ControlEvent) :
    s.publications < (s.run later).publications ∨
      (s.run later).publications = s.publications ∧ (s.run later).control.crossing := by
  induction later using List.reverseRecOn with
  | nil => exact .inr ⟨rfl, crossing⟩
  | append_singleton later event =>
    rw [run_append]
    have change : Change (s.run later) event (run (s.run later) [event]) := change_step _ event
    generalize run (s.run later) [event] = next at change ⊢
    cases change <;> grind

/-- What a step may do to the word, as long as its generation does not wrap around. -/
structure SafeStep (s : ControlSystem) (event : ControlEvent) (after : ControlSystem) : Prop where
  generation : after.publications = s.publications ∧
      after.control.generation = s.control.generation ∨
    after.publications = s.publications + 1 ∧ after.control.generation = s.control.generation + 1
  attached : after.control.request → after.control.state = .attached
  /-- A request is set by a callback of its generation, or carried from the one before. -/
  requested : s.control.request = false → after.control.request →
    after.publications = s.publications ∧ s.Sets event ∨
    after.publications = s.publications + 1 ∧ s.control.state = .unresolved ∧
      s.control.crossing
  taken : after.taken = s.taken ∨
    after.taken = s.taken + 1 ∧ s.control.request ∧ after.control.request = false
  balance : after.taken + after.control.request.toNat ≤ after.requests

theorem Consistent.safeStep (consistent : s.Consistent) (change : Change s event after)
    (few : after.publications < 2 ^ 58) : SafeStep s event after := by
  have later := consistent.change change
  refine ⟨?_, later.request, ?_, ?_, later.taken⟩
  · have least : s.publications ≤ after.publications := by cases change <;> simp
    rw [later.generation, consistent.generation, Nat.mod_eq_of_lt few,
      Nat.mod_eq_of_lt (least.trans_lt few)]
    cases change <;> simp
  · intro unset set
    cases change with
    | same | crossing | take => simp_all
    | request _ _ sets => exact .inl ⟨rfl, sets⟩
    | publish =>
      simp only [HookControl.publish, HookControl.carries, Bool.and_eq_true,
        decide_eq_true_eq] at set
      exact .inr ⟨rfl, set.1.2, set.2⟩
  · cases change with
    | take _ requested => exact .inr ⟨rfl, requested, rfl⟩
    | same | crossing | request | publish => exact .inl rfl

/-- Requests are set in the right generation and taken once, and a crossing of the unresolved hook
becomes a request of the next generation, if this is attached. -/
theorem requests_follow_generations (events : List ControlEvent) (event : ControlEvent)
    (few : ((initial.run events).step event).publications < 2 ^ 58) :
    SafeStep (initial.run events) event ((initial.run events).step event) ∧
      ∀ earlier later, events = earlier ++ later →
        (initial.run earlier).control.crossing = true →
        (initial.run events).publications = (initial.run earlier).publications →
        ((initial.run events).step event).publications = (initial.run earlier).publications + 1 →
        ((initial.run events).step event).control.state = .attached →
        ((initial.run events).step event).control.request = true := by
  have consistent := consistent_run events
  have change := change_step (initial.run events) event
  refine ⟨consistent.safeStep change few, ?_⟩
  rintro earlier later rfl crossing quiet published attached
  rw [← quiet] at published
  rw [run_append] at quiet consistent
  have kept := ((crossing_run crossing later).resolve_left quiet.not_gt).2
  have unresolved := consistent.crossing kept
  rw [← run_append] at kept unresolved
  generalize step _ event = after at change published attached ⊢
  cases change with
  | publish =>
    simp only [HookControl.publish] at attached
    simp [HookControl.publish, HookControl.carries, attached, unresolved, kept]
  | same | crossing | request | take => simp at published

/-- A callback crosses the count before the hook is attached. -/
theorem requests_follow_generations_crossing :
    ((initial.run [.callback 0, .exchange 0 false, .publish 1 .attached]).step
      (.exchange 1 false)).control.request = true :=
  (requests_follow_generations _ _ (by decide)).2 [.callback 0, .exchange 0 false]
    [.publish 1 .attached] rfl (by decide) (by decide) (by decide) (by decide)

theorem exists_publications (count : ℕ) : ∃ events,
    (initial.run events).publications = count ∧ (initial.run events).pc 0 = .idle := by
  induction count with
  | zero => exact ⟨[], rfl, rfl⟩
  | succ _ ih =>
    rcases ih with ⟨events, published, idle⟩
    refine ⟨events ++ [.publish 0 .attached, .exchange 0 false], ?_⟩
    rw [run_append]
    generalize initial.run events = s at published idle ⊢
    simp [run, step, exchange, goto, idle, published]

/-- After `2 ^ 58` publications the generation is zero again. A crossing is lost when the next state
published is not the attached one. -/
theorem generation_wraps_and_crossing_lost :
    (∃ events, (initial.run events).publications = 2 ^ 58 ∧
      (initial.run events).control.generation = 0) ∧
    (initial.run [.callback 0, .exchange 0 false]).control.crossing = true ∧
    (initial.run [.callback 0, .exchange 0 false, .publish 1 .shutdown, .exchange 1 false,
      .publish 1 .attached, .exchange 1 false]).control = ⟨2, false, false, .attached⟩ := by
  refine ⟨?_, by decide, by decide⟩
  rcases exists_publications (2 ^ 58) with ⟨events, published, _⟩
  exact ⟨events, published, by rw [(consistent_run events).generation, published]; rfl⟩

end ControlSystem

end Peak
