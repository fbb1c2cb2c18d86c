import Mathlib.Data.List.Induction

/-!
# Deterministic objects and their runs

A component takes a state and a call to a reply and a new state.
-/

namespace Peak

universe u v w

structure Machine (State : Type u) (Call : Type v) (Reply : Type w) where
  call : State → Call → Reply × State

namespace Machine

variable {State : Type u} {Call : Type v} {Reply : Type w} (machine : Machine State Call Reply)

def next (state : State) (call : Call) : State :=
  (machine.call state call).2

def reply (state : State) (call : Call) : Reply :=
  (machine.call state call).1

def run (state : State) (calls : List Call) : State :=
  calls.foldl machine.next state

variable (state : State)

@[simp]
theorem run_nil : machine.run state [] = state := rfl

@[simp]
theorem run_cons (call : Call) (calls : List Call) :
    machine.run state (call :: calls) = machine.run (machine.next state call) calls := rfl

@[simp]
theorem run_append (earlier later : List Call) :
    machine.run state (earlier ++ later) = machine.run (machine.run state earlier) later := by
  simp [run]

def replies (state : State) : List Call → List Reply
  | [] => []
  | call :: calls => machine.reply state call :: replies (machine.next state call) calls

@[simp]
theorem replies_append (earlier later : List Call) :
    machine.replies state (earlier ++ later) =
      machine.replies state earlier ++ machine.replies (machine.run state earlier) later := by
  induction earlier generalizing state with
  | nil => rfl
  | cons _ _ ih => simp [replies, ih]

@[simp]
theorem length_replies (calls : List Call) :
    (machine.replies state calls).length = calls.length := by
  induction calls generalizing state with
  | nil => rfl
  | cons _ _ ih => simp [replies, ih]

variable {machine}

theorem mem_replies {state : State} {calls : List Call} {answer : Reply}
    (answerMem : answer ∈ machine.replies state calls) :
    ∃ earlier call later, calls = earlier ++ call :: later ∧
      machine.reply (machine.run state earlier) call = answer := by
  induction calls generalizing state with
  | nil => cases answerMem
  | cons call calls ih =>
    rcases List.mem_cons.mp answerMem with rfl | inRest
    · exact ⟨[], call, calls, rfl, rfl⟩
    · rcases ih inRest with ⟨earlier, answered, later, rfl, answerEq⟩
      exact ⟨call :: earlier, answered, later, rfl, answerEq⟩

theorem run_preserves {motive : State → Prop} {calls : List Call} {state : State}
    (step : ∀ current, ∀ call ∈ calls, motive current → motive (machine.next current call))
    (holds : motive state) : motive (machine.run state calls) := by
  induction calls generalizing state with
  | nil => exact holds
  | cons call _ ih =>
    apply ih
    · intro current later laterMem
      exact step current later (List.mem_cons_of_mem _ laterMem)
    · exact step state call List.mem_cons_self holds

end Machine

end Peak
