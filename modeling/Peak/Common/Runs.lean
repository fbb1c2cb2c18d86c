import Mathlib.Data.List.Induction

/-!
# Runs of a transition relation

A system whose steps may be blocked, or may have several outcomes, is presented as a
relation between a state, the event that takes place and the next state.
-/

namespace Peak

open List Option

universe u v

/-- `Runs step initial history state`: the events of `history` lead to `state`. -/
inductive Runs {State : Type u} {Event : Type v} (step : State → Event → State → Prop)
    (initial : State) : List Event → State → Prop
  | start : Runs step initial [] initial
  | snoc {history : List Event} {event : Event} {before after : State} :
      Runs step initial history before → step before event after →
      Runs step initial (history ++ [event]) after

namespace Runs

variable {State : Type u} {Event : Type v} {step : State → Event → State → Prop} {initial : State}

variable {history : List Event} {state : State}

/-- What every step keeps holds along a run. -/
theorem preserves {motive : State → Prop} (start : motive initial)
    (preserved : ∀ {before event after}, motive before → step before event after → motive after)
    (run : Runs step initial history state) : motive state := by
  induction run with
  | start => exact start
  | snoc _ last ih => exact preserved ih last

theorem last_step {event : Event} {after : State}
    (run : Runs step initial (history ++ [event]) after) :
    ∃ before, Runs step initial history before ∧ step before event after := by
  generalize whole : history ++ [event] = events at run
  cases run with
  | start => simp at whole
  | snoc earlier last =>
    rcases append_inj' whole rfl with ⟨rfl, same⟩
    rw [singleton_inj] at same
    subst same
    exact ⟨_, earlier, last⟩

section

variable (unique : ∀ before event after other, step before event after →
  step before event other → after = other)

include unique

theorem functional {other : State}
    (run : Runs step initial history state) (again : Runs step initial history other) :
    state = other := by
  induction run generalizing other with
  | start =>
    generalize empty : ([] : List Event) = events at again
    cases again with
    | start => rfl
    | snoc => simp at empty
  | snoc _ last ih =>
    rcases again.last_step with ⟨_, earlier, otherLast⟩
    rw [← ih earlier] at otherLast
    exact unique _ _ _ _ last otherLast

theorem persists {motive : State → Prop}
    (preserved : ∀ {history before event after}, Runs step initial history before →
      motive before → step before event after → motive after) {later : List Event} {final : State}
    (run : Runs step initial history state) (longer : Runs step initial (history ++ later) final)
    (holds : motive state) : motive final := by
  induction later using reverseRecOn generalizing final with
  | nil =>
    rw [append_nil] at longer
    rw [← functional unique run longer]
    exact holds
  | append_singleton _ _ ih =>
    rw [← append_assoc] at longer
    rcases longer.last_step with ⟨_, earlier, last⟩
    exact preserved earlier (ih earlier) last

end

variable {next : State → Event → Option State}

theorem foldlM_concat {event : Event}
    (folded : (history ++ [event]).foldlM next initial = some state) :
    ∃ before, history.foldlM next initial = some before ∧ next before event = some state := by
  rw [foldlM_append, bind_eq_bind, bind_eq_some_iff] at folded
  rcases folded with ⟨before, earlier, last⟩
  rw [foldlM_cons, bind_eq_bind, bind_eq_some_iff] at last
  rcases last with ⟨_, stepped, ended⟩
  rw [foldlM_nil, Option.pure_def, some.injEq] at ended
  subst ended
  exact ⟨before, earlier, stepped⟩

theorem of_foldlM (folded : history.foldlM next initial = some state) :
    Runs (fun before event after => next before event = some after) initial history state := by
  induction history using reverseRecOn generalizing state with
  | nil =>
    rw [foldlM_nil, Option.pure_def, some.injEq] at folded
    subst folded
    exact .start
  | append_singleton _ _ ih =>
    rcases foldlM_concat folded with ⟨_, earlier, stepped⟩
    exact .snoc (ih earlier) stepped

end Runs

theorem foldlM_related {Left Right Event : Type*} {left : Left → Event → Option Left}
    {right : Right → Event → Option Right} {related : Left → Right → Prop}
    (preserved : ∀ {before other event after otherAfter}, related before other →
      left before event = some after → right other event = some otherAfter →
      related after otherAfter)
    {history : List Event} {initial final : Left} {otherInitial otherFinal : Right}
    (start : related initial otherInitial) (run : history.foldlM left initial = some final)
    (otherRun : history.foldlM right otherInitial = some otherFinal) :
    related final otherFinal := by
  induction history generalizing initial otherInitial with
  | nil =>
    cases run
    cases otherRun
    exact start
  | cons _ _ ih =>
    rw [foldlM_cons, bind_eq_bind, bind_eq_some_iff] at run otherRun
    rcases run with ⟨_, stepped, run⟩
    rcases otherRun with ⟨_, otherStepped, otherRun⟩
    exact ih (preserved start stepped otherStepped) run otherRun

end Peak
