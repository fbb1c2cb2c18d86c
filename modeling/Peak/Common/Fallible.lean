import Mathlib.Data.List.Basic

/-!
# Computations that may fail

A computation meets a condition if every value it returns satisfies the condition and
every error it returns is a tolerated one.
-/

namespace Peak.Fallible

variable {Error α β : Type} {tolerated : Error → Prop}

def Meets (tolerated : Error → Prop) (computation : Except Error α) (post : α → Prop) : Prop :=
  match computation with
  | .ok value => post value
  | .error error => tolerated error

variable {computation : Except Error α} {post post' : α → Prop}

theorem meets_pure {value : α} (holds : post value) :
    Meets tolerated (pure value : Except Error α) post :=
  holds

theorem meets_throw {error : Error} (allowed : tolerated error) :
    Meets tolerated (throw error : Except Error α) post :=
  allowed

theorem Meets.bind {next : α → Except Error β} {post : β → Prop} {middle : α → Prop}
    (first : Meets tolerated computation middle)
    (second : ∀ value, middle value → Meets tolerated (next value) post) :
    Meets tolerated (computation >>= next) post := by
  cases computation with
  | ok value => exact second value first
  | error => exact first

theorem Meets.mono (meets : Meets tolerated computation post)
    (weaken : ∀ value, post value → post' value) : Meets tolerated computation post' := by
  cases computation with
  | ok value => exact weaken value meets
  | error => exact meets

theorem Meets.of_ok {value : α} (meets : Meets tolerated computation post)
    (returned : computation = .ok value) : post value := by
  rw [returned] at meets
  exact meets

theorem Meets.of_error {error : Error} (meets : Meets tolerated computation post)
    (failed : computation = .error error) : tolerated error := by
  rw [failed] at meets
  exact meets

theorem meets_ite {condition : Prop} [Decidable condition] {otherwise : Except Error α}
    (holds : condition → Meets tolerated computation post)
    (fails : ¬ condition → Meets tolerated otherwise post) :
    Meets tolerated (if condition then computation else otherwise) post := by
  by_cases isTrue : condition
  · rw [if_pos isTrue]
    exact holds isTrue
  · rw [if_neg isTrue]
    exact fails isTrue

theorem meets_foldlM {step : β → α → Except Error β} (invariant : List α → β → Prop) {start : β}
    (elements : List α) (initial : invariant [] start)
    (preserved : ∀ processed element later state, elements = processed ++ element :: later →
      invariant processed state →
      Meets tolerated (step state element) (invariant (processed ++ [element]))) :
    Meets tolerated (elements.foldlM step start) (invariant elements) := by
  -- the induction is on the elements that are left
  have rest : ∀ (left processed : List α) (state : β), elements = processed ++ left →
      invariant processed state →
      Meets tolerated (left.foldlM step state) (invariant elements) := by
    intro left
    induction left with
    | nil =>
      intro processed state split holds
      rw [split, List.append_nil]
      exact meets_pure holds
    | cons element left ih =>
      intro processed state split holds
      apply (preserved processed element left state split holds).bind
      intro next holds
      exact ih (processed ++ [element]) next (by simp [split]) holds
  exact rest elements [] start rfl initial

end Peak.Fallible
