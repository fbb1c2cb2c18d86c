import Mathlib.Data.List.Nodup

/-!
# Stacks linked through their elements

Every element stores the element below it, and the head of the stack is stored apart.
An element that is on no stack stores anything.
-/

namespace Peak.LinkedStack

/-- The links from the head run along the list. -/
def Linked (below : ℕ → Option ℕ) : Option ℕ → List ℕ → Prop
  | head, [] => head = none
  | head, top :: rest => head = some top ∧ Linked below (below top) rest

variable {below other : ℕ → Option ℕ} {head : Option ℕ} {stack : List ℕ} {element : ℕ}

theorem Linked.congr (linked : Linked below head stack)
    (same : ∀ element ∈ stack, other element = below element) : Linked other head stack := by
  induction stack generalizing head with
  | nil => exact linked
  | cons _ _ ih =>
    rw [List.forall_mem_cons] at same
    refine ⟨linked.1, ?_⟩
    rw [same.1]
    exact ih linked.2 same.2

theorem Linked.update (linked : Linked below head stack) (absent : element ∉ stack)
    (value : Option ℕ) : Linked (Function.update below element value) head stack := by
  apply linked.congr
  intro member isMember
  apply Function.update_of_ne
  rintro rfl
  exact absent isMember

theorem Linked.push (linked : Linked below head stack) (absent : element ∉ stack) :
    Linked (Function.update below element head) (some element) (element :: stack) := by
  refine ⟨rfl, ?_⟩
  rw [Function.update_self]
  exact linked.update absent head

end Peak.LinkedStack
