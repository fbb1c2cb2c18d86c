import Mathlib.Data.List.Infix

/-!
# Bytes in transfer

A list that is written piece by piece and read piece by piece is known to the reader by a
first part.
-/

namespace Peak

open List

universe u v

variable {Item : Type u} {first second : List Item}

/-- One list is a prefix of the other. -/
def Aligned (first second : List Item) : Prop :=
  first <+: second ∨ second <+: first

theorem take_eq_of_initial {count : ℕ} (initial : first <+: second)
    (enough : count ≤ first.length) : first.take count = second.take count := by
  rcases initial with ⟨_, rfl⟩
  exact (take_append_of_le_length enough).symm

namespace Aligned

theorem take_eq {count : ℕ} (aligned : Aligned first second) (firstEnough : count ≤ first.length)
    (secondEnough : count ≤ second.length) : first.take count = second.take count := by
  rcases aligned with initial | initial
  · exact take_eq_of_initial initial firstEnough
  · exact (take_eq_of_initial initial secondEnough).symm

theorem of_initial {part : List Item} (aligned : Aligned first second) (initial : part <+: first) :
    Aligned part second := by
  rcases aligned with whole | whole
  · exact .inl (initial.trans whole)
  · exact prefix_or_prefix_of_prefix initial whole

end Aligned

theorem take_drop_flatMap {Value : Type v} {encode : Value → List Item} {size : ℕ}
    (sized : ∀ value, (encode value).length = size) {values : List Value} {index : ℕ}
    {value : Value} (atIndex : values[index]? = some value) :
    ((values.flatMap encode).drop (index * size)).take size = encode value := by
  induction values generalizing index with
  | nil => simp at atIndex
  | cons head _ ih =>
    rw [flatMap_cons]
    cases index with
    | zero =>
      rw [getElem?_cons_zero, Option.some.injEq] at atIndex
      subst atIndex
      rw [Nat.zero_mul, drop_zero, ← sized head, take_left]
    | succ =>
      rw [Nat.succ_mul, Nat.add_comm, ← drop_drop, ← sized head, drop_left, sized head]
      exact ih atIndex

end Peak
