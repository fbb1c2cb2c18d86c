import Mathlib.Data.Nat.ModEq
import Mathlib.Data.List.Basic

/-!
# Live windows of circular buffers

The queued elements are in the `count` cells following `head`, modulo the capacity, oldest first.
-/

namespace Peak

open List Function

universe u

variable {α : Type u} (cells : ℕ → α)

def circularWindow (cells : ℕ → α) (head count capacity : ℕ) : List α :=
  (range count).map fun offset => cells ((head + offset) % capacity)

@[simp]
theorem circularWindow_zero (head capacity : ℕ) : circularWindow cells head 0 capacity = [] := rfl

@[simp]
theorem length_circularWindow (head count capacity : ℕ) :
    (circularWindow cells head count capacity).length = count := by
  simp [circularWindow]

variable {head capacity : ℕ}

theorem circularWindow_offset_ne {offset tail : ℕ} (before : offset < tail) (fits : tail < capacity)
    :
    (head + offset) % capacity ≠ (head + tail) % capacity := by
  intro same
  have congruent : offset ≡ tail [MOD capacity] := Nat.ModEq.add_left_cancel' head same
  have offsetLt : offset < capacity := before.trans fits
  have equal : offset = tail := Nat.ModEq.eq_of_lt_of_lt congruent offsetLt fits
  omega

theorem circularWindow_push {count : ℕ} (element : α) (fits : count < capacity) :
    circularWindow (update cells ((head + count) % capacity) element)
        head (count + 1) capacity =
      circularWindow cells head count capacity ++ [element] := by
  simp only [circularWindow, range_succ, map_append, map_cons, update_self]
  congr 1
  apply map_congr_left
  intro offset offsetMem
  have before : offset < count := mem_range.mp offsetMem
  rw [update_of_ne (circularWindow_offset_ne before fits)]

theorem circularWindow_pop {count : ℕ} (headLt : head < capacity)
    (nonempty : count ≠ 0) :
    circularWindow cells head count capacity =
      cells head :: circularWindow cells ((head + 1) % capacity) (count - 1) capacity := by
  rcases count with _ | count
  · exact absurd rfl nonempty
  · simp only [circularWindow, range_succ_eq_map, map_cons, map_map,
      Nat.add_zero, Nat.mod_eq_of_lt headLt]
    congr 1
    apply map_congr_left
    intro offset _
    simp only [comp_apply]
    rw [Nat.mod_add_mod]
    congr 2
    omega

end Peak
