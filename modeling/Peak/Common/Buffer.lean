import Peak.Common.Fallible

/-!
# Buffers of a fixed capacity

A buffer is filled from its start. A write behind its end is an error.
-/

namespace Peak

structure Buffer (α : Type) where
  capacity : ℕ
  items : List α
  fits : items.length ≤ capacity
deriving DecidableEq

namespace Buffer

variable {Error α : Type} (overflow : Error)

def allocate (capacity : ℕ) : Buffer α where
  capacity := capacity
  items := []
  fits := Nat.zero_le capacity

def write (buffer : Buffer α) (new : List α) : Except Error (Buffer α) :=
  if room : (buffer.items ++ new).length ≤ buffer.capacity then
    .ok ⟨buffer.capacity, buffer.items ++ new, room⟩
  else
    .error overflow

/-- A mark is written behind the items, where the next item will replace it. -/
def terminate (buffer : Buffer α) : Except Error (Buffer α) :=
  if buffer.items.length < buffer.capacity then .ok buffer else .error overflow

def resize (buffer : Buffer α) (capacity : ℕ) : Buffer α where
  capacity := capacity
  items := buffer.items.take capacity
  fits := List.length_take_le capacity buffer.items

variable {overflow} {tolerated : Error → Prop} {buffer : Buffer α} {new : List α}

open Fallible

theorem meets_write (room : buffer.items.length + new.length ≤ buffer.capacity) :
    Meets tolerated (buffer.write overflow new) fun after =>
      after.capacity = buffer.capacity ∧ after.items = buffer.items ++ new := by
  rw [write, dif_pos (by rwa [List.length_append])]
  exact ⟨rfl, rfl⟩

theorem meets_terminate (room : buffer.items.length < buffer.capacity) :
    Meets tolerated (buffer.terminate overflow) (· = buffer) := by
  rw [terminate, if_pos room]
  rfl

theorem meets_fill {capacity : ℕ} {β : Type} {next : Buffer α → Except Error β} {post : β → Prop}
    (room : new.length < capacity)
    (rest : ∀ filled, filled.items = new → Meets tolerated (next filled) post) :
    Meets tolerated (do
      let written ← (allocate capacity).write overflow new
      let filled ← written.terminate overflow
      next filled) post := by
  apply (meets_write (by simpa [allocate] using Nat.le_of_lt room)).bind
  rintro written ⟨isCapacity, items⟩
  apply (meets_terminate (by rw [isCapacity, items]; exact room)).bind
  rintro filled rfl
  exact rest filled items

end Buffer

end Peak
