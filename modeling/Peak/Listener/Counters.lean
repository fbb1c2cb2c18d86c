import Mathlib.Algebra.Order.Ring.Rat

/-!
# The slot of a thread

The listener of a hook has one slot for each thread.
-/

namespace Peak

/-- The counters of a hook in the slot of a thread. `num_calls` is a word; the number is its value
for fewer than `2 ^ 64` calls. -/
structure SlotCounters where
  numCalls : ℕ
  totalTime : ℚ
  exclusiveTime : ℚ
  maxTime : ℚ
  minTime : ℚ

namespace SlotCounters

def zero : SlotCounters := ⟨0, 0, 0, 0, 0⟩

def addDuration (slot : SlotCounters) (duration exclusive : ℚ) : SlotCounters :=
  { slot with
    maxTime := if duration > slot.maxTime then duration else slot.maxTime
    minTime := if duration < slot.minTime ∨ slot.numCalls = 1 then duration else slot.minTime
    totalTime := slot.totalTime + duration
    exclusiveTime := slot.exclusiveTime + exclusive }

/-- `num_calls_increment`. -/
def countCall (slot : SlotCounters) : SlotCounters :=
  { slot with numCalls := slot.numCalls + 1 }

end SlotCounters

end Peak
