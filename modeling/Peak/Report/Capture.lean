import Mathlib.Tactic.Linarith
import Peak.Listener.Counters

/-!
# Capturing the statistics of a hook

At the end of a run every rank folds the statistics of the retired threads and of the active slots
of each hook into one row of its report. Times are exact rationals. The slots of a hook that was
never resolved are not read.
-/

namespace Peak

def dblMax : ℚ := 2 ^ 1024 - 2 ^ 971

def fltMax : ℚ := 2 ^ 128 - 2 ^ 104

structure SlotStats where
  numCalls : ℕ
  totalTime : ℚ
  exclusiveTime : ℚ
  maxTime : ℚ
  minTime : ℚ
  totalTime_range : 0 ≤ totalTime ∧ totalTime ≤ dblMax
  exclusiveTime_nonneg : 0 ≤ exclusiveTime
  maxTime_range : 0 ≤ maxTime ∧ maxTime ≤ fltMax
  minTime_range : 0 ≤ minTime ∧ minTime ≤ fltMax

def SlotStats.counters (slot : SlotStats) : SlotCounters :=
  ⟨slot.numCalls, slot.totalTime, slot.exclusiveTime, slot.maxTime, slot.minTime⟩

structure HookStats where
  numCalls : ℕ
  totalTime : ℚ
  maxTotalTime : ℚ
  minTotalTime : ℚ
  exclusiveTime : ℚ
  maxTime : ℚ
  minTime : ℚ
  threadCount : ℕ

namespace HookStats

def zero : HookStats := ⟨0, 0, 0, 0, 0, 0, 0, 0⟩

/-- The part of `retire_listener_slot` that folds the slot into the retired statistics; the thread
count stops at `G_MAXULONG`. -/
def retireCounters (retired : HookStats) (slot : SlotCounters) : HookStats :=
  if slot.numCalls ≠ 0 then
    let threadCount :=
      if retired.threadCount ≠ 2 ^ 64 - 1 then retired.threadCount + 1 else retired.threadCount
    { numCalls := retired.numCalls + slot.numCalls
      threadCount := threadCount
      totalTime := retired.totalTime + slot.totalTime
      exclusiveTime := retired.exclusiveTime + slot.exclusiveTime
      maxTotalTime :=
        if slot.totalTime > retired.maxTotalTime then slot.totalTime else retired.maxTotalTime
      minTotalTime :=
        if slot.totalTime < retired.minTotalTime ∨ threadCount = 1 then
          slot.totalTime
        else
          retired.minTotalTime
      maxTime := if slot.maxTime > retired.maxTime then slot.maxTime else retired.maxTime
      minTime :=
        if slot.minTime < retired.minTime ∨ threadCount = 1 then
          slot.minTime
        else
          retired.minTime }
  else
    retired

def retireListenerSlot (retired : HookStats) (slot : SlotStats) : HookStats :=
  retired.retireCounters slot.counters

def addCounters (sums : HookStats) (slot : SlotCounters) : HookStats :=
  let sums := { sums with
    numCalls := sums.numCalls + slot.numCalls
    totalTime := sums.totalTime + slot.totalTime
    exclusiveTime := sums.exclusiveTime + slot.exclusiveTime }
  if slot.numCalls ≠ 0 then
    let threadCount := sums.threadCount + 1
    { sums with
      threadCount := threadCount
      maxTotalTime :=
        if slot.totalTime > sums.maxTotalTime then slot.totalTime else sums.maxTotalTime
      minTotalTime :=
        if slot.totalTime < sums.minTotalTime ∨ threadCount = 1 then
          slot.totalTime
        else
          sums.minTotalTime
      maxTime := if slot.maxTime > sums.maxTime then slot.maxTime else sums.maxTime
      minTime :=
        if slot.minTime < sums.minTime ∨ threadCount = 1 then slot.minTime else sums.minTime }
  else
    sums

def addSlot (sums : HookStats) (slot : SlotStats) : HookStats :=
  sums.addCounters slot.counters

def markUncalled (sums : HookStats) : HookStats :=
  if sums.threadCount = 0 then
    { sums with minTotalTime := dblMax, minTime := fltMax }
  else
    sums

end HookStats

/-- The state of one hook on one rank. -/
structure HookListener where
  address : Option ℕ
  retired : List SlotStats
  slots : List SlotStats
  detached : Bool
  reattached : Bool
  revisited : Bool
  reattachRequestCalls : Option ℕ

structure HookReport where
  stats : HookStats
  instrumented : Bool
  detached : Bool
  reattached : Bool
  revisited : Bool

namespace HookListener

/-- The rows start zeroed, and only resolved hooks are read. -/
def captureStats (listener : HookListener) : HookStats :=
  if listener.address.isSome then
    (listener.slots.foldl HookStats.addSlot
      (listener.retired.foldl HookStats.retireListenerSlot HookStats.zero)).markUncalled
  else
    HookStats.zero

def refreshRevisitedMarker (listener : HookListener) (numCalls : ℕ) : Bool :=
  listener.revisited ||
    (listener.reattached &&
      match listener.reattachRequestCalls with
      | none => false
      | some requestCalls => requestCalls < numCalls)

/-- `build_report_snapshot` for one hook. -/
def report (listener : HookListener) : HookReport where
  stats := listener.captureStats
  instrumented := listener.address.isSome
  detached := listener.detached
  reattached := listener.reattached
  revisited := listener.refreshRevisitedMarker listener.captureStats.numCalls

end HookListener

namespace HookStats

/-- The times of a row are representable, apart from sums that may grow too large. -/
structure InRange (stats : HookStats) : Prop where
  totalTime : 0 ≤ stats.totalTime
  exclusiveTime : 0 ≤ stats.exclusiveTime
  maxTotalTime : 0 ≤ stats.maxTotalTime ∧ stats.maxTotalTime ≤ dblMax
  minTotalTime : 0 ≤ stats.minTotalTime ∧ stats.minTotalTime ≤ dblMax
  maxTime : 0 ≤ stats.maxTime ∧ stats.maxTime ≤ fltMax
  minTime : 0 ≤ stats.minTime ∧ stats.minTime ≤ fltMax

theorem dblMax_pos : 0 < dblMax :=
  sub_pos.mpr (pow_lt_pow_right₀ one_lt_two (by decide))

theorem fltMax_pos : 0 < fltMax :=
  sub_pos.mpr (pow_lt_pow_right₀ one_lt_two (by decide))

theorem inRange_zero : zero.InRange := by
  have double := dblMax_pos.le
  have float := fltMax_pos.le
  constructor <;> simp [zero, double, float]

theorem range_ite {left right bound : ℚ} {condition : Prop} [Decidable condition]
    (leftRange : 0 ≤ left ∧ left ≤ bound) (rightRange : 0 ≤ right ∧ right ≤ bound) :
    0 ≤ (if condition then left else right) ∧ (if condition then left else right) ≤ bound := by
  split
  · exact leftRange
  · exact rightRange

variable {stats : HookStats}

theorem inRange_retireListenerSlot (inRange : stats.InRange) (slot : SlotStats) :
    (stats.retireListenerSlot slot).InRange := by
  rw [retireListenerSlot, retireCounters, SlotStats.counters]
  split
  · exact ⟨add_nonneg inRange.totalTime slot.totalTime_range.1,
      add_nonneg inRange.exclusiveTime slot.exclusiveTime_nonneg,
      range_ite slot.totalTime_range inRange.maxTotalTime,
      range_ite slot.totalTime_range inRange.minTotalTime,
      range_ite slot.maxTime_range inRange.maxTime,
      range_ite slot.minTime_range inRange.minTime⟩
  · exact inRange

theorem inRange_addSlot (inRange : stats.InRange) (slot : SlotStats) :
    (stats.addSlot slot).InRange := by
  have total := add_nonneg inRange.totalTime slot.totalTime_range.1
  have exclusive := add_nonneg inRange.exclusiveTime slot.exclusiveTime_nonneg
  rw [addSlot, addCounters, SlotStats.counters]
  split
  · exact ⟨total, exclusive,
      range_ite slot.totalTime_range inRange.maxTotalTime,
      range_ite slot.totalTime_range inRange.minTotalTime,
      range_ite slot.maxTime_range inRange.maxTime,
      range_ite slot.minTime_range inRange.minTime⟩
  · exact ⟨total, exclusive, inRange.maxTotalTime, inRange.minTotalTime, inRange.maxTime,
      inRange.minTime⟩

theorem inRange_markUncalled (inRange : stats.InRange) : stats.markUncalled.InRange := by
  simp only [markUncalled]
  split
  · exact ⟨inRange.totalTime, inRange.exclusiveTime, inRange.maxTotalTime,
      ⟨dblMax_pos.le, le_rfl⟩, inRange.maxTime, ⟨fltMax_pos.le, le_rfl⟩⟩
  · exact inRange

theorem inRange_foldl {fold : HookStats → SlotStats → HookStats}
    (preserved : ∀ {stats : HookStats}, stats.InRange → ∀ slot, (fold stats slot).InRange)
    (slots : List SlotStats) (inRange : stats.InRange) : (slots.foldl fold stats).InRange := by
  induction slots generalizing stats with
  | nil => exact inRange
  | cons slot _ ih => exact ih (preserved inRange slot)

end HookStats

namespace HookListener

theorem captureStats_inRange (listener : HookListener) : listener.captureStats.InRange := by
  simp only [captureStats]
  split
  · apply HookStats.inRange_markUncalled
    apply HookStats.inRange_foldl HookStats.inRange_addSlot
    exact HookStats.inRange_foldl HookStats.inRange_retireListenerSlot _ HookStats.inRange_zero
  · exact HookStats.inRange_zero

theorem captureStats_uncalled {listener : HookListener} (resolved : listener.address.isSome)
    (uncalled : listener.captureStats.threadCount = 0) :
    listener.captureStats.minTotalTime = dblMax ∧ listener.captureStats.minTime = fltMax := by
  simp only [captureStats, resolved, if_true, HookStats.markUncalled] at uncalled ⊢
  split at uncalled
  · rw [if_pos (by assumption)]
    exact ⟨rfl, rfl⟩
  · contradiction

end HookListener

end Peak
