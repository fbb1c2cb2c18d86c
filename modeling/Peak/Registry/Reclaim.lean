import Mathlib.Data.List.Infix
import Peak.Registry.Effect

/-!
# The reclaim scan

A scan examines a bounded number of slots and the next one goes on where it stopped. The calls
between two scans leave the cursor alone, so that no exited thread is passed over.
-/

namespace Peak

open List Nat

universe u

variable {Tid : Type u}

/-- How many slots a call examines. -/
def RegistryCall.examines (capacity : ℕ) : RegistryCall Tid → ℕ
  | .snapshotExitPending budget => min budget capacity
  | _ => 0

namespace SlotRegistry

variable {registry : SlotRegistry Tid} {slot distance : ℕ}

def reclaimable (registry : SlotRegistry Tid) (slot : ℕ) : Bool :=
  (registry.entries slot).occupied && (registry.entries slot).exitPending &&
    !(registry.entries slot).retiring

theorem mem_snapshotExitPending {budget : ℕ} (initialized : registry.initialized)
    (here : (registry.reclaimCursor + distance) % registry.capacity = slot)
    (isReclaimable : registry.reclaimable slot)
    (reached : distance < min budget registry.capacity) :
    (registry.entries slot).token ∈ (registry.snapshotExitPending budget).1.1.map (·.token) := by
  have scans : ¬ (!registry.initialized || budget == 0 || registry.capacity == 0) := by
    simp [initialized]
    omega
  rw [snapshotExitPending, if_neg scans]
  simp only [mem_map, mem_filterMap, mem_range]
  refine ⟨⟨_, (registry.entries slot).kernelTid⟩, ⟨distance, reached, ?_⟩, rfl⟩
  rw [here]
  exact if_pos isReclaimable

variable [DecidableEq Tid] [Inhabited Tid] {calls : List (RegistryCall Tid)}

/-- A scan among the calls reports the thread that has the slot. -/
def Reported (registry : SlotRegistry Tid) (calls : List (RegistryCall Tid)) (slot : ℕ) : Prop :=
  ∃ history budget, history ++ [.snapshotExitPending budget] <+: calls ∧
    ((machine.run registry history).entries slot).token ∈
      ((machine.run registry history).snapshotExitPending budget).1.1.map (·.token)

theorem reclaimCursor_next (initialized : registry.initialized) (call : RegistryCall Tid) :
    (machine.next registry call).initialized ∧
      (machine.next registry call).capacity = registry.capacity ∧
      (machine.next registry call).reclaimCursor % registry.capacity =
        (registry.reclaimCursor + call.examines registry.capacity) % registry.capacity := by
  cases call with
  | snapshotExitPending budget =>
    simp only [Machine.next, machine, snapshotExitPending, RegistryCall.examines]
    split
    next idle =>
      have without : min budget registry.capacity = 0 := by
        simp [initialized] at idle
        omega
      rw [without]
      exact ⟨initialized, rfl, rfl⟩
    · exact ⟨initialized, rfl, mod_mod _ _⟩
  | _ =>
    simp only [Machine.next, machine, reserveInsert, compareRemove, compareRemoveToken,
      beginRetire, completeRetire, deferRetire, markKernelTid, markDetached, markFinalDestructor,
      quarantine, removeEntry, takeSlot, discardOld, updateExitPendingUnlocked, occupy, setEntry,
      enqueueReusableUnlocked, discardUnlocked_eq, RegistryCall.examines]
    grind

/-- The induction is on the calls, where `distance` slots are examined before the given one. -/
theorem reported_of_distance (initialized : registry.initialized)
    (here : (registry.reclaimCursor + distance) % registry.capacity = slot)
    (stays : ∀ history, history <+: calls → (machine.run registry history).reclaimable slot)
    (enough : distance < (calls.map (·.examines registry.capacity)).sum) :
    registry.Reported calls slot := by
  induction calls generalizing registry distance with
  | nil => cases enough
  | cons call calls ih =>
    by_cases reached : distance < call.examines registry.capacity
    · cases call with
      | snapshotExitPending budget =>
        exact ⟨[], budget, by simp, mem_snapshotExitPending initialized here
          (stays [] nil_prefix) reached⟩
      | _ => cases reached
    · rcases reclaimCursor_next initialized call with ⟨isInitialized, capacity, cursor⟩
      have further : ((machine.next registry call).reclaimCursor +
          (distance - call.examines registry.capacity)) %
            (machine.next registry call).capacity = slot := by
        rw [capacity, add_mod, cursor, ← add_mod, add_assoc,
          add_sub_of_le (Nat.le_of_not_lt reached), here]
      have reported : (machine.next registry call).Reported calls slot := by
        apply ih isInitialized further
        · intro history initialPart
          exact stays (call :: history) (cons_prefix_cons.mpr ⟨rfl, initialPart⟩)
        · simp only [capacity, map_cons, sum_cons] at enough ⊢
          omega
      rcases reported with ⟨history, budget, initialPart, isReported⟩
      exact ⟨call :: history, budget, cons_prefix_cons.mpr ⟨rfl, initialPart⟩, isReported⟩

/-- An exited thread is reported once the scans have examined as many slots as there are, whatever
calls are made between them. -/
theorem exited_thread_reported (initialized : registry.initialized)
    (inBounds : slot < registry.capacity)
    (stays : ∀ history, history <+: calls → (machine.run registry history).reclaimable slot)
    (enough : registry.capacity ≤ (calls.map (·.examines registry.capacity)).sum) :
    registry.Reported calls slot := by
  have positive := zero_lt_of_lt inBounds
  have below := mod_lt registry.reclaimCursor positive
  have here : (registry.reclaimCursor + (slot + registry.capacity -
      registry.reclaimCursor % registry.capacity) % registry.capacity) % registry.capacity =
        slot := by
    rw [add_mod_mod, ← mod_add_mod, add_sub_of_le (by omega), add_mod_right,
      mod_eq_of_lt inBounds]
  exact reported_of_distance initialized here stays ((mod_lt _ positive).trans_le enough)

/-- A thread starts between two scans of one slot each. -/
theorem exited_thread_reported_later :
    (machine.run (empty 3 : SlotRegistry ℕ) [.reserveInsert 6, .reserveInsert 7,
      .markDetached 7 2, .markFinalDestructor ⟨1, 2⟩, .markKernelTid ⟨1, 2⟩ 9]).Reported
      [.snapshotExitPending 1, .reserveInsert 8, .snapshotExitPending 2] 1 := by
  apply exited_thread_reported (by decide) (by decide) _ (by decide)
  intro history initialPart
  rw [← mem_inits] at initialPart
  revert history
  decide

end SlotRegistry

end Peak
