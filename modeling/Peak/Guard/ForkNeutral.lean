import Peak.Guard.Fork

/-!
# When a fork leaves the guard balanced

In a process that never was the child of a fork the counters of the guard agree with the
acquisitions in progress, as long as no thread nests so many that its filesystem-stat depth
saturates. A fork followed into the child leaves the migration depth one too high for good: the
prepare handler disables migration and no handler of the child enables it again.
-/

namespace Peak

open List Function

universe u

namespace StatControl

/-- The control word of a thread with a number of acquisitions in progress. -/
structure Counts (control : StatControl) (acquisitions : ℕ) : Prop where
  bounded : control.depth ≤ maxDepth
  stuck : control.saturated → control.depth = maxDepth
  counting : control.saturated = false → control.depth = acquisitions

theorem counts_zero : zero.Counts 0 where
  bounded := Nat.zero_le _
  stuck := nofun
  counting := fun _ => rfl

namespace Counts

variable {control : StatControl} {acquisitions : ℕ}

theorem enter_saturated_iff (counts : control.Counts acquisitions) :
    control.enter.saturated = false ↔ control.saturated = false ∧ acquisitions < maxDepth := by
  rw [StatControl.enter_saturated_iff]
  apply and_congr_right
  intro counting
  have bounded := counts.bounded
  have depth := counts.counting counting
  omega

theorem enter (counts : control.Counts acquisitions) : control.enter.Counts (acquisitions + 1) := by
  have bounded := counts.bounded
  by_cases full : control.depth = maxDepth
  · simp only [StatControl.enter, if_pos full]
    exact ⟨bounded, fun _ => full, fun counting => by cases counting⟩
  · have counting : control.saturated = false := by
      cases saturated : control.saturated with
      | false => rfl
      | true => exact absurd (counts.stuck saturated) full
    have depth := counts.counting counting
    simp only [StatControl.enter, if_neg full, counting, Bool.not_false, if_true]
    exact ⟨by dsimp only; omega, (fun stuck => by cases stuck), fun _ => by dsimp only; omega⟩

theorem leave (counts : control.Counts (acquisitions + 1)) :
    control.leave.Counts acquisitions := by
  cases saturated : control.saturated with
  | true =>
    have unchanged : control.leave = control := by simp [StatControl.leave, saturated]
    rw [unchanged]
    refine ⟨counts.bounded, counts.stuck, ?_⟩
    intro counting
    exact absurd (saturated.symm.trans counting) (by decide)
  | false =>
    have bounded := counts.bounded
    have depth := counts.counting saturated
    have left := control.leave_depth saturated
    refine ⟨by omega, ?_, fun _ => by omega⟩
    intro stuck
    rw [leave_saturated] at stuck
    exact absurd (saturated.symm.trans stuck) (by decide)

theorem depth_zero_iff (counts : control.Counts 0) :
    control.depth = 0 ↔ control.saturated = false := by
  constructor
  · intro zero
    cases saturated : control.saturated with
    | false => rfl
    | true => exact absurd (zero.symm.trans (counts.stuck saturated)) (by decide)
  · exact counts.counting

end Counts

end StatControl

namespace GuardEvent

variable {Tid : Type u} [DecidableEq Tid]

def isForkChild : GuardEvent Tid → Bool
  | .forkChild _ => true
  | _ => false

/-- The thread that takes the guard, either itself or in the prepare handler. -/
def entering : GuardEvent Tid → Option Tid
  | .acquire thread | .forkParent thread | .forkChild thread => some thread
  | .release _ => none

def nesting (thread : Tid) (history : List (GuardEvent Tid)) : ℕ :=
  history.count (.acquire thread) - history.count (.release thread)

/-- No thread takes the guard while it has `limit` acquisitions in progress. -/
def NestsBelow (limit : ℕ) (history : List (GuardEvent Tid)) : Prop :=
  ∀ earlier event thread, earlier ++ [event] <+: history →
    event.entering = some thread → nesting thread earlier < limit

theorem nestsBelow_nil (limit : ℕ) : NestsBelow limit ([] : List (GuardEvent Tid)) := by
  intro earlier event thread isPrefix
  simp at isPrefix

theorem nestsBelow_snoc {limit : ℕ} {history : List (GuardEvent Tid)} {event : GuardEvent Tid} :
    NestsBelow limit (history ++ [event]) ↔
      NestsBelow limit history ∧
        ∀ thread, event.entering = some thread → nesting thread history < limit := by
  constructor
  · intro below
    refine ⟨?_, fun thread => below history event thread (prefix_refl _)⟩
    intro earlier earlierEvent thread isPrefix
    exact below earlier earlierEvent thread (isPrefix.trans (prefix_append _ _))
  · rintro ⟨below, last⟩ earlier earlierEvent thread isPrefix entering
    rcases prefix_concat_iff.mp isPrefix with whole | isPrefix
    · rcases append_inj' whole rfl with ⟨rfl, sameEvent⟩
      rw [singleton_inj.mp sameEvent] at entering
      exact last thread entering
    · exact below earlier earlierEvent thread isPrefix entering

end GuardEvent

namespace GuardProcess

variable {Tid : Type u} [DecidableEq Tid]

open GuardEvent StatControl

structure Balanced (history : List (GuardEvent Tid)) (process : GuardProcess Tid) : Prop where
  depth : process.migrationDisabledDepth = process.inProgress.length
  inProgress : ∀ thread, process.inProgress.count thread + history.count (.release thread) =
    history.count (.acquire thread)
  counts : ∀ thread, (process.control thread).Counts (process.inProgress.count thread)
  saturation : (∀ thread, (process.control thread).saturated = false) ↔ NestsBelow maxDepth history

variable {history : List (GuardEvent Tid)} {process : GuardProcess Tid}

theorem Balanced.nesting (balanced : Balanced history process) (thread : Tid) :
    GuardEvent.nesting thread history = process.inProgress.count thread := by
  have inProgress := balanced.inProgress thread
  simp only [GuardEvent.nesting]
  omega

variable {before after : GuardProcess Tid} {event : GuardEvent Tid}

theorem counts_update {thread : Tid} {control : StatControl}
    (counts : ∀ other, (before.control other).Counts (before.inProgress.count other))
    (controlEq : after.control = update before.control thread control)
    (self : control.Counts (after.inProgress.count thread)) (others : ∀ other, other ≠ thread →
      after.inProgress.count other = before.inProgress.count other) (other : Tid) :
    (after.control other).Counts (after.inProgress.count other) := by
  rw [controlEq]
  by_cases same : other = thread
  · subst same
    rw [update_self]
    exact self
  · rw [update_of_ne same, others other same]
    exact counts other

theorem saturation_update {thread : Tid} {control : StatControl} {room : Prop}
    (controlEq : after.control = update before.control thread control)
    (self : control.saturated = false ↔ (before.control thread).saturated = false ∧ room) :
    (∀ other, (after.control other).saturated = false) ↔
      (∀ other, (before.control other).saturated = false) ∧ room := by
  rw [controlEq, forall_update_iff before.control fun _ word => word.saturated = false,
    self]
  constructor
  · rintro ⟨⟨counting, fits⟩, others⟩
    refine ⟨?_, fits⟩
    intro other
    by_cases same : other = thread
    · subst same
      exact counting
    · exact others other same
  · rintro ⟨counting, fits⟩
    exact ⟨⟨counting thread, fits⟩, fun other _ => counting other⟩

theorem Balanced.step (balanced : Balanced history before)
    (effect : Effect before after event) (inParent : event.isForkChild = false) :
    Balanced (history ++ [event]) after := by
  cases effect with
  | @acquire thread depth control inProgress =>
    refine ⟨?_, ?_, ?_, ?_⟩
    · rw [depth, inProgress, balanced.depth, length_cons]
    · intro other
      have count := balanced.inProgress other
      rw [inProgress]
      by_cases same : other = thread
      · subst same
        simp
        omega
      · simp [Ne.symm same]
        omega
    · apply counts_update balanced.counts control
      · rw [inProgress, count_cons_self]
        exact (balanced.counts thread).enter
      · intro other different
        rw [inProgress, count_cons_of_ne (Ne.symm different)]
    · rw [saturation_update control (balanced.counts thread).enter_saturated_iff,
        nestsBelow_snoc, balanced.saturation, ← balanced.nesting]
      simp [entering]
  | @release thread threadMem depth control inProgress =>
    have positive := count_pos_iff.mpr threadMem
    refine ⟨?_, ?_, ?_, ?_⟩
    · rw [depth, inProgress, balanced.depth, length_erase_of_mem threadMem]
    · intro other
      have count := balanced.inProgress other
      rw [inProgress]
      by_cases same : other = thread
      · subst same
        simp
        omega
      · simp [Ne.symm same, count_erase_of_ne same]
        omega
    · apply counts_update balanced.counts control
      · rw [inProgress, count_erase_self]
        apply Counts.leave
        rw [Nat.sub_add_cancel positive]
        exact balanced.counts thread
      · intro other different
        rw [inProgress, count_erase_of_ne different]
    · have left : (before.control thread).leave.saturated = false ↔
          (before.control thread).saturated = false ∧ True := by simp
      rw [saturation_update control left, nestsBelow_snoc, balanced.saturation]
      simp [entering]
  | @forkParent thread depth control inProgress =>
    refine ⟨?_, ?_, ?_, ?_⟩
    · rw [depth, inProgress, balanced.depth]
    · intro other
      rw [inProgress]
      simpa using balanced.inProgress other
    · apply counts_update balanced.counts control
      · rw [inProgress]
        exact (balanced.counts thread).enter.leave
      · intro other _
        rw [inProgress]
    · have left := (balanced.counts thread).enter_saturated_iff
      rw [← leave_saturated] at left
      rw [saturation_update control left, nestsBelow_snoc, balanced.saturation, ← balanced.nesting]
      simp [entering]
  | forkChild => cases inParent

structure Counted (history : List (GuardEvent Tid)) (process : GuardProcess Tid) : Prop where
  leaked : process.inProgress.length + history.countP isForkChild ≤ process.migrationDisabledDepth
  notHeld : process.heldMutation.active = false
  balanced : (∀ thread, .forkChild thread ∉ history) → Balanced history process

theorem counted_initial (records : ℕ) : Counted [] (initial records : GuardProcess Tid) where
  leaked := Nat.le_refl _
  notHeld := rfl
  balanced := fun _ => {
    depth := rfl
    inProgress := fun _ => rfl
    counts := fun _ => counts_zero
    saturation := iff_of_true (fun _ => rfl) (nestsBelow_nil _) }

theorem Counted.step (counted : Counted history before)
    (effect : Effect before after event) : Counted (history ++ [event]) after := by
  have leaked := counted.leaked
  refine ⟨?_, ?_, ?_⟩
  · rw [countP_append, countP_singleton]
    cases effect with
    | acquire depth _ inProgress =>
      simp only [inProgress, isForkChild]
      simp
      omega
    | release threadMem depth _ inProgress =>
      have positive := length_pos_of_mem threadMem
      simp only [inProgress, isForkChild, length_erase_of_mem threadMem]
      simp
      omega
    | forkParent depth _ inProgress =>
      simpa [depth, inProgress, isForkChild] using leaked
    | @forkChild thread depth _ inProgress =>
      have fewer := length_filter_le (· = thread) before.inProgress
      simp only [inProgress, isForkChild]
      simp
      omega
  · cases effect with
    | acquire _ _ _ held | release _ _ _ _ held | forkParent _ _ _ held =>
      rw [held]
      exact counted.notHeld
    | forkChild _ _ _ held =>
      rw [held]
      rfl
  · intro inParent
    simp only [mem_append, mem_singleton, not_or] at inParent
    refine (counted.balanced fun thread => (inParent thread).1).step effect ?_
    cases effect with
    | acquire | release | forkParent => rfl
    | @forkChild thread => exact absurd rfl (inParent thread).2

theorem counted_reached {records : ℕ} (reached : Reached records history process) :
    Counted history process := by
  induction reached with
  | start => exact counted_initial records
  | snoc _ stepped ih => exact ih.step (effect_step stepped)

/-- What the guard and the handlers must not leave behind. -/
structure Neutral (process : GuardProcess Tid) : Prop where
  migration : process.migrationDisabledDepth = 0
  stat : ∀ thread, (process.control thread).depth = 0
  notHeld : process.heldMutation.active = false
  signalAllowed : ∀ (policy : SignalPolicy) signum,
    policy.prepareReservedSignalForUser (fun _ => process.migrationDisabledDepth) signum ≠
      .error .migrationDisabled
  setAllowed : ∀ (policy : SignalPolicy) signals,
    policy.prepareReservedSetForUser (fun _ => process.migrationDisabledDepth) signals ≠
      .error .migrationDisabled

omit [DecidableEq Tid] in
theorem neutral_of_counters (migration : process.migrationDisabledDepth = 0)
    (stat : ∀ thread, (process.control thread).depth = 0)
    (notHeld : process.heldMutation.active = false) : process.Neutral := by
  refine ⟨migration, stat, notHeld, ?_, ?_⟩
  · intro policy signum
    rw [migration]
    exact policy.prepareReservedSignalForUser_enabled signum
  · intro policy signals
    rw [migration]
    exact policy.prepareReservedSetForUser_enabled signals

/-- Outside of controller calls the guard left nothing behind exactly if the process never was the
child of a fork and no depth saturated. -/
theorem neutral_iff_not_forked {records : ℕ} {history : List (GuardEvent Tid)}
    {process : GuardProcess Tid} (reached : Reached records history process)
    (quiet : process.inProgress = []) :
    process.Neutral ↔ (∀ thread, .forkChild thread ∉ history) ∧ NestsBelow maxDepth history := by
  have counted := counted_reached reached
  have stat : Balanced history process →
      ((∀ thread, (process.control thread).depth = 0) ↔ NestsBelow maxDepth history) := by
    intro balanced
    rw [← balanced.saturation]
    apply forall_congr'
    intro thread
    have counts := balanced.counts thread
    rw [quiet] at counts
    exact counts.depth_zero_iff
  constructor
  · intro neutral
    have inParent : ∀ thread, .forkChild thread ∉ history := by
      have leaked := counted.leaked
      rw [neutral.migration, quiet] at leaked
      have none : history.countP isForkChild = 0 := by
        simp at leaked
        simpa using leaked
      intro thread forked
      exact absurd (countP_eq_zero.mp none _ forked) (by simp [isForkChild])
    exact ⟨inParent, (stat (counted.balanced inParent)).mp neutral.stat⟩
  · rintro ⟨inParent, below⟩
    have balanced := counted.balanced inParent
    refine neutral_of_counters ?_ ((stat balanced).mpr below) counted.notHeld
    rw [balanced.depth, quiet]
    rfl

/-- A process of a thread that forks inside of a controller call. -/
theorem neutral_iff_not_forked_parent :
    ∃ process : GuardProcess ℕ,
      Reached maxPatchRecords [.acquire 7, .forkParent 7, .release 7] process ∧
        process.Neutral := by
  have acquired : Reached maxPatchRecords ([] ++ [.acquire 7]) _ :=
    .snoc (.start : Reached maxPatchRecords [] (initial maxPatchRecords : GuardProcess ℕ)) rfl
  have forked : Reached maxPatchRecords ([] ++ [.acquire 7] ++ [.forkParent 7]) _ :=
    .snoc acquired rfl
  have released :
      Reached maxPatchRecords ([] ++ [.acquire 7] ++ [.forkParent 7] ++ [.release 7]) _ :=
    .snoc forked rfl
  refine ⟨_, released, (neutral_iff_not_forked released rfl).mpr ⟨by simp, ?_⟩⟩
  simp only [nestsBelow_snoc, nestsBelow_nil]
  simp [entering, nesting, maxDepth]

/-- In the child of a fork migration stays disabled, and the application is refused the
reserved signal. -/
theorem forked_child_refused :
    ∃ process : GuardProcess ℕ,
      Reached maxPatchRecords [.acquire 7, .release 7, .forkChild 7] process ∧
        process.inProgress = [] ∧ process.migrationDisabledDepth = 1 ∧
        ∃ policy : SignalPolicy, policy.prepareReservedSignalForUser
          (fun _ => process.migrationDisabledDepth) policy.reservedSignal =
            .error .migrationDisabled := by
  have acquired : Reached maxPatchRecords ([] ++ [.acquire 7]) _ :=
    .snoc (.start : Reached maxPatchRecords [] (initial maxPatchRecords : GuardProcess ℕ)) rfl
  have released : Reached maxPatchRecords ([] ++ [.acquire 7] ++ [.release 7]) _ :=
    .snoc acquired rfl
  have forked : Reached maxPatchRecords ([] ++ [.acquire 7] ++ [.release 7] ++ [.forkChild 7]) _ :=
    .snoc released rfl
  refine ⟨_, forked, rfl, rfl, ?_⟩
  refine ⟨⟨true, false, 34, 64, true, 40, false, some 0,
    [some 50000000, some 100000000], some 41, true, true⟩, ?_⟩
  decide

end GuardProcess

end Peak
