import Mathlib.Algebra.Order.BigOperators.Group.Finset
import Mathlib.Algebra.BigOperators.Intervals
import Peak.Hooks.Batch

/-!
# The detaches of a heartbeat

A heartbeat detaches the hooks that are too expensive by themselves, and then more hooks,
the most expensive first, until the projected overhead of the others is on its target. The
two projected sums are reduced as the requests are made.
-/

namespace Peak.Heartbeat

open List

structure HookSample where
  calls : ℕ
  rate : ℚ
  ratio : ℚ
  rate_nonneg : 0 ≤ rate
  ratio_nonneg : 0 ≤ ratio

structure DetachArgs where
  capacity : ℕ
  /-- The hook has an address and a listener. -/
  published : ℕ → Bool
  samples : ℕ → HookSample
  enablePerTarget : Bool
  targetProfileRatio : ℚ
  globalTargetRatio : ℚ
  globalDetachFactor : ℚ
  mpiFinalizeRequested : Bool

structure Projection where
  states : ℕ → HookState
  recent : ℚ
  lifetime : ℚ

def Projection.overhead (p : Projection) : ℚ :=
  max p.recent p.lifetime

/-- `PEAK_GLOBAL_DETACH_MIN_CALLS`. -/
def minCalls : ℕ := 2

def clampZero (x : ℚ) : ℚ :=
  if x < 0 then 0 else x

namespace DetachArgs

variable (args : DetachArgs)

def rate (i : ℕ) : ℚ := (args.samples i).rate

def ratio (i : ℕ) : ℚ := (args.samples i).ratio

def contribution (i : ℕ) : ℚ := max (args.rate i) (args.ratio i)

/-- `peak_general_listener_request_detach_with_context_unlocked`: the next state, and whether the
request is accepted. -/
def requestDetach (i : ℕ) (state : HookState) : HookState × Bool :=
  if args.mpiFinalizeRequested || !args.published i then (state, false)
  else match state with
    | .attached => (.detachRequested, true)
    | .detachRequested | .detaching => (state, true)
    | _ => (state, false)

/-- An accepted request takes the hook out of the sums. -/
def request (p : Projection) (i : ℕ) : Projection :=
  match args.requestDetach i (p.states i) with
  | (state, true) => ⟨Function.update p.states i state, clampZero (p.recent - args.rate i),
      clampZero (p.lifetime - args.ratio i)⟩
  | (_, false) => p

def attached (states : ℕ → HookState) (i : ℕ) : Bool :=
  args.published i && states i = .attached

def attachedHooks (states : ℕ → HookState) : Finset ℕ :=
  (Finset.range args.capacity).filter (args.attached states ·)

def start (states : ℕ → HookState) : Projection :=
  ⟨states, ∑ i ∈ args.attachedHooks states, args.rate i,
    ∑ i ∈ args.attachedHooks states, args.ratio i⟩

def perTargetDetach (p : Projection) : Projection :=
  if !args.enablePerTarget then p
  else (range args.capacity).foldl (fun p i =>
    if args.attached p.states i && minCalls ≤ (args.samples i).calls &&
      args.targetProfileRatio < args.ratio i then args.request p i else p) p

def compareRatioDe (x y : ℕ) : ℤ :=
  if args.contribution x < args.contribution y then 1
  else if args.contribution x > args.contribution y then -1
  else if args.rate x < args.rate y then 1
  else if args.rate x > args.rate y then -1
  else if x < y then -1
  else if x > y then 1
  else 0

def entries (states : ℕ → HookState) : List ℕ :=
  ((range args.capacity).filter fun i => args.attached states i &&
    minCalls ≤ (args.samples i).calls && 0 < args.contribution i).mergeSort
      fun x y => args.compareRatioDe x y ≤ 0

def reduce : List ℕ → Projection → Projection
  | [], p => p
  | i :: rest, p =>
    if p.overhead ≤ args.globalTargetRatio then p
    else if args.contribution i ≤ 0 then p
    else if !args.attached p.states i then reduce rest p
    else reduce rest (args.request p i)

def globalDetach (p : Projection) : Projection :=
  if p.overhead > args.globalTargetRatio * args.globalDetachFactor then
    args.reduce (args.entries p.states) p
  else p

/-- The sums are those over the attached hooks. -/
structure Exact (p : Projection) : Prop where
  recent : p.recent = ∑ i ∈ args.attachedHooks p.states, args.rate i
  lifetime : p.lifetime = ∑ i ∈ args.attachedHooks p.states, args.ratio i

variable {args} {p : Projection} {i : ℕ} {states : ℕ → HookState}

theorem mem_attachedHooks : i ∈ args.attachedHooks states ↔
    i < args.capacity ∧ args.published i ∧ states i = .attached := by
  simp [attachedHooks, attached]

theorem rate_nonneg (i : ℕ) : 0 ≤ args.rate i :=
  (args.samples i).rate_nonneg

theorem ratio_nonneg (i : ℕ) : 0 ≤ args.ratio i :=
  (args.samples i).ratio_nonneg

theorem clampZero_sum_sub {hooks : Finset ℕ} {cost : ℕ → ℚ} (nonneg : ∀ i, 0 ≤ cost i)
    (here : i ∈ hooks) :
    clampZero (∑ j ∈ hooks, cost j - cost i) = ∑ j ∈ hooks.erase i, cost j := by
  rw [← Finset.sum_erase_eq_sub here, clampZero, if_neg]
  exact not_lt.mpr (Finset.sum_nonneg fun j _ => nonneg j)

section

variable (active : args.mpiFinalizeRequested = false)

include active

theorem request_eq (here : i ∈ args.attachedHooks p.states) :
    args.request p i = ⟨Function.update p.states i .detachRequested,
      clampZero (p.recent - args.rate i), clampZero (p.lifetime - args.ratio i)⟩ := by
  rcases mem_attachedHooks.mp here with ⟨_, published, isAttached⟩
  simp [request, requestDetach, active, published, isAttached]

theorem attachedHooks_request (here : i ∈ args.attachedHooks p.states) :
    args.attachedHooks (args.request p i).states = (args.attachedHooks p.states).erase i := by
  ext j
  rw [request_eq active here, Finset.mem_erase, mem_attachedHooks, mem_attachedHooks]
  by_cases same : j = i
  · simp [same]
  · simp [same]

theorem Exact.request (exact : args.Exact p) (here : i ∈ args.attachedHooks p.states) :
    args.Exact (args.request p i) := by
  constructor
  · rw [attachedHooks_request active here, ← clampZero_sum_sub rate_nonneg here, ← exact.recent,
      request_eq active here]
  · rw [attachedHooks_request active here, ← clampZero_sum_sub ratio_nonneg here, ← exact.lifetime,
      request_eq active here]

theorem Exact.perTargetDetach (exact : args.Exact p) : args.Exact (args.perTargetDetach p) := by
  unfold DetachArgs.perTargetDetach
  split
  · exact exact
  · refine foldlRecOn _ _ exact ?_
    intro p exact i inRange
    split
    next detach =>
      simp only [Bool.and_eq_true, decide_eq_true_eq, attached] at detach
      exact exact.request active
        (mem_attachedHooks.mpr ⟨mem_range.mp inRange, detach.1.1.1, detach.1.1.2⟩)
    next => exact exact

theorem attachedHooks_rest {rest : List ℕ} (distinct : (i :: rest).Nodup)
    (here : ∀ j ∈ i :: rest, j ∈ args.attachedHooks p.states) :
    ∀ j ∈ rest, j ∈ args.attachedHooks (args.request p i).states := by
  intro j isRest
  rw [attachedHooks_request active (here i mem_cons_self), Finset.mem_erase]
  exact ⟨fun same => (nodup_cons.mp distinct).1 (same ▸ isRest), here j (mem_cons_of_mem _ isRest)⟩

theorem Exact.requests {hooks : List ℕ} (exact : args.Exact p) (distinct : hooks.Nodup)
    (here : ∀ i ∈ hooks, i ∈ args.attachedHooks p.states) :
    args.Exact (hooks.foldl args.request p) ∧ ∀ i, (hooks.foldl args.request p).states i =
      if i ∈ hooks then .detachRequested else p.states i := by
  induction hooks generalizing p with
  | nil => simpa using exact
  | cons first _ ih =>
    have isFirst := here first mem_cons_self
    rcases ih (exact.request active isFirst) (nodup_cons.mp distinct).2
      (attachedHooks_rest active distinct here) with ⟨sums, states⟩
    refine ⟨sums, fun i => ?_⟩
    rw [foldl_cons, states, request_eq active isFirst]
    by_cases same : i = first
    · simp [same]
    · simp [same]

theorem reduce_eq {hooks : List ℕ} (distinct : hooks.Nodup)
    (here : ∀ i ∈ hooks, i ∈ args.attachedHooks p.states)
    (positive : ∀ i ∈ hooks, 0 < args.contribution i) :
    ∃ n, args.reduce hooks p = (hooks.take n).foldl args.request p ∧
      (∀ k < n, args.globalTargetRatio < ((hooks.take k).foldl args.request p).overhead) ∧
      (n = hooks.length ∨
        ((hooks.take n).foldl args.request p).overhead ≤ args.globalTargetRatio) := by
  induction hooks generalizing p with
  | nil => exact ⟨0, by simp [reduce]⟩
  | cons first _ ih =>
    by_cases onTarget : p.overhead ≤ args.globalTargetRatio
    · exact ⟨0, by simp [reduce, onTarget]⟩
    · rw [forall_mem_cons] at positive
      rcases ih (nodup_cons.mp distinct).2 (attachedHooks_rest active distinct here)
        positive.2 with ⟨n, isPrefix, before, stops⟩
      have isAttached := (mem_attachedHooks.mp (here first mem_cons_self)).2
      refine ⟨n + 1, ?_, ?_, ?_⟩
      · simpa [reduce, onTarget, not_le.mpr positive.1, attached, isAttached] using isPrefix
      · intro k small
        cases k with
        | zero => exact not_le.mp onTarget
        | succ k => exact before k (Nat.lt_of_succ_lt_succ small)
      · simpa using stops

end

section

variable (args)

/-- The order of `compare_ratio_de`. -/
def Precedes (x y : ℕ) : Prop :=
  args.contribution y < args.contribution x ∨ args.contribution x = args.contribution y ∧
    (args.rate y < args.rate x ∨ args.rate x = args.rate y ∧ x < y)

/-- The overhead of the hooks. -/
def pressure (hooks : Finset ℕ) : ℚ :=
  max (∑ i ∈ hooks, args.rate i) (∑ i ∈ hooks, args.ratio i)

/-- The shortest prefix of the eligible hooks without which the overhead is on its target, or all
of them, is requested. -/
structure RequestsPrefix (p after : Projection) (order : List ℕ) (n : ℕ) : Prop where
  eligible : ∀ i, i ∈ order ↔ i ∈ args.attachedHooks p.states ∧
    minCalls ≤ (args.samples i).calls ∧ 0 < args.contribution i
  sorted : order.Pairwise args.Precedes
  requested : ∀ i, after.states i = if i ∈ order.take n then .detachRequested else p.states i
  before : ∀ k < n, args.globalTargetRatio <
    args.pressure (args.attachedHooks p.states \ (order.take k).toFinset)
  stops : n = order.length ∨ args.pressure
    (args.attachedHooks p.states \ (order.take n).toFinset) ≤ args.globalTargetRatio
  isPrefix : after = (order.take n).foldl args.request p
  sums : ∀ k, args.Exact ((order.take k).foldl args.request p)

/-- No more hooks are detached than the target needs. -/
structure DetachesMinimally (p : Projection) : Prop where
  sums : args.Exact p
  idle : args.pressure (args.attachedHooks p.states) ≤
    args.globalTargetRatio * args.globalDetachFactor → args.globalDetach p = p
  detaches : args.globalTargetRatio * args.globalDetachFactor <
    args.pressure (args.attachedHooks p.states) →
    ∃ order n, args.RequestsPrefix p (args.globalDetach p) order n

end

theorem compareRatioDe_le {x y : ℕ} : args.compareRatioDe x y ≤ 0 ↔ args.Precedes x y ∨ x = y := by
  unfold compareRatioDe Precedes
  grind

theorem mem_entries : i ∈ args.entries states ↔ i ∈ args.attachedHooks states ∧
    minCalls ≤ (args.samples i).calls ∧ 0 < args.contribution i := by
  simp [entries, attachedHooks, and_assoc]

theorem entries_nodup : (args.entries states).Nodup :=
  (mergeSort_perm _ _).nodup_iff.mpr (nodup_range.filter _)

theorem entries_sorted : (args.entries states).Pairwise args.Precedes := by
  have sorted : (args.entries states).Pairwise fun x y => decide (args.compareRatioDe x y ≤ 0) :=
    pairwise_mergeSort
      (by simp only [compareRatioDe_le, Precedes]; grind)
      (by simp only [compareRatioDe_le, Precedes]; grind) _
  refine (sorted.and entries_nodup).imp fun both => ?_
  exact (compareRatioDe_le.mp (of_decide_eq_true both.1)).resolve_right both.2

theorem attachedHooks_requested {hooks : List ℕ} {after : ℕ → HookState}
    (requested : ∀ i, after i = if i ∈ hooks then .detachRequested else states i) :
    args.attachedHooks after = args.attachedHooks states \ hooks.toFinset := by
  ext i
  rw [Finset.mem_sdiff, mem_attachedHooks, mem_attachedHooks, requested, mem_toFinset]
  by_cases isRequested : i ∈ hooks
  · simp [isRequested]
  · simp [isRequested]

theorem Exact.overhead (exact : args.Exact p) :
    p.overhead = args.pressure (args.attachedHooks p.states) := by
  rw [Projection.overhead, exact.recent, exact.lifetime, pressure]

/-- The global detach requests the shortest sufficient prefix of the hooks which the detach of
single targets has left. -/
theorem global_detach_minimal (args : DetachArgs) (active : args.mpiFinalizeRequested = false)
    (states : ℕ → HookState) :
    args.DetachesMinimally (args.perTargetDetach (args.start states)) := by
  have exact : args.Exact (args.perTargetDetach (args.start states)) :=
    Exact.perTargetDetach active ⟨rfl, rfl⟩
  generalize args.perTargetDetach (args.start states) = p at exact
  refine ⟨exact, fun low => ?_, fun high => ?_⟩
  · rw [globalDetach, if_neg (by rw [exact.overhead]; exact not_lt.mpr low)]
  · rw [globalDetach, if_pos (by rw [exact.overhead]; exact high)]
    have here : ∀ i ∈ args.entries p.states, i ∈ args.attachedHooks p.states :=
      fun i isEntry => (mem_entries.mp isEntry).1
    have taken (k : ℕ) := exact.requests active (entries_nodup.sublist (take_sublist k _))
      fun i isTaken => here i (mem_of_mem_take isTaken)
    have overhead (k : ℕ) := (taken k).1.overhead
    rcases reduce_eq active entries_nodup here fun i isEntry => (mem_entries.mp isEntry).2.2 with
      ⟨n, isPrefix, before, stops⟩
    simp only [overhead, attachedHooks_requested (taken _).2] at before stops
    refine ⟨args.entries p.states, n, fun i => mem_entries, entries_sorted, ?_, before, stops,
      isPrefix, fun k => (taken k).1⟩
    rw [isPrefix]
    exact (taken n).2

/-- Three hooks with two calls each. Without the second and the third, the overhead is on its
target. -/
def threeHooks : DetachArgs where
  capacity := 3
  published _ := true
  samples
    | 0 => ⟨2, 1, 1, zero_le_one, zero_le_one⟩
    | 1 => ⟨2, 5, 1, by decide, zero_le_one⟩
    | _ => ⟨2, 3, 1, by decide, zero_le_one⟩
  enablePerTarget := true
  targetProfileRatio := 1
  globalTargetRatio := 1
  globalDetachFactor := 2
  mpiFinalizeRequested := false

theorem global_detach_minimal_threeHooks : ∃ p,
    p = threeHooks.perTargetDetach (threeHooks.start fun _ => .attached) ∧
      threeHooks.DetachesMinimally p ∧ (range 3).map (threeHooks.globalDetach p).states =
        [.attached, .detachRequested, .detachRequested] := by
  refine ⟨_, rfl, global_detach_minimal threeHooks rfl _, ?_⟩
  have order : threeHooks.entries (fun _ => .attached) = [1, 2, 0] := by
    refine ((mergeSort_perm ..).trans ?_).eq_of_pairwise ?_ entries_sorted ?_
    · decide +kernel
    · unfold Precedes
      grind
    · unfold Precedes
      decide +kernel
  have states : (threeHooks.perTargetDetach (threeHooks.start fun _ => .attached)).states =
      fun _ => .attached := rfl
  rw [globalDetach, states, order]
  decide +kernel

end DetachArgs
end Peak.Heartbeat
