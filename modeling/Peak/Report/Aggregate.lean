import Mathlib.Data.List.Induction
import Peak.Report.Record

/-!
# The two reductions of a report

The MPI transport reduces every column of the reports with one collective operation, the socket
transport folds the records of the ranks. They differ in how they recognise a rank without a call:
the fold looks at the thread count, the reduction relies on the largest representable minima, which
the capture only writes for resolved hooks.
-/

namespace Peak

open SocketRecord Function List

def mpiReduce {β : Type} (operation : β → β → β) (column : HookReport → β) (root : HookReport)
    (peers : List HookReport) : β :=
  (peers.map column).foldl operation (column root)

/-- `MPI_SUM` over `MPI_UNSIGNED_LONG`. -/
def mpiSumUnsigned (left right : ℕ) : ℕ :=
  (left + right) % 2 ^ 64

/-- The row of the aggregate that `peak_mpi_report_transport_reduce` leaves at the root. -/
def mpiAggregate (root : HookReport) (peers : List HookReport) : HookReport :=
  let numCalls := mpiReduce mpiSumUnsigned (·.stats.numCalls) root peers
  { stats :=
      { numCalls := numCalls
        totalTime := mpiReduce (· + ·) (·.stats.totalTime) root peers
        maxTotalTime := mpiReduce max (·.stats.maxTotalTime) root peers
        minTotalTime := mpiReduce min (·.stats.minTotalTime) root peers
        exclusiveTime := mpiReduce (· + ·) (·.stats.exclusiveTime) root peers
        maxTime := mpiReduce max (·.stats.maxTime) root peers
        minTime := mpiReduce min (·.stats.minTime) root peers
        threadCount := mpiReduce mpiSumUnsigned (·.stats.threadCount) root peers }
    instrumented := root.instrumented || numCalls ≠ 0
    detached := mpiReduce max (·.detached) root peers
    reattached := mpiReduce max (·.reattached) root peers
    revisited := mpiReduce max (·.revisited) root peers }

/-- The fold of the socket transport over the records of the ranks in some order. -/
def socketFold (identityHash : UInt64) : List HookReport → Option SocketRecord
  | [] => none
  | first :: others =>
    (build identityHash first).mergeAll (others.map (build identityHash))

section Columns

variable {root : HookReport} {peers : List HookReport}

theorem mpiReduce_append {β : Type} (operation : β → β → β) (column : HookReport → β)
    (peer : HookReport) :
    mpiReduce operation column root (peers ++ [peer]) =
      operation (mpiReduce operation column root peers) (column peer) := by
  simp [mpiReduce]

theorem mpiReduce_add (column : HookReport → ℚ) :
    mpiReduce (· + ·) column root peers = ((root :: peers).map column).sum := by
  simp [mpiReduce, sum_eq_foldl]

theorem mpiReduce_sumUnsigned {column : HookReport → ℕ}
    (fits : ((root :: peers).map column).sum ≤ uint64Max) :
    mpiReduce mpiSumUnsigned column root peers = ((root :: peers).map column).sum := by
  induction peers using reverseRecOn with
  | nil => simp [mpiReduce]
  | append_singleton _ _ ih =>
    rw [← cons_append, map_append, sum_append] at fits ⊢
    rw [mpiReduce_append, ih ((Nat.le_add_right _ _).trans fits), mpiSumUnsigned, Nat.mod_eq_of_lt]
    · simp
    · simp only [map_cons, map_nil, sum_singleton, uint64Max] at fits ⊢
      omega

theorem mpiReduce_max {β : Type} [LinearOrder β] (column : HookReport → β) :
    IsGreatest {found | ∃ report ∈ root :: peers, column report = found}
      (mpiReduce max column root peers) := by
  induction peers using reverseRecOn with
  | nil => exact isGreatest_singleton_member column root
  | append_singleton _ peer ih =>
    rw [mpiReduce_append, ← cons_append]
    exact isGreatest_append_member ih peer

theorem mpiReduce_min (column : HookReport → ℚ) :
    LeastPresent (fun _ => True) column (column root) (root :: peers)
      (mpiReduce min column root peers) := by
  induction peers using reverseRecOn with
  | nil => exact LeastPresent.singleton root
  | append_singleton peers peer ih =>
    rw [mpiReduce_append, ← cons_append]
    rcases lt_or_ge (column peer) (mpiReduce min column root peers) with smaller | greater
    · rw [min_eq_right smaller.le]
      exact ih.replace trivial (.inr smaller)
    · rw [min_eq_left greater]
      exact ih.keep fun _ => ⟨⟨root, by simp, trivial⟩, greater⟩

theorem mpiReduce_marker (column : HookReport → Bool) :
    mpiReduce max column root peers ↔ ∃ report ∈ root :: peers, column report := by
  have greatest : IsGreatest {found | ∃ report ∈ root :: peers, column report = found}
      (mpiReduce max column root peers) := mpiReduce_max column
  constructor
  · intro set
    rw [set] at greatest
    exact greatest.1
  · rintro ⟨report, reportMem, set⟩
    have upper := greatest.2 ⟨report, reportMem, rfl⟩
    rw [set] at upper
    exact Bool.eq_true_of_true_le upper

end Columns

section Comparison

variable {identityHash : UInt64} {root : HookReport} {peers order : List HookReport}
  {aggregate : SocketRecord}

theorem socketFold_summary (folded : socketFold identityHash order = some aggregate) :
    ∃ first others, order = first :: others ∧
      SocketRecord.Summary (build identityHash first)
        (order.map (build identityHash)) aggregate := by
  cases order with
  | nil => cases folded
  | cons first others =>
    refine ⟨first, others, rfl, ?_⟩
    exact (summary_singleton (flagged_build _ _)).mergeAll folded

theorem isGreatest_columns {value : ℚ} (isOrder : order.Perm (root :: peers))
    {field : SocketRecord → ℚ} {column : HookReport → ℚ}
    (same : ∀ report, field (build identityHash report) = column report)
    (greatest : IsGreatest {found | ∃ member ∈ order.map (build identityHash),
      field member = found} value) : value = mpiReduce max column root peers := by
  apply greatest.unique
  have sets : {found | ∃ member ∈ order.map (build identityHash),
      field member = found} = {found | ∃ report ∈ root :: peers, column report = found} := by
    ext found
    simp only [mem_map, ← isOrder.mem_iff]
    constructor
    · rintro ⟨_, ⟨report, reportMem, rfl⟩, valueEq⟩
      exact ⟨report, reportMem, (same report).symm.trans valueEq⟩
    · rintro ⟨report, reportMem, valueEq⟩
      exact ⟨_, ⟨report, reportMem, rfl⟩, (same report).trans valueEq⟩
  rw [sets]
  exact mpiReduce_max column

theorem marked_columns {value : ℤ} (isOrder : order.Perm (root :: peers))
    {flag : SocketRecord → ℤ} {column : HookReport → Bool}
    (same : ∀ report, flag (build identityHash report) = if column report then 1 else 0)
    (marked : SocketRecord.Marked flag (order.map (build identityHash)) value) :
    decide (value ≠ 0) = mpiReduce max column root peers := by
  rw [Bool.eq_iff_iff, mpiReduce_marker, decide_eq_true_eq]
  have nonzero : value ≠ 0 ↔ value = 1 := by
    have range := marked.range
    omega
  rw [nonzero, marked.set_iff]
  simp [same, isOrder.mem_iff]

theorem toReport_eq_iff (isOrder : order.Perm (root :: peers))
    (calls : (order.map (·.stats.numCalls)).sum ≤ uint64Max)
    (threads : (order.map (·.stats.threadCount)).sum ≤ uint64Max)
    (folded : socketFold identityHash order = some aggregate) :
    aggregate.toReport root = mpiAggregate root peers ↔
      aggregate.minTotalTime = mpiReduce min (·.stats.minTotalTime) root peers ∧
      aggregate.minTime = mpiReduce min (·.stats.minTime) root peers := by
  rcases socketFold_summary folded with ⟨_, _, _, summary⟩
  have sums : ∀ column : HookReport → ℚ,
      (order.map column).sum = ((root :: peers).map column).sum :=
    fun column => (isOrder.map column).sum_eq
  have counts : ∀ column : HookReport → ℕ,
      (order.map column).sum = ((root :: peers).map column).sum :=
    fun column => (isOrder.map column).sum_eq
  have numCalls : aggregate.numCalls = mpiReduce mpiSumUnsigned (·.stats.numCalls) root peers := by
    rw [mpiReduce_sumUnsigned ((counts _).symm.trans_le calls), ← counts, summary.numCalls, map_map]
    rfl
  have threadCount : aggregate.threadCount =
      mpiReduce mpiSumUnsigned (·.stats.threadCount) root peers := by
    rw [mpiReduce_sumUnsigned ((counts _).symm.trans_le threads), ← counts, summary.threadCount,
      map_map]
    rfl
  have totalTime : aggregate.totalTime = mpiReduce (· + ·) (·.stats.totalTime) root peers := by
    rw [mpiReduce_add, ← sums, summary.totalTime, map_map]
    rfl
  have exclusiveTime : aggregate.exclusiveTime =
      mpiReduce (· + ·) (·.stats.exclusiveTime) root peers := by
    rw [mpiReduce_add, ← sums, summary.exclusiveTime, map_map]
    rfl
  have maxTotalTime : aggregate.maxTotalTime = mpiReduce max (·.stats.maxTotalTime) root peers :=
    isGreatest_columns isOrder (fun _ => rfl) summary.maxTotalTime
  have maxTime : aggregate.maxTime = mpiReduce max (·.stats.maxTime) root peers :=
    isGreatest_columns isOrder (fun _ => rfl) summary.maxTime
  have detached := marked_columns isOrder (fun _ => rfl) summary.detached
  have reattached := marked_columns isOrder (fun _ => rfl) summary.reattached
  have revisited := marked_columns isOrder (fun _ => rfl) summary.revisited
  simp only [toReport, mpiAggregate, HookReport.mk.injEq, HookStats.mk.injEq,
    numCalls, threadCount, totalTime, exclusiveTime, maxTotalTime, maxTime, detached, reattached,
    revisited, true_and, and_true]

end Comparison

namespace HookListener

def Called (listener : HookListener) : Prop :=
  0 < listener.captureStats.threadCount

/-- The ranks for which both reductions give one row, in the order of the socket fold. -/
inductive Comparable : List HookListener → Prop
  | resolved {order : List HookListener}
      (resolved : ∀ listener ∈ order, listener.address.isSome) : Comparable order
  | uncalled {first : HookListener} {others : List HookListener}
      (uncalled : ∀ listener ∈ first :: others, ¬ listener.Called)
      (unresolved : first.address = none) : Comparable (first :: others)
  | instant {order : List HookListener}
      (minTotalTime : ∃ listener ∈ order, listener.Called ∧ listener.captureStats.minTotalTime = 0)
      (minTime : ∃ listener ∈ order, listener.Called ∧ listener.captureStats.minTime = 0) :
      Comparable order

theorem comparable_iff {first : HookListener} {others : List HookListener} :
    Comparable (first :: others) ↔
      ((∀ listener ∈ first :: others, listener.address.isSome) ∨
        (∀ listener ∈ first :: others, ¬ listener.Called) ∧ ¬ first.address.isSome) ∨
      (∃ listener ∈ first :: others, listener.Called ∧ listener.captureStats.minTotalTime = 0) ∧
        ∃ listener ∈ first :: others, listener.Called ∧ listener.captureStats.minTime = 0 := by
  constructor
  · rintro (resolved | ⟨uncalled, unresolved⟩ | ⟨minTotalTime, minTime⟩)
    · exact .inl (.inl resolved)
    · exact .inl (.inr ⟨uncalled, by simp [unresolved]⟩)
    · exact .inr ⟨minTotalTime, minTime⟩
  · rintro ((resolved | ⟨uncalled, unresolved⟩) | ⟨minTotalTime, minTime⟩)
    · exact .resolved resolved
    · exact .uncalled uncalled (Option.not_isSome_iff_eq_none.mp unresolved)
    · exact .instant minTotalTime minTime

theorem unresolved_zero {listener : HookListener} (unresolved : ¬ listener.address.isSome) :
    listener.captureStats = HookStats.zero := by
  simp_all [captureStats]

theorem minima_eq_iff {first : HookListener} {others : List HookListener}
    {totalDefault timeDefault total time allTotal allTime : ℚ}
    (leastTotal : LeastPresent Called (fun listener => listener.captureStats.minTotalTime)
      first.captureStats.minTotalTime (first :: others) total)
    (leastTime : LeastPresent Called (fun listener => listener.captureStats.minTime)
      first.captureStats.minTime (first :: others) time)
    (everyTotal : LeastPresent (fun _ => True)
      (fun listener => listener.captureStats.minTotalTime) totalDefault (first :: others) allTotal)
    (everyTime : LeastPresent (fun _ => True)
      (fun listener => listener.captureStats.minTime) timeDefault (first :: others) allTime) :
    total = allTotal ∧ time = allTime ↔ Comparable (first :: others) := by
  have zeroUncalled : ∀ listener : HookListener, ¬ listener.address.isSome → ¬ listener.Called := by
    intro listener unresolved called
    rw [Called, unresolved_zero unresolved] at called
    exact absurd called (by decide)
  have totalIff := LeastPresent.eq_least_iff HookStats.dblMax_pos
    (fun listener _ => listener.captureStats_inRange.minTotalTime)
    (fun listener _ resolved uncalled =>
      (captureStats_uncalled resolved (Nat.eq_zero_of_not_pos uncalled)).1)
    (fun listener _ unresolved =>
      ⟨by rw [unresolved_zero unresolved]; rfl, zeroUncalled listener unresolved⟩)
    leastTotal everyTotal
  have timeIff := LeastPresent.eq_least_iff HookStats.fltMax_pos
    (fun listener _ => listener.captureStats_inRange.minTime)
    (fun listener _ resolved uncalled =>
      (captureStats_uncalled resolved (Nat.eq_zero_of_not_pos uncalled)).2)
    (fun listener _ unresolved =>
      ⟨by rw [unresolved_zero unresolved]; rfl, zeroUncalled listener unresolved⟩)
    leastTime everyTime
  rw [totalIff, timeIff, comparable_iff, ← or_and_left]
  exact Iff.rfl

theorem build_acceptable {identityHash : UInt64} {order : List HookListener}
    (total : (order.map (·.captureStats.totalTime)).sum ≤ dblMax)
    (exclusive : (order.map (·.captureStats.exclusiveTime)).sum ≤ dblMax)
    {listener : HookListener} (listenerMem : listener ∈ order) :
    (build identityHash listener.report).Acceptable identityHash := by
  have inRange := listener.captureStats_inRange
  have le : ∀ column : HookListener → ℚ, (∀ other, 0 ≤ column other) →
      column listener ≤ (order.map column).sum := by
    intro column nonneg
    apply single_le_sum
    · simpa using fun other _ => nonneg other
    · exact mem_map_of_mem listenerMem
  have totalLe := (le _ fun other => other.captureStats_inRange.totalTime).trans total
  have exclusiveLe := (le _ fun other => other.captureStats_inRange.exclusiveTime).trans exclusive
  exact ⟨rfl, flagged_build _ _, ⟨inRange.totalTime, totalLe⟩, inRange.maxTotalTime,
    inRange.minTotalTime, ⟨inRange.exclusiveTime, exclusiveLe⟩, inRange.maxTime, inRange.minTime⟩

theorem socketFold_accepted_iff {identityHash : UInt64} {order : List HookListener}
    (nonempty : order ≠ [])
    (calls : (order.map (·.captureStats.numCalls)).sum ≤ uint64Max)
    (threads : (order.map (·.captureStats.threadCount)).sum ≤ uint64Max) :
    (∃ aggregate, socketFold identityHash (order.map report) = some aggregate) ↔
      order.length = 1 ∨
        (order.map (·.captureStats.totalTime)).sum ≤ dblMax ∧
          (order.map (·.captureStats.exclusiveTime)).sum ≤ dblMax := by
  rcases exists_cons_of_ne_nil nonempty with ⟨first, others, rfl⟩
  have alone : others.map (fun other => build identityHash other.report) = [] ↔
      (first :: others).length = 1 := by simp
  have start : socketFold identityHash ((first :: others).map report) =
      (build identityHash first.report).mergeAll
        (others.map fun other => build identityHash other.report) := by
    simp [socketFold, comp_def]
  rw [start, mergeAll_accepted_iff, alone]
  apply or_congr_right
  constructor
  · rintro ⟨_, fits⟩
    refine ⟨?_, ?_⟩
    · simpa [comp_def, build, report] using fits.totalTime
    · simpa [comp_def, build, report] using fits.exclusiveTime
  · rintro ⟨total, exclusive⟩
    refine ⟨?_, ?_, ?_, ?_, ?_⟩
    · intro record recordMem
      rcases mem_map.mp recordMem with ⟨listener, listenerMem, rfl⟩
      exact build_acceptable total exclusive (mem_cons_of_mem _ listenerMem)
    · simpa [comp_def, build, report] using calls
    · simpa [comp_def, build, report] using threads
    · simpa [comp_def, build, report] using total
    · simpa [comp_def, build, report] using exclusive

/-- For one hook and any ranks, without overflow: the socket fold in any order gives the row of the
MPI reduction exactly for comparable ranks, and its minima are those over the ranks that saw a call.
-/
theorem aggregates_agree_iff (identityHash : UInt64) (root : HookListener)
    (peers order : List HookListener) (isOrder : order.Perm (root :: peers))
    (calls : (order.map (·.captureStats.numCalls)).sum ≤ uint64Max)
    (threads : (order.map (·.captureStats.threadCount)).sum ≤ uint64Max) :
    ((∃ aggregate, socketFold identityHash (order.map report) = some aggregate) ↔
      order.length = 1 ∨
        (order.map (·.captureStats.totalTime)).sum ≤ dblMax ∧
          (order.map (·.captureStats.exclusiveTime)).sum ≤ dblMax) ∧
    ∀ aggregate, socketFold identityHash (order.map report) = some aggregate →
      (aggregate.toReport root.report = mpiAggregate root.report (peers.map report) ↔
        Comparable order) ∧
      ((∃ listener ∈ order, listener.Called) →
        IsLeast {found | ∃ listener ∈ order,
          listener.Called ∧ listener.captureStats.minTotalTime = found} aggregate.minTotalTime ∧
        IsLeast {found | ∃ listener ∈ order,
          listener.Called ∧ listener.captureStats.minTime = found} aggregate.minTime) := by
  have nonempty : order ≠ [] := by
    rintro rfl
    exact absurd isOrder.length_eq (by simp)
  refine ⟨socketFold_accepted_iff nonempty calls threads, ?_⟩
  intro aggregate folded
  rcases socketFold_summary folded with ⟨_, _, orderEq, summary⟩
  rcases exists_cons_of_ne_nil nonempty with ⟨firstListener, otherListeners, rfl⟩
  rcases orderEq with ⟨rfl, rfl⟩
  rw [map_map] at summary
  have leastTotal := summary.minTotalTime.of_map
  have leastTime := summary.minTime.of_map
  refine ⟨?_, fun called => ⟨leastTotal.isLeast called, leastTime.isLeast called⟩⟩
  have reports : ((firstListener :: otherListeners).map report).Perm
      (root.report :: peers.map report) := isOrder.map report
  have every : ∀ column : HookReport → ℚ, LeastPresent (fun _ => True)
      (fun listener : HookListener => column listener.report) (column root.report)
      (firstListener :: otherListeners)
      (mpiReduce min column root.report (peers.map report)) := by
    intro column
    have mapped : LeastPresent (fun _ => True) column (column root.report)
        ((root :: peers).map report)
        (mpiReduce min column root.report (peers.map report)) := mpiReduce_min column
    exact mapped.of_map.perm isOrder.symm
  rw [toReport_eq_iff reports (by simpa [comp_def, report] using calls)
    (by simpa [comp_def, report] using threads) folded]
  exact minima_eq_iff leastTotal leastTime (every (·.stats.minTotalTime)) (every (·.stats.minTime))

def twoSeconds : SlotStats where
  numCalls := 1
  totalTime := 2
  exclusiveTime := 2
  maxTime := 2
  minTime := 2
  totalTime_range := by decide +kernel
  exclusiveTime_nonneg := by decide +kernel
  maxTime_range := by decide +kernel
  minTime_range := by decide +kernel

def running (slots : List SlotStats) : HookListener where
  address := some 4096
  retired := []
  slots := slots
  detached := false
  reattached := false
  revisited := false
  reattachRequestCalls := none

def neverResolved : HookListener :=
  { running [] with address := none }

theorem aggregates_agree_two_ranks :
    ∃ aggregate,
      socketFold 7 [(running []).report, (running [twoSeconds]).report] = some aggregate ∧
      aggregate.toReport (running [twoSeconds]).report =
        mpiAggregate (running [twoSeconds]).report [(running []).report] := by
  have agree := aggregates_agree_iff 7 (running [twoSeconds]) [running []]
    [running [], running [twoSeconds]] (Perm.swap _ _ _) (by decide +kernel)
    (by decide +kernel)
  rcases agree.1.mpr (.inr (by decide +kernel)) with ⟨aggregate, folded⟩
  refine ⟨aggregate, folded, (agree.2 aggregate folded).1.mpr (.resolved ?_)⟩
  decide

/-- The MPI reduction reports a minimum of zero seconds as soon as one rank never resolved
the hook. -/
theorem aggregates_differ_unresolved :
    ∃ aggregate, socketFold 7 [(running [twoSeconds]).report, neverResolved.report] =
        some aggregate ∧
      aggregate.minTotalTime = 2 ∧ aggregate.minTime = 2 ∧
      (mpiAggregate (running [twoSeconds]).report [neverResolved.report]).stats.minTotalTime = 0 ∧
      (mpiAggregate (running [twoSeconds]).report [neverResolved.report]).stats.minTime = 0 := by
  have folded : ((socketFold 7 [(running [twoSeconds]).report, neverResolved.report]).map
      fun aggregate => (aggregate.minTotalTime, aggregate.minTime)) = some (2, 2) := by
    decide +kernel
  rcases Option.map_eq_some_iff.mp folded with ⟨aggregate, accepted, minima⟩
  rw [Prod.mk.injEq] at minima
  refine ⟨aggregate, accepted, minima.1, minima.2, ?_, ?_⟩
  · decide +kernel
  · decide +kernel

end HookListener

end Peak
