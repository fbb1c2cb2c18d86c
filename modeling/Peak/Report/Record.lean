import Mathlib.Algebra.Order.BigOperators.Group.List
import Peak.Common.LeastPresent
import Peak.Report.Capture

/-!
# Records of the socket report and their merge

The root folds the records of its peers into its own, one hook at a time. A record of another hook,
one that is not possible and one that would overflow a sum are refused.

Times are exact rationals. A wire value that is not a finite number stands for a rational outside of
the representable range, which the same checks refuse.
-/

namespace Peak

open List Option

/-- `PeakSocketReduceRecord`. -/
@[ext]
structure SocketRecord where
  identityHash : UInt64
  numCalls : ℕ
  totalTime : ℚ
  maxTotalTime : ℚ
  minTotalTime : ℚ
  exclusiveTime : ℚ
  maxTime : ℚ
  minTime : ℚ
  threadCount : ℕ
  detached : ℤ
  reattached : ℤ
  revisited : ℤ
deriving DecidableEq

def uint64Max : ℕ := 2 ^ 64 - 1

def nonnegativeDouble (value : ℚ) : Bool :=
  0 ≤ value && value ≤ dblMax

def nonnegativeFloat (value : ℚ) : Bool :=
  0 ≤ value && value ≤ fltMax

namespace SocketRecord

/-- `build_records` for one hook. -/
def build (identityHash : UInt64) (report : HookReport) : SocketRecord where
  identityHash := identityHash
  numCalls := report.stats.numCalls
  totalTime := report.stats.totalTime
  maxTotalTime := report.stats.maxTotalTime
  minTotalTime := report.stats.minTotalTime
  exclusiveTime := report.stats.exclusiveTime
  maxTime := report.stats.maxTime
  minTime := report.stats.minTime
  threadCount := report.stats.threadCount
  detached := if report.detached then 1 else 0
  reattached := if report.reattached then 1 else 0
  revisited := if report.revisited then 1 else 0

/-- The C expression `left || right`. -/
def logicalOr (left right : ℤ) : ℤ :=
  if left ≠ 0 ∨ right ≠ 0 then 1 else 0

/-- The checks of `merge_record`; the sums of counters are compared without wrapping. -/
def refused (aggregate incoming : SocketRecord) : Bool :=
  incoming.identityHash ≠ aggregate.identityHash ||
  (incoming.detached ≠ 0 && incoming.detached ≠ 1) ||
  (incoming.reattached ≠ 0 && incoming.reattached ≠ 1) ||
  (incoming.revisited ≠ 0 && incoming.revisited ≠ 1) ||
  !nonnegativeDouble incoming.totalTime ||
  !nonnegativeDouble incoming.maxTotalTime ||
  !nonnegativeDouble incoming.minTotalTime ||
  !nonnegativeDouble incoming.exclusiveTime ||
  !nonnegativeFloat incoming.maxTime ||
  !nonnegativeFloat incoming.minTime ||
  uint64Max < aggregate.numCalls + incoming.numCalls ||
  uint64Max < aggregate.threadCount + incoming.threadCount ||
  dblMax - incoming.totalTime < aggregate.totalTime ||
  dblMax - incoming.exclusiveTime < aggregate.exclusiveTime

/-- `merge_record`, which answers `false` without touching the aggregate if the record is
refused. -/
def merge (aggregate incoming : SocketRecord) : Option SocketRecord :=
  if refused aggregate incoming then
    none
  else
    some {
      identityHash := aggregate.identityHash
      numCalls := aggregate.numCalls + incoming.numCalls
      totalTime := aggregate.totalTime + incoming.totalTime
      maxTotalTime :=
        if incoming.maxTotalTime > aggregate.maxTotalTime then
          incoming.maxTotalTime
        else
          aggregate.maxTotalTime
      minTotalTime :=
        if incoming.threadCount > 0 ∧
            (aggregate.threadCount = 0 ∨ incoming.minTotalTime < aggregate.minTotalTime) then
          incoming.minTotalTime
        else
          aggregate.minTotalTime
      exclusiveTime := aggregate.exclusiveTime + incoming.exclusiveTime
      maxTime :=
        if incoming.maxTime > aggregate.maxTime then incoming.maxTime else aggregate.maxTime
      minTime :=
        if incoming.threadCount > 0 ∧
            (aggregate.threadCount = 0 ∨ incoming.minTime < aggregate.minTime) then
          incoming.minTime
        else
          aggregate.minTime
      threadCount := aggregate.threadCount + incoming.threadCount
      detached := logicalOr aggregate.detached incoming.detached
      reattached := logicalOr aggregate.reattached incoming.reattached
      revisited := logicalOr aggregate.revisited incoming.revisited }

/-- `records_to_snapshot` for one hook; the rest of the row is the root's own. -/
def toReport (record : SocketRecord) (root : HookReport) : HookReport where
  stats :=
    { numCalls := record.numCalls
      totalTime := record.totalTime
      maxTotalTime := record.maxTotalTime
      minTotalTime := record.minTotalTime
      exclusiveTime := record.exclusiveTime
      maxTime := record.maxTime
      minTime := record.minTime
      threadCount := record.threadCount }
  instrumented := root.instrumented || record.numCalls ≠ 0
  detached := record.detached ≠ 0
  reattached := record.reattached ≠ 0
  revisited := record.revisited ≠ 0

structure Marked (flag : SocketRecord → ℤ) (members : List SocketRecord) (value : ℤ) : Prop where
  range : value = 0 ∨ value = 1
  set_iff : value = 1 ↔ ∃ member ∈ members, flag member ≠ 0

/-- The aggregate of the members, whose minima start from those of the first one. -/
structure Summary (first : SocketRecord) (members : List SocketRecord)
    (aggregate : SocketRecord) : Prop where
  identityHash : aggregate.identityHash = first.identityHash
  numCalls : aggregate.numCalls = (members.map numCalls).sum
  totalTime : aggregate.totalTime = (members.map totalTime).sum
  maxTotalTime : IsGreatest {found | ∃ member ∈ members, member.maxTotalTime = found}
    aggregate.maxTotalTime
  minTotalTime : LeastPresent (fun member => 0 < member.threadCount) minTotalTime
    first.minTotalTime members aggregate.minTotalTime
  exclusiveTime : aggregate.exclusiveTime = (members.map exclusiveTime).sum
  maxTime : IsGreatest {found | ∃ member ∈ members, member.maxTime = found} aggregate.maxTime
  minTime : LeastPresent (fun member => 0 < member.threadCount) minTime
    first.minTime members aggregate.minTime
  threadCount : aggregate.threadCount = (members.map threadCount).sum
  detached : Marked detached members aggregate.detached
  reattached : Marked reattached members aggregate.reattached
  revisited : Marked revisited members aggregate.revisited

/-- A record with flags that are truth values, as `build_records` makes them. -/
@[mk_iff]
structure Flagged (record : SocketRecord) : Prop where
  detached : record.detached = 0 ∨ record.detached = 1
  reattached : record.reattached = 0 ∨ record.reattached = 1
  revisited : record.revisited = 0 ∨ record.revisited = 1

theorem flagged_build (identityHash : UInt64) (report : HookReport) :
    (build identityHash report).Flagged := by
  constructor <;> simp only [build] <;> split <;> simp

variable {flag : SocketRecord → ℤ} {record : SocketRecord}

theorem marked_singleton (range : flag record = 0 ∨ flag record = 1) :
    Marked flag [record] (flag record) where
  range := range
  set_iff := by
    rcases range with unset | set
    · simp [unset]
    · simp [set]

variable {members : List SocketRecord}

theorem Marked.append {value : ℤ} (marked : Marked flag members value) (incoming : SocketRecord) :
    Marked flag (members ++ [incoming]) (logicalOr value (flag incoming)) where
  range := by
    simp only [logicalOr]
    split
    · exact .inr rfl
    · exact .inl rfl
  set_iff := by
    have nonzero : value ≠ 0 ↔ value = 1 := by
      have range := marked.range
      omega
    have chosen : logicalOr value (flag incoming) = 1 ↔ value ≠ 0 ∨ flag incoming ≠ 0 := by
      simp only [logicalOr]
      split <;> simp_all
    rw [chosen, nonzero, marked.set_iff]
    simp

variable {others : List SocketRecord}

theorem Marked.unique {value other : ℤ} (marked : Marked flag members value)
    (also : Marked flag others other) (isPerm : members.Perm others) : value = other := by
  have same : value = 1 ↔ other = 1 := by
    rw [marked.set_iff, also.set_iff]
    simp only [isPerm.mem_iff]
  have range := marked.range
  have otherRange := also.range
  omega

theorem summary_singleton (flagged : record.Flagged) :
    Summary record [record] record where
  identityHash := rfl
  numCalls := by simp
  totalTime := by simp
  maxTotalTime := isGreatest_singleton_member maxTotalTime record
  minTotalTime := LeastPresent.singleton record
  exclusiveTime := by simp
  maxTime := isGreatest_singleton_member maxTime record
  minTime := LeastPresent.singleton record
  threadCount := by simp
  detached := marked_singleton flagged.detached
  reattached := marked_singleton flagged.reattached
  revisited := marked_singleton flagged.revisited

theorem leastPresent_append {value : SocketRecord → ℚ} {aggregateThreads : ℕ} {default least : ℚ}
    (threads : aggregateThreads = (members.map threadCount).sum)
    (holds : LeastPresent (fun member => 0 < member.threadCount) value default members least)
    (incoming : SocketRecord) :
    LeastPresent (fun member => 0 < member.threadCount) value default (members ++ [incoming])
      (if incoming.threadCount > 0 ∧ (aggregateThreads = 0 ∨ value incoming < least) then
        value incoming
      else
        least) := by
  have absent : aggregateThreads = 0 ↔ ∀ member ∈ members, ¬ 0 < member.threadCount := by
    rw [threads, sum_eq_zero_iff]
    simp
  split
  next improves =>
    rw [absent] at improves
    exact holds.replace improves.1 improves.2
  next kept =>
    rw [absent] at kept
    apply holds.keep
    intro present
    have notFirst : ¬ ((∀ member ∈ members, ¬ 0 < member.threadCount) ∨
        value incoming < least) := fun improves => kept ⟨present, improves⟩
    push Not at notFirst
    exact notFirst

variable {first aggregate merged : SocketRecord}

theorem Summary.merge {incoming : SocketRecord} (summary : Summary first members aggregate)
    (accepted : aggregate.merge incoming = some merged) :
    Summary first (members ++ [incoming]) merged := by
  simp only [SocketRecord.merge, ite_none_left_eq_some, some.injEq] at accepted
  rcases accepted with ⟨_, rfl⟩
  simp only [← max_def_lt]
  constructor
  · exact summary.identityHash
  · simp [summary.numCalls]
  · simp [summary.totalTime]
  · exact isGreatest_append_member summary.maxTotalTime incoming
  · exact leastPresent_append summary.threadCount summary.minTotalTime incoming
  · simp [summary.exclusiveTime]
  · exact isGreatest_append_member summary.maxTime incoming
  · exact leastPresent_append summary.threadCount summary.minTime incoming
  · simp [summary.threadCount]
  · exact summary.detached.append incoming
  · exact summary.reattached.append incoming
  · exact summary.revisited.append incoming

/-- The fold of `merge_record` over the records of other ranks. -/
def mergeAll (aggregate : SocketRecord) (incoming : List SocketRecord) : Option SocketRecord :=
  incoming.foldlM merge aggregate

variable {incoming : List SocketRecord}

theorem Summary.mergeAll (summary : Summary first members aggregate)
    (accepted : aggregate.mergeAll incoming = some merged) :
    Summary first (members ++ incoming) merged := by
  induction incoming generalizing members aggregate with
  | nil =>
    simp only [mergeAll, foldlM_nil, Option.pure_def, some.injEq] at accepted
    subst accepted
    rw [append_nil]
    exact summary
  | cons _ _ ih =>
    simp only [mergeAll, foldlM_cons, bind_eq_bind, bind_eq_some_iff] at accepted
    rcases accepted with ⟨_, mergedRecord, rest⟩
    rw [append_cons]
    exact ih (summary.merge mergedRecord) rest

theorem Summary.unique {other : SocketRecord} (summary : Summary first members aggregate)
    (also : Summary first others other) (isPerm : members.Perm others) : aggregate = other := by
  have sums : ∀ field : SocketRecord → ℚ,
      (members.map field).sum = (others.map field).sum := fun field => (isPerm.map field).sum_eq
  have counts : ∀ field : SocketRecord → ℕ,
      (members.map field).sum = (others.map field).sum := fun field => (isPerm.map field).sum_eq
  have maxTotalTime := summary.maxTotalTime
  have maxTime := summary.maxTime
  simp only [isPerm.mem_iff] at maxTotalTime maxTime
  ext1
  · rw [summary.identityHash, also.identityHash]
  · rw [summary.numCalls, also.numCalls, counts]
  · rw [summary.totalTime, also.totalTime, sums]
  · exact maxTotalTime.unique also.maxTotalTime
  · exact (summary.minTotalTime.perm isPerm).unique also.minTotalTime
  · rw [summary.exclusiveTime, also.exclusiveTime, sums]
  · exact maxTime.unique also.maxTime
  · exact (summary.minTime.perm isPerm).unique also.minTime
  · rw [summary.threadCount, also.threadCount, counts]
  · exact summary.detached.unique also.detached isPerm
  · exact summary.reattached.unique also.reattached isPerm
  · exact summary.revisited.unique also.revisited isPerm

@[mk_iff]
structure Acceptable (identityHash : UInt64) (record : SocketRecord) : Prop where
  identityHash : record.identityHash = identityHash
  flagged : record.Flagged
  totalTime : 0 ≤ record.totalTime ∧ record.totalTime ≤ dblMax
  maxTotalTime : 0 ≤ record.maxTotalTime ∧ record.maxTotalTime ≤ dblMax
  minTotalTime : 0 ≤ record.minTotalTime ∧ record.minTotalTime ≤ dblMax
  exclusiveTime : 0 ≤ record.exclusiveTime ∧ record.exclusiveTime ≤ dblMax
  maxTime : 0 ≤ record.maxTime ∧ record.maxTime ≤ fltMax
  minTime : 0 ≤ record.minTime ∧ record.minTime ≤ fltMax

/-- The sums over the aggregate and further records are representable. -/
@[mk_iff]
structure Fits (aggregate : SocketRecord) (incoming : List SocketRecord) : Prop where
  numCalls : aggregate.numCalls + (incoming.map numCalls).sum ≤ uint64Max
  threadCount : aggregate.threadCount + (incoming.map threadCount).sum ≤ uint64Max
  totalTime : aggregate.totalTime + (incoming.map totalTime).sum ≤ dblMax
  exclusiveTime : aggregate.exclusiveTime + (incoming.map exclusiveTime).sum ≤ dblMax

theorem refused_eq_false_iff (aggregate incoming : SocketRecord) :
    refused aggregate incoming = false ↔
      Acceptable aggregate.identityHash incoming ∧ Fits aggregate [incoming] := by
  simp only [refused, nonnegativeDouble, nonnegativeFloat, Bool.or_eq_false_iff,
    decide_eq_false_iff_not, Bool.and_eq_false_iff, Bool.not_eq_false', Bool.and_eq_true,
    decide_eq_true_eq, not_not, not_lt, le_sub_iff_add_le, acceptable_iff, flagged_iff, fits_iff,
    map_cons, map_nil, sum_singleton, and_assoc]

theorem merge_accepted_iff (aggregate incoming : SocketRecord) :
    (∃ merged, aggregate.merge incoming = some merged) ↔
      Acceptable aggregate.identityHash incoming ∧ Fits aggregate [incoming] := by
  rw [← refused_eq_false_iff]
  simp only [merge]
  simp

theorem merge_identityHash (accepted : aggregate.merge record = some merged) :
    merged.identityHash = aggregate.identityHash := by
  simp only [merge, ite_none_left_eq_some, some.injEq] at accepted
  rcases accepted with ⟨_, rfl⟩
  rfl

theorem fits_cons_iff (accepted : aggregate.merge record = some merged) :
    Fits aggregate (record :: incoming) ↔ Fits merged incoming := by
  simp only [merge, ite_none_left_eq_some, some.injEq] at accepted
  rcases accepted with ⟨_, rfl⟩
  simp only [fits_iff, map_cons, sum_cons, ← add_assoc]

theorem fits_head {identityHash : UInt64}
    (acceptable : ∀ other ∈ incoming, Acceptable identityHash other)
    (fits : Fits aggregate (record :: incoming)) : Fits aggregate [record] := by
  have total : 0 ≤ (incoming.map totalTime).sum := by
    apply sum_nonneg
    simpa using fun other otherMem => (acceptable other otherMem).totalTime.1
  have exclusive : 0 ≤ (incoming.map exclusiveTime).sum := by
    apply sum_nonneg
    simpa using fun other otherMem => (acceptable other otherMem).exclusiveTime.1
  rcases fits with ⟨calls, threads, totals, exclusives⟩
  simp only [map_cons, sum_cons] at calls threads totals exclusives
  constructor <;> simp only [map_cons, map_nil, sum_singleton]
  · omega
  · omega
  · linarith
  · linarith

theorem mergeAll_accepted_iff (aggregate : SocketRecord) (incoming : List SocketRecord) :
    (∃ merged, aggregate.mergeAll incoming = some merged) ↔
      incoming = [] ∨
        (∀ record ∈ incoming, Acceptable aggregate.identityHash record) ∧
          Fits aggregate incoming := by
  induction incoming generalizing aggregate with
  | nil => simp [mergeAll]
  | cons record _ ih =>
    simp only [reduceCtorEq, false_or, forall_mem_cons]
    constructor
    · rintro ⟨final, accepted⟩
      simp only [mergeAll, foldlM_cons, bind_eq_bind, bind_eq_some_iff] at accepted
      rcases accepted with ⟨merged, mergedRecord, rest⟩
      have head := (merge_accepted_iff aggregate record).mp ⟨merged, mergedRecord⟩
      rcases (ih merged).mp ⟨final, rest⟩ with rfl | ⟨acceptable, fits⟩
      · exact ⟨⟨head.1, by simp⟩, head.2⟩
      · rw [merge_identityHash mergedRecord] at acceptable
        exact ⟨⟨head.1, acceptable⟩, (fits_cons_iff mergedRecord).mpr fits⟩
    · rintro ⟨⟨head, acceptable⟩, fits⟩
      rcases (merge_accepted_iff aggregate record).mpr ⟨head, fits_head acceptable fits⟩ with
        ⟨merged, mergedRecord⟩
      rw [← merge_identityHash mergedRecord] at acceptable
      rcases (ih merged).mpr (.inr ⟨acceptable, (fits_cons_iff mergedRecord).mp fits⟩) with
        ⟨final, rest⟩
      refine ⟨final, ?_⟩
      simp only [mergeAll, foldlM_cons, mergedRecord]
      exact rest

theorem Fits.perm (fits : Fits aggregate incoming) (isPerm : incoming.Perm others) :
    Fits aggregate others := by
  simpa only [fits_iff, (isPerm.map _).sum_eq] using fits

theorem mergeAll_accepted_perm (isPerm : incoming.Perm others)
    (accepted : ∃ merged, aggregate.mergeAll incoming = some merged) :
    ∃ merged, aggregate.mergeAll others = some merged := by
  rw [mergeAll_accepted_iff] at accepted ⊢
  rcases accepted with rfl | ⟨acceptable, fits⟩
  · exact .inl isPerm.nil_eq.symm
  · refine .inr ⟨?_, fits.perm isPerm⟩
    intro record recordMem
    exact acceptable record (isPerm.mem_iff.mpr recordMem)

theorem mergeAll_perm (flagged : aggregate.Flagged) (isPerm : incoming.Perm others)
    (accepted : aggregate.mergeAll incoming = some merged) :
    aggregate.mergeAll others = some merged := by
  have start := summary_singleton flagged
  rcases mergeAll_accepted_perm isPerm ⟨merged, accepted⟩ with ⟨other, otherAccepted⟩
  rw [otherAccepted, (start.mergeAll accepted).unique (start.mergeAll otherAccepted)
    (isPerm.append_left [aggregate])]

end SocketRecord

end Peak
