import Mathlib.Algebra.BigOperators.Group.Finset.Piecewise
import Mathlib.Algebra.Order.BigOperators.Group.List
import Mathlib.Algebra.Order.Group.Defs
import Mathlib.Tactic.Abel

/-!
# Records of nested calls

A record keeps the calls of one thread: the open ones, innermost first, and the finished ones, each
with the call it was made from. The time of a finished call without the calls made directly from it
is exclusive to it.
-/

namespace Peak

open List

universe u v w

/-- A call in progress. -/
structure OpenCall (Label : Type u) (Time : Type v) where
  id : ℕ
  label : Label
  start : Time

/-- A call that has returned. -/
structure FinishedCall (Label : Type u) (Time : Type v) where
  id : ℕ
  label : Label
  start : Time
  stop : Time
  parent : Option ℕ

/-- The calls of one thread. -/
structure CallRecord (Label : Type u) (Time : Type v) where
  opened : List (OpenCall Label Time)
  finished : List (FinishedCall Label Time)
  entered : List Label

variable {Label : Type u} {Time : Type v}

def FinishedCall.duration [Sub Time] (call : FinishedCall Label Time) : Time :=
  call.stop - call.start

namespace CallRecord

def empty : CallRecord Label Time where
  opened := []
  finished := []
  entered := []

def enter (record : CallRecord Label Time) (label : Label) (time : Time) :
    CallRecord Label Time :=
  { record with
    opened := ⟨record.entered.length, label, time⟩ :: record.opened
    entered := record.entered ++ [label] }

def finish (record : CallRecord Label Time) (call : OpenCall Label Time)
    (rest : List (OpenCall Label Time)) (time : Time) : CallRecord Label Time :=
  { record with
    opened := rest
    finished := record.finished ++
      [⟨call.id, call.label, call.start, time, rest.head?.map (·.id)⟩] }

/-- Every call that was entered is either open or finished, and inner calls are younger. -/
structure Numbered (record : CallRecord Label Time) : Prop where
  descending : record.opened.Pairwise fun inner outer => outer.id < inner.id
  opened_lt : ∀ call ∈ record.opened, call.id < record.entered.length
  finished_lt : ∀ call ∈ record.finished, call.id < record.entered.length
  disjoint : ∀ call ∈ record.opened, ∀ done ∈ record.finished, done.id ≠ call.id
  parent_lt : ∀ call ∈ record.finished, ∀ parent, call.parent = some parent →
    parent < record.entered.length

theorem numbered_empty : (empty : CallRecord Label Time).Numbered where
  descending := Pairwise.nil
  opened_lt := by simp [empty]
  finished_lt := by simp [empty]
  disjoint := by simp [empty]
  parent_lt := by simp [empty]

variable {record : CallRecord Label Time}

theorem Numbered.enter (numbered : record.Numbered)
    (label : Label) (time : Time) : (record.enter label time).Numbered where
  descending := pairwise_cons.mpr ⟨numbered.opened_lt, numbered.descending⟩
  opened_lt := by
    intro call callMem
    rw [CallRecord.enter, length_append, length_singleton]
    rcases mem_cons.mp callMem with rfl | earlier
    · exact Nat.lt_succ_self _
    · exact Nat.lt_succ_of_lt (numbered.opened_lt call earlier)
  finished_lt := by
    intro call callMem
    rw [CallRecord.enter, length_append, length_singleton]
    exact Nat.lt_succ_of_lt (numbered.finished_lt call callMem)
  disjoint := by
    intro call callMem done doneMem
    rcases mem_cons.mp callMem with rfl | earlier
    · exact Nat.ne_of_lt (numbered.finished_lt done doneMem)
    · exact numbered.disjoint call earlier done doneMem
  parent_lt := by
    intro call callMem parent isParent
    rw [CallRecord.enter, length_append, length_singleton]
    exact Nat.lt_succ_of_lt (numbered.parent_lt call callMem parent isParent)

variable {call : OpenCall Label Time} {rest : List (OpenCall Label Time)}

theorem Numbered.finish (numbered : record.Numbered)
    (innermost : record.opened = call :: rest) (time : Time) :
    (record.finish call rest time).Numbered := by
  have descending := numbered.descending
  have opened_lt := numbered.opened_lt
  have disjoint := numbered.disjoint
  rw [innermost] at descending opened_lt disjoint
  rw [pairwise_cons] at descending
  rw [forall_mem_cons] at opened_lt disjoint
  refine ⟨descending.2, opened_lt.2, ?_, ?_, ?_⟩
  · exact forall_mem_append.mpr ⟨numbered.finished_lt, forall_mem_singleton.mpr opened_lt.1⟩
  · intro other otherMem
    exact forall_mem_append.mpr ⟨disjoint.2 other otherMem, forall_mem_singleton.mpr
      (Nat.ne_of_lt (descending.1 other otherMem)).symm⟩
  · intro done doneMem parent isParent
    rcases mem_append.mp doneMem with earlier | last
    · exact numbered.parent_lt done earlier parent isParent
    · rw [mem_singleton.mp last, Option.map_eq_some_iff] at isParent
      rcases isParent with ⟨outer, isOuter, rfl⟩
      exact opened_lt.2 outer (mem_of_mem_head? isOuter)

/-- Every call that was entered is counted as open or as finished. -/
def Conserved (record : CallRecord Label Time) (select : Label → Bool) : Prop :=
  record.entered.countP select =
    record.opened.countP (select ·.label) + record.finished.countP (select ·.label)

theorem Conserved.enter {select : Label → Bool}
    (conserved : record.Conserved select) (label : Label) (time : Time) :
    (record.enter label time).Conserved select := by
  simp only [Conserved, CallRecord.enter, countP_append, countP_cons, countP_nil] at conserved ⊢
  omega

theorem Conserved.finish {select : Label → Bool}
    (conserved : record.Conserved select)
    (innermost : record.opened = call :: rest)
    (time : Time) : (record.finish call rest time).Conserved select := by
  simp only [Conserved, innermost, CallRecord.finish, countP_append, countP_cons,
    countP_nil] at conserved ⊢
  omega

section Times

variable [AddCommGroup Time]

/-- The time spent in the finished calls which were made directly from a call. -/
def nestedTime (record : CallRecord Label Time) (id : ℕ) : Time :=
  ((record.finished.filter (·.parent = some id)).map (·.duration)).sum

def totalTime (record : CallRecord Label Time) (select : Label → Bool) : Time :=
  ((record.finished.filter (select ·.label)).map (·.duration)).sum

/-- The time in the calls, without those nested in them. -/
def exclusiveTime (record : CallRecord Label Time) (select : Label → Bool) : Time :=
  ((record.finished.filter (select ·.label)).map fun call =>
    call.duration - record.nestedTime call.id).sum

def outermostTime (record : CallRecord Label Time) : Time :=
  ((record.finished.filter (·.parent = none)).map (·.duration)).sum

@[simp] theorem nestedTime_enter (record : CallRecord Label Time) (label : Label)
    (time : Time) (id : ℕ) : (record.enter label time).nestedTime id = record.nestedTime id :=
  rfl

@[simp] theorem exclusiveTime_enter (record : CallRecord Label Time) (label : Label)
    (time : Time) (select : Label → Bool) :
    (record.enter label time).exclusiveTime select = record.exclusiveTime select :=
  rfl

theorem sum_filter_key {Item : Type u} {Key : Type w} [DecidableEq Key] (key : Item → Key)
    (value : Item → Time) (keys : Finset Key) (items : List Item)
    (all : ∀ item ∈ items, key item ∈ keys) :
    ∑ k ∈ keys, ((items.filter fun item => key item = k).map value).sum =
      (items.map value).sum := by
  induction items with
  | nil => simp
  | cons item items ih =>
    rw [forall_mem_cons] at all
    have split : ∀ k, (((item :: items).filter fun item => key item = k).map value).sum =
        (if key item = k then value item else 0) +
          ((items.filter fun item => key item = k).map value).sum := by
      intro k
      by_cases same : key item = k
      · simp [same]
      · simp [same]
    simp only [split, Finset.sum_add_distrib, ih all.2, Finset.sum_ite_eq, all.1, if_true,
      map_cons, sum_cons]

theorem sum_exclusiveTime (record : CallRecord Label Time) {Key : Type w} [DecidableEq Key]
    (key : Label → Key) (keys : Finset Key)
    (all : ∀ call ∈ record.finished, key call.label ∈ keys) :
    ∑ k ∈ keys, record.exclusiveTime (fun label => key label = k) =
      record.exclusiveTime fun _ => true := by
  simp only [exclusiveTime, filter_true]
  exact sum_filter_key (fun call => key call.label)
    (fun call => call.duration - record.nestedTime call.id) keys record.finished all

theorem Numbered.nestedTime_new (numbered : record.Numbered) :
    record.nestedTime record.entered.length = 0 := by
  have none : record.finished.filter (·.parent = some record.entered.length) = [] := by
    rw [filter_eq_nil_iff]
    intro call callMem isParent
    exact Nat.lt_irrefl _ (numbered.parent_lt call callMem _ (of_decide_eq_true isParent))
  rw [nestedTime, none]
  rfl

section Finish

variable {time : Time}

theorem nestedTime_finish (id : ℕ) :
    (record.finish call rest time).nestedTime id =
      record.nestedTime id + if rest.head?.map (·.id) = some id then time - call.start else 0 := by
  by_cases isParent : rest.head?.map (·.id) = some id
  · simp [nestedTime, finish, isParent, FinishedCall.duration]
  · simp [nestedTime, finish, isParent]

theorem totalTime_finish (select : Label → Bool) :
    (record.finish call rest time).totalTime select =
      record.totalTime select + if select call.label then time - call.start else 0 := by
  by_cases selected : select call.label
  · simp [totalTime, finish, selected, FinishedCall.duration]
  · simp [totalTime, finish, selected]

theorem outermostTime_finish :
    (record.finish call rest time).outermostTime =
      record.outermostTime + if rest = [] then time - call.start else 0 := by
  cases rest with
  | nil => simp [outermostTime, finish, FinishedCall.duration]
  | cons => simp [outermostTime, finish]

theorem Numbered.nestedTime_finish_of_mem (numbered : record.Numbered)
    (innermost : record.opened = call :: rest) {done : FinishedCall Label Time}
    (doneMem : done ∈ (record.finish call rest time).finished) :
    (record.finish call rest time).nestedTime done.id = record.nestedTime done.id := by
  rw [nestedTime_finish, if_neg, add_zero]
  intro isParent
  rw [Option.map_eq_some_iff] at isParent
  rcases isParent with ⟨outer, isOuter, same⟩
  exact (numbered.finish innermost time).disjoint outer (mem_of_mem_head? isOuter) done
    doneMem same.symm

theorem Numbered.exclusiveTime_finish (numbered : record.Numbered)
    (innermost : record.opened = call :: rest) (select : Label → Bool) :
    (record.finish call rest time).exclusiveTime select =
      record.exclusiveTime select +
        if select call.label then time - call.start - record.nestedTime call.id else 0 := by
  have unchanged : (record.finish call rest time).exclusiveTime select =
      (((record.finish call rest time).finished.filter (select ·.label)).map fun done =>
        done.duration - record.nestedTime done.id).sum := by
    rw [exclusiveTime]
    congr 1
    apply map_congr_left
    intro done doneMem
    rw [numbered.nestedTime_finish_of_mem innermost (mem_of_mem_filter doneMem)]
  rw [unchanged]
  by_cases selected : select call.label
  · simp [exclusiveTime, CallRecord.finish, selected, FinishedCall.duration]
  · simp [exclusiveTime, CallRecord.finish, selected]

theorem nestedTime_finish_outer {outer : OpenCall Label Time} :
    (record.finish call (outer :: rest) time).nestedTime outer.id =
      record.nestedTime outer.id + (time - call.start) := by
  rw [nestedTime_finish]
  simp

theorem Numbered.nestedTime_finish_other (numbered : record.Numbered)
    {outer : OpenCall Label Time} (innermost : record.opened = call :: outer :: rest) :
    ∀ other ∈ rest, (record.finish call (outer :: rest) time).nestedTime other.id =
      record.nestedTime other.id := by
  have descending := numbered.descending
  rw [innermost, pairwise_cons, pairwise_cons] at descending
  intro other otherMem
  have older := descending.2.1 other otherMem
  rw [nestedTime_finish, if_neg, add_zero]
  simpa using (Nat.ne_of_lt older).symm

theorem Numbered.sum_nestedTime_finish (numbered : record.Numbered)
    (innermost : record.opened = call :: rest) (time : Time) :
    (rest.map fun outer => (record.finish call rest time).nestedTime outer.id).sum =
      (rest.map fun outer => record.nestedTime outer.id).sum +
        if rest = [] then 0 else time - call.start := by
  cases rest with
  | nil => simp
  | cons =>
    rw [map_cons, sum_cons,
      map_congr_left (numbered.nestedTime_finish_other innermost),
      nestedTime_finish_outer]
    simp only [map_cons, sum_cons, cons_ne_nil, if_false]
    abel

end Finish

/-- The exclusive times add up to the time of the outermost calls and of the finished calls
within the open ones. -/
def Balanced (record : CallRecord Label Time) : Prop :=
  record.exclusiveTime (fun _ => true) =
    record.outermostTime + (record.opened.map fun call => record.nestedTime call.id).sum

theorem balanced_empty : (empty : CallRecord Label Time).Balanced := by
  simp [Balanced, empty, exclusiveTime, outermostTime]

theorem Balanced.enter (balanced : record.Balanced)
    (numbered : record.Numbered) (label : Label) (time : Time) :
    (record.enter label time).Balanced := by
  have new := numbered.nestedTime_new
  simp only [Balanced, exclusiveTime_enter, nestedTime_enter]
  rw [balanced]
  simp only [CallRecord.enter, map_cons, sum_cons, new, zero_add]
  rfl

theorem Balanced.finish (balanced : record.Balanced)
    (numbered : record.Numbered)
    (innermost : record.opened = call :: rest)
    (time : Time) : (record.finish call rest time).Balanced := by
  rw [Balanced, innermost, map_cons, sum_cons] at balanced
  have nested := numbered.sum_nestedTime_finish innermost time
  change _ = _ + (rest.map fun outer => (record.finish call rest time).nestedTime outer.id).sum
  rw [numbered.exclusiveTime_finish innermost, outermostTime_finish, nested, balanced]
  by_cases outermost : rest = []
  · simp only [outermost, if_true]
    abel
  · simp only [outermost, if_true, if_false]
    abel

end Times

section Clock

variable [AddCommGroup Time] [LinearOrder Time]

/-- The calls made from an open call fit between its start and the start of the next call, or the
present. -/
def Timely (record : CallRecord Label Time) : Time → List (OpenCall Label Time) → Prop
  | _, [] => True
  | now, call :: rest =>
    record.nestedTime call.id ≤ now - call.start ∧ record.Timely call.start rest

variable {now : Time} {calls : List (OpenCall Label Time)}

theorem Timely.later [IsOrderedAddMonoid Time] {time : Time}
    (timely : record.Timely now calls) (later : now ≤ time) :
    record.Timely time calls := by
  cases calls with
  | nil => trivial
  | cons => exact ⟨timely.1.trans (sub_le_sub_right later _), timely.2⟩

theorem Timely.congr {record other : CallRecord Label Time}
    (timely : record.Timely now calls)
    (same : ∀ call ∈ calls, other.nestedTime call.id = record.nestedTime call.id) :
    other.Timely now calls := by
  induction calls generalizing now with
  | nil => trivial
  | cons _ _ ih =>
    rw [forall_mem_cons] at same
    refine ⟨?_, ih timely.2 same.2⟩
    rw [same.1]
    exact timely.1

theorem Timely.enter [IsOrderedAddMonoid Time] {time : Time}
    (timely : record.Timely now record.opened) (numbered : record.Numbered) (later : now ≤ time)
    (label : Label) : (record.enter label time).Timely time (record.enter label time).opened := by
  refine ⟨?_, (timely.later later).congr fun _ _ => rfl⟩
  rw [nestedTime_enter, numbered.nestedTime_new, sub_self]

theorem Timely.finish [IsOrderedAddMonoid Time]
    (timely : record.Timely now record.opened) (numbered : record.Numbered)
    (innermost : record.opened = call :: rest) (time : Time) :
    (record.finish call rest time).Timely time rest := by
  rw [innermost] at timely
  cases rest with
  | nil => trivial
  | cons outer rest =>
    refine ⟨?_, timely.2.2.congr (numbered.nestedTime_finish_other innermost)⟩
    calc
      (record.finish call (outer :: rest) time).nestedTime outer.id
        = record.nestedTime outer.id + (time - call.start) := nestedTime_finish_outer
      _ ≤ (call.start - outer.start) + (time - call.start) :=
          add_le_add_left timely.2.1 _
      _ = time - outer.start := by abel

end Clock

end CallRecord

end Peak
