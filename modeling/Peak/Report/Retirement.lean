import Mathlib.Algebra.Order.BigOperators.Group.List
import Peak.Common.LeastPresent
import Peak.Common.Runs
import Peak.Report.Capture

/-!
# Retiring the slot of a thread

When a thread ends, its slot in the listener of a hook is folded into the retired statistics and
cleared. A report is composed of these and the active slots. It is compared with a reference which
keeps the calls of every thread there ever was.
-/

namespace Peak

open List Option

structure RecordedCall where
  duration : ℚ
  exclusive : ℚ
deriving DecidableEq

def SlotCounters.addCall (slot : SlotCounters) (call : RecordedCall) : SlotCounters :=
  slot.countCall.addDuration call.duration call.exclusive

/-- `retire` is the end of the thread that has the slot, `claim` the start of another. -/
inductive SlotEvent where
  | claim (slot : ℕ)
  | call (slot : ℕ) (call : RecordedCall)
  | retire (slot : ℕ)
  | capture

structure ListenerSlots where
  retired : HookStats
  slots : List SlotCounters
  reports : List HookStats

namespace ListenerSlots

def start (capacity : ℕ) : ListenerSlots :=
  ⟨.zero, replicate capacity .zero, []⟩

variable (listener : ListenerSlots)

def retireListenerSlot (slot : ℕ) : ListenerSlots :=
  match listener.slots[slot]? with
  | none => listener
  | some counters =>
    { listener with
      retired := listener.retired.retireCounters counters
      slots := listener.slots.set slot .zero }

def capture : HookStats :=
  (listener.slots.foldl HookStats.addCounters listener.retired).markUncalled

/-- A thread that claims a slot finds it cleared. -/
def step : SlotEvent → ListenerSlots
  | .claim _ => listener
  | .call slot call => { listener with slots := listener.slots.modify slot (·.addCall call) }
  | .retire slot => listener.retireListenerSlot slot
  | .capture => { listener with reports := listener.reports ++ [listener.capture] }

end ListenerSlots

abbrev ThreadCalls := List RecordedCall

def ThreadCalls.durations (calls : ThreadCalls) : List ℚ :=
  calls.map (·.duration)

def ThreadCalls.totalTime (calls : ThreadCalls) : ℚ :=
  calls.durations.sum

def ThreadCalls.exclusiveTime (calls : ThreadCalls) : ℚ :=
  (calls.map (·.exclusive)).sum

/-- The row of a report over all threads, with the minima of a hook without any call. -/
def composeReport (minTotalTime minTime : ℚ) (threads : List ThreadCalls) : HookStats :=
  let called := threads.filter (· ≠ [])
  { numCalls := (threads.map length).sum
    totalTime := (threads.map ThreadCalls.totalTime).sum
    exclusiveTime := (threads.map ThreadCalls.exclusiveTime).sum
    threadCount := called.length
    maxTotalTime := (called.map ThreadCalls.totalTime).max?.getD 0
    minTotalTime := (called.map ThreadCalls.totalTime).min?.getD minTotalTime
    maxTime := (ThreadCalls.durations threads.flatten).max?.getD 0
    minTime := (ThreadCalls.durations threads.flatten).min?.getD minTime }

structure ThreadRecords where
  ended : List ThreadCalls
  running : List (Option ThreadCalls)
  reports : List HookStats

namespace ThreadRecords

def start (capacity : ℕ) : ThreadRecords :=
  ⟨[], replicate capacity none, []⟩

variable (records : ThreadRecords)

def threads : List ThreadCalls :=
  records.ended ++ records.running.filterMap id

def report : HookStats :=
  composeReport dblMax fltMax records.threads

/-- A slot is claimed when it is free, and only the thread that has it calls the hook. -/
def step : SlotEvent → Option ThreadRecords
  | .claim slot =>
    if records.running[slot]? = some none then
      some { records with running := records.running.set slot (some []) }
    else
      none
  | .call slot call =>
    match records.running[slot]? with
    | some (some calls) =>
      if 0 ≤ call.duration then
        some { records with running := records.running.set slot (some (calls ++ [call])) }
      else
        none
    | _ => none
  | .retire slot =>
    match records.running[slot]? with
    | some (some calls) =>
      some { records with
        ended := records.ended ++ [calls]
        running := records.running.set slot none }
    | _ => some records
  | .capture => some { records with reports := records.reports ++ [records.report] }

end ThreadRecords

def ThreadCalls.counters (calls : ThreadCalls) : SlotCounters :=
  calls.foldl SlotCounters.addCall .zero

def ThreadCalls.Nonneg (calls : ThreadCalls) : Prop :=
  ∀ call ∈ calls, 0 ≤ call.duration

open ThreadCalls

variable {listener : ListenerSlots} {records : ThreadRecords} {slot : ℕ}
  {running : List (Option ThreadCalls)} {values : List ℚ}

theorem max?_append_getD {more : List ℚ} (some : more ≠ []) (nonneg : ∀ value ∈ more, 0 ≤ value) :
    (values ++ more).max?.getD 0 =
      if more.max?.getD 0 > values.max?.getD 0 then more.max?.getD 0 else values.max?.getD 0 := by
  rcases isSome_iff_exists.mp (isSome_max?_of_ne_nil some) with ⟨last, isLast⟩
  cases greatest : values.max? with
  | none =>
    rw [max?_eq_none_iff] at greatest
    subst greatest
    have lastNonneg := nonneg last (max?_eq_some_iff.mp isLast).1
    rw [nil_append, isLast, getD_some, getD_none]
    split
    · rfl
    · exact le_antisymm (not_lt.mp ‹_›) lastNonneg
  | some =>
    rw [max?_append greatest isLast, isLast, getD_some, getD_some, getD_some, max_def_lt]

theorem min?_append_getD {more : List ℚ} (some : more ≠ []) {first : Prop} [Decidable first]
    (isFirst : first ↔ values = []) :
    (values ++ more).min?.getD 0 =
      if more.min?.getD 0 < values.min?.getD 0 ∨ first then more.min?.getD 0
      else values.min?.getD 0 := by
  rcases isSome_iff_exists.mp (isSome_min?_of_ne_nil some) with ⟨_, isLast⟩
  cases least : values.min? with
  | none =>
    rw [min?_eq_none_iff] at least
    rw [if_pos (.inr (isFirst.mpr least)), least, nil_append]
  | some =>
    have notFirst : ¬first := by
      rw [isFirst]
      rintro rfl
      simp at least
    rw [min?_append least isLast, isLast, getD_some, getD_some, getD_some, min_comm, min_def_lt]
    simp only [notFirst, or_false]

theorem ThreadCalls.counters_concat (calls : ThreadCalls) (call : RecordedCall) :
    counters (calls ++ [call]) = calls.counters.addCall call :=
  foldl_concat _ _ _ _

variable {calls : ThreadCalls}

theorem ThreadCalls.Nonneg.durations (nonneg : calls.Nonneg) :
    ∀ duration ∈ calls.durations, 0 ≤ duration := by
  intro duration durationMem
  rcases mem_map.mp durationMem with ⟨call, callMem, rfl⟩
  exact nonneg call callMem

theorem ThreadCalls.counters_eq (nonneg : calls.Nonneg) :
    calls.counters = ⟨calls.length, calls.totalTime, calls.exclusiveTime,
      calls.durations.max?.getD 0, calls.durations.min?.getD 0⟩ := by
  induction calls using reverseRecOn with
  | nil => rfl
  | append_singleton calls call ih =>
    have before : ThreadCalls.Nonneg calls := fun other otherMem =>
      nonneg other (mem_append_left _ otherMem)
    have last : ∀ value ∈ [call.duration], 0 ≤ value := by
      simpa using nonneg call (by simp)
    have isFirst : calls.length + 1 = 1 ↔ ThreadCalls.durations calls = [] := by
      simp [ThreadCalls.durations]
    have split : ThreadCalls.durations (calls ++ [call]) =
        ThreadCalls.durations calls ++ [call.duration] := by
      simp [ThreadCalls.durations]
    rw [counters_concat, ih before, split, max?_append_getD (cons_ne_nil _ _) last,
      min?_append_getD (cons_ne_nil _ _) isFirst]
    simp [SlotCounters.addCall, SlotCounters.countCall, SlotCounters.addDuration, split,
      totalTime, exclusiveTime]

theorem HookStats.retireCounters_eq {stats : HookStats} (nonneg : calls.Nonneg)
    (room : stats.threadCount ≠ 2 ^ 64 - 1) :
    stats.retireCounters calls.counters = stats.addCounters calls.counters := by
  rw [counters_eq nonneg]
  cases calls with
  | nil => simp [retireCounters, addCounters, ThreadCalls.totalTime, ThreadCalls.exclusiveTime,
      ThreadCalls.durations]
  | cons =>
    simp only [retireCounters, addCounters, ne_eq, room, length_cons, Nat.add_eq_zero_iff,
      one_ne_zero, and_false, not_false_eq_true, if_true]

theorem composeReport_concat {threads : List ThreadCalls} (nonneg : calls.Nonneg) :
    (composeReport 0 0 threads).addCounters calls.counters =
      composeReport 0 0 (threads ++ [calls]) := by
  rw [counters_eq nonneg]
  by_cases uncalled : calls = []
  · subst uncalled
    simp [HookStats.addCounters, composeReport]
  · have some : calls.durations ≠ [] := by
      simpa [ThreadCalls.durations] using uncalled
    have called : (threads ++ [calls]).filter (· ≠ []) = threads.filter (· ≠ []) ++ [calls] := by
      simp [uncalled]
    have flat : ThreadCalls.durations (threads ++ [calls]).flatten =
        ThreadCalls.durations threads.flatten ++ calls.durations := by
      simp [ThreadCalls.durations]
    have totalNonneg : ∀ value ∈ [calls.totalTime], 0 ≤ value := by
      intro value valueMem
      rw [mem_singleton.mp valueMem]
      exact sum_nonneg nonneg.durations
    have firstTotal : (threads.filter (· ≠ [])).length + 1 = 1 ↔
        (threads.filter (· ≠ [])).map totalTime = [] := by
      simp
    have firstTime : (threads.filter (· ≠ [])).length + 1 = 1 ↔
        ThreadCalls.durations threads.flatten = [] := by
      simp [ThreadCalls.durations]
    have counted : calls.length ≠ 0 := by
      simpa using uncalled
    simp only [HookStats.addCounters, composeReport, called, flat, if_pos counted, map_append,
      map_cons, map_nil]
    rw [max?_append_getD (cons_ne_nil _ _) totalNonneg, max?_append_getD some nonneg.durations,
      min?_append_getD (cons_ne_nil _ _) firstTotal, min?_append_getD some firstTime]
    simp

theorem min?_getD_of_ne_nil (some : values ≠ []) (value other : ℚ) :
    values.min?.getD value = values.min?.getD other := by
  rcases isSome_iff_exists.mp (isSome_min?_of_ne_nil some) with ⟨_, isLeast⟩
  rw [isLeast, getD_some, getD_some]

theorem markUncalled_composeReport (threads : List ThreadCalls) :
    (composeReport 0 0 threads).markUncalled = composeReport dblMax fltMax threads := by
  rw [HookStats.markUncalled]
  split
  case isTrue uncalled =>
    have none : threads.filter (· ≠ []) = [] := length_eq_zero_iff.mp uncalled
    have noDuration : ThreadCalls.durations threads.flatten = [] := by
      simpa [ThreadCalls.durations] using none
    simp only [composeReport, none, noDuration]
    rfl
  case isFalse called =>
    have some : threads.filter (· ≠ []) ≠ [] := fun none =>
      called (length_eq_zero_iff.mpr none)
    have someTotal : (threads.filter (· ≠ [])).map totalTime ≠ [] := by
      simpa using some
    have someDuration : ThreadCalls.durations threads.flatten ≠ [] := by
      simpa [ThreadCalls.durations] using some
    rw [composeReport, composeReport, min?_getD_of_ne_nil someTotal 0 dblMax,
      min?_getD_of_ne_nil someDuration 0 fltMax]

def slotCounters (running : Option ThreadCalls) : SlotCounters :=
  (running.getD []).counters

theorem foldl_addCounters (nonneg : ∀ calls, some calls ∈ running → ThreadCalls.Nonneg calls)
    (threads : List ThreadCalls) :
    (running.map slotCounters).foldl HookStats.addCounters (composeReport 0 0 threads) =
      composeReport 0 0 (threads ++ running.filterMap id) := by
  induction running generalizing threads with
  | nil => simp
  | cons thread _ ih =>
    have later := ih fun calls callsMem => nonneg calls (.tail _ callsMem)
    rw [map_cons, foldl_cons]
    cases thread with
    | none =>
      have unchanged : (composeReport 0 0 threads).addCounters (slotCounters none) =
          composeReport 0 0 threads := by
        simp [slotCounters, counters, SlotCounters.zero, HookStats.addCounters]
      rw [unchanged, later, filterMap_cons_none rfl]
    | some calls =>
      rw [slotCounters, getD_some, composeReport_concat (nonneg calls (.head _)), later,
        append_assoc]
      rfl

structure SlotsAgree (listener : ListenerSlots) (records : ThreadRecords) : Prop where
  retired : listener.retired = composeReport 0 0 records.ended
  slots : listener.slots = records.running.map slotCounters
  nonneg : ∀ calls, some calls ∈ records.running → ThreadCalls.Nonneg calls
  reports : listener.reports = records.reports

theorem SlotsAgree.capture_eq
    (agree : SlotsAgree listener records) : listener.capture = records.report := by
  rw [ListenerSlots.capture, agree.retired, agree.slots, foldl_addCounters agree.nonneg,
    markUncalled_composeReport]
  rfl

theorem slotsAgree_start (capacity : ℕ) :
    SlotsAgree (.start capacity) (.start capacity) where
  retired := rfl
  slots := by
    rw [ThreadRecords.start, ListenerSlots.start, map_replicate]
    rfl
  nonneg := by
    intro calls callsMem
    cases eq_of_mem_replicate callsMem
  reports := rfl

section Step

variable {running : List (Option ThreadCalls)} {slot : ℕ} {thread : Option ThreadCalls}

theorem slots_set_eq (isThread : running[slot]? = some thread) {counters : SlotCounters}
    (same : slotCounters thread = counters) :
    (running.map slotCounters).set slot counters = running.map slotCounters := by
  rcases List.getElem?_eq_some_iff.mp isThread with ⟨_, rfl⟩
  rw [← same, ← map_set, set_getElem_self]

theorem nonneg_set (nonneg : ∀ calls, some calls ∈ running → ThreadCalls.Nonneg calls)
    (new : ∀ calls, thread = some calls → ThreadCalls.Nonneg calls) :
    ∀ calls, some calls ∈ running.set slot thread → ThreadCalls.Nonneg calls := by
  intro calls callsMem
  rcases mem_or_eq_of_mem_set callsMem with old | isNew
  · exact nonneg calls old
  · exact new calls isNew.symm

end Step

section

variable (agree : SlotsAgree listener records)

include agree

theorem SlotsAgree.getElem? (slot : ℕ) :
    listener.slots[slot]? = (records.running[slot]?).map slotCounters := by
  rw [agree.slots, getElem?_map]

theorem SlotsAgree.claim (free : records.running[slot]? = some none) :
    SlotsAgree listener { records with running := records.running.set slot (some []) } where
  retired := agree.retired
  slots := by
    rw [map_set]
    exact agree.slots.trans (slots_set_eq free rfl).symm
  nonneg := nonneg_set agree.nonneg (by rintro _ ⟨⟩; exact nofun)
  reports := agree.reports

theorem SlotsAgree.call (busy : records.running[slot]? = some (some calls))
    {call : RecordedCall} (nonneg : 0 ≤ call.duration) :
    SlotsAgree (listener.step (.call slot call))
      { records with running := records.running.set slot (some (calls ++ [call])) } where
  retired := agree.retired
  slots := by
    rw [map_set, ← agree.slots, ListenerSlots.step, modify_eq_set_getElem?,
      agree.getElem?, busy, slotCounters, getD_some, counters_concat]
    rfl
  nonneg := by
    refine nonneg_set agree.nonneg ?_
    rintro _ ⟨⟩
    exact forall_mem_append.mpr ⟨agree.nonneg calls (mem_of_getElem? busy),
      forall_mem_singleton.mpr nonneg⟩
  reports := agree.reports

theorem SlotsAgree.retire (busy : records.running[slot]? = some (some calls))
    (few : records.ended.length + 1 < 2 ^ 64) :
    SlotsAgree (listener.retireListenerSlot slot)
      { records with
        ended := records.ended ++ [calls]
        running := records.running.set slot none } := by
  have nonneg := agree.nonneg calls (mem_of_getElem? busy)
  have counters : listener.slots[slot]? = some calls.counters := by
    rw [agree.getElem?, busy]
    rfl
  have room : (composeReport 0 0 records.ended).threadCount ≠ 2 ^ 64 - 1 := by
    have fewer : (records.ended.filter (· ≠ [])).length ≤ records.ended.length :=
      length_filter_le _ _
    change (records.ended.filter (· ≠ [])).length ≠ 2 ^ 64 - 1
    omega
  simp only [ListenerSlots.retireListenerSlot, counters]
  refine ⟨?_, ?_, ?_, agree.reports⟩
  · rw [agree.retired, HookStats.retireCounters_eq nonneg room, composeReport_concat nonneg]
  · rw [agree.slots, map_set]
    rfl
  · exact nonneg_set agree.nonneg nofun

theorem SlotsAgree.retire_free (free : ∀ calls, records.running[slot]? ≠ some (some calls)) :
    listener.retireListenerSlot slot = listener := by
  rw [ListenerSlots.retireListenerSlot, agree.getElem?]
  cases position : records.running[slot]? with
  | none => rfl
  | some thread =>
    cases thread with
    | none =>
      have slots : listener.slots.set slot .zero = listener.slots := by
        rw [agree.slots]
        exact slots_set_eq position rfl
      simp only [slots]
      rfl
    | some calls => exact absurd position (free calls)

end

theorem SlotsAgree.step {records records' : ThreadRecords}
    (agree : SlotsAgree listener records) {event : SlotEvent}
    (kept : records.step event = some records') (few : records'.ended.length < 2 ^ 64) :
    SlotsAgree (listener.step event) records' := by
  cases event with
  | claim =>
    rw [ThreadRecords.step] at kept
    split at kept
    case isTrue free =>
      cases kept
      exact agree.claim free
    case isFalse => cases kept
  | call =>
    rw [ThreadRecords.step] at kept
    split at kept
    case h_1 calls busy =>
      split at kept
      case isTrue nonneg =>
        cases kept
        exact agree.call busy nonneg
      case isFalse => cases kept
    case h_2 => cases kept
  | retire =>
    rw [ThreadRecords.step] at kept
    split at kept
    case h_1 calls busy =>
      cases kept
      exact agree.retire busy (by simpa using few)
    case h_2 free =>
      cases kept
      rw [ListenerSlots.step, agree.retire_free free]
      exact agree
  | capture =>
    cases kept
    exact ⟨agree.retired, agree.slots, agree.nonneg,
      congrArg₂ (· ++ [·]) agree.reports agree.capture_eq⟩

theorem ThreadRecords.ended_le {records records' : ThreadRecords} {event : SlotEvent}
    (kept : records.step event = some records') :
    records.ended.length ≤ records'.ended.length := by
  cases event with
  | claim =>
    rw [step] at kept
    split at kept <;> cases kept
    rfl
  | call =>
    rw [step] at kept
    split at kept
    · split at kept <;> cases kept
      rfl
    · cases kept
  | retire =>
    rw [step] at kept
    split at kept <;> cases kept
    · simp
    · rfl
  | capture =>
    cases kept
    rfl

theorem slotsAgree_run {capacity : ℕ} {history : List SlotEvent}
    (kept : history.foldlM ThreadRecords.step (.start capacity) = some records)
    (few : records.ended.length < 2 ^ 64) :
    SlotsAgree (history.foldl ListenerSlots.step (.start capacity)) records := by
  induction history using reverseRecOn generalizing records with
  | nil =>
    cases kept
    exact slotsAgree_start capacity
  | append_singleton _ _ ih =>
    rcases Runs.foldlM_concat kept with ⟨_, earlier, stepped⟩
    rw [foldl_concat]
    exact (ih earlier ((ThreadRecords.ended_le stepped).trans_lt few)).step stepped few

theorem composeReport_perm {threads others : List ThreadCalls} (perm : threads.Perm others)
    (minTotalTime minTime : ℚ) :
    composeReport minTotalTime minTime threads = composeReport minTotalTime minTime others := by
  have called := perm.filter (· ≠ [])
  have totals := called.map ThreadCalls.totalTime
  have durations := perm.flatten.map (·.duration)
  simp only [composeReport, ThreadCalls.durations, (perm.map length).sum_eq,
    (perm.map ThreadCalls.totalTime).sum_eq, (perm.map ThreadCalls.exclusiveTime).sum_eq,
    called.length_eq, max?_perm totals, min?_perm totals, max?_perm durations,
    min?_perm durations]

theorem filterMap_set_none (busy : running[slot]? = some (some calls)) :
    (calls :: (running.set slot none).filterMap id).Perm (running.filterMap id) := by
  induction running generalizing slot with
  | nil => simp at busy
  | cons thread _ ih =>
    cases slot with
    | zero =>
      rw [getElem?_cons_zero, some.injEq] at busy
      subst busy
      exact .refl _
    | succ =>
      cases thread with
      | none => exact ih busy
      | some other => exact (Perm.swap _ _ _).trans ((ih busy).cons other)

/-- The report is that of all threads there ever were, also after a slot is retired. -/
theorem retirement_invisible {capacity : ℕ} {history : List SlotEvent} {records : ThreadRecords}
    (kept : history.foldlM ThreadRecords.step (.start capacity) = some records)
    (few : records.threads.length < 2 ^ 64) :
    (history.foldl ListenerSlots.step (.start capacity)).capture = records.report ∧
    (history.foldl ListenerSlots.step (.start capacity)).reports = records.reports ∧
    ∀ slot, ((history.foldl ListenerSlots.step (.start capacity)).retireListenerSlot slot).capture =
      (history.foldl ListenerSlots.step (.start capacity)).capture := by
  have total : records.threads.length =
      records.ended.length + (records.running.filterMap id).length :=
    length_append
  have agree := slotsAgree_run kept (by omega)
  refine ⟨agree.capture_eq, agree.reports, fun slot => ?_⟩
  by_cases free : ∀ calls, records.running[slot]? ≠ some (some calls)
  · rw [agree.retire_free free]
  · push Not at free
    rcases free with ⟨_, busy⟩
    have moved := filterMap_set_none busy
    have one : 0 < (records.running.filterMap id).length := by
      rw [← moved.length_eq]
      exact Nat.succ_pos _
    rw [(agree.retire busy (by omega)).capture_eq, agree.capture_eq]
    refine composeReport_perm ?_ _ _
    rw [ThreadRecords.threads, ThreadRecords.threads, append_assoc]
    exact moved.append_left _

/-- A thread calls the hook twice and ends, another one takes over its slot. -/
def reuseHistory : List SlotEvent :=
  [.claim 1, .call 1 ⟨3, 2⟩, .call 1 ⟨1, 1⟩, .capture, .retire 1, .claim 0, .claim 1,
    .call 1 ⟨2, 2⟩, .capture]

theorem retirement_invisible_reuse :
    ∃ records, reuseHistory.foldlM ThreadRecords.step (.start 2) = some records ∧
      records.threads.length = 3 ∧
      (reuseHistory.foldl ListenerSlots.step (.start 2)).capture = records.report := by
  have kept : (reuseHistory.foldlM ThreadRecords.step (.start 2)).any
      (·.threads.length = 3) = true := by
    decide +kernel
  rcases (any_eq_true _ _).mp kept with ⟨records, isKept, three⟩
  have length := of_decide_eq_true three
  exact ⟨records, isKept, length, (retirement_invisible isKept (by rw [length]; decide)).1⟩

end Peak
