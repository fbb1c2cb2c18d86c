import Peak.Helper.Held

/-!
# What a stop leaves behind

A stop succeeds with a snapshot of each held thread after a verification of the task directory, or
fails after a release of all threads, or fails since it could not open the task directory. Only the
last one leaves threads held.
-/

namespace Peak

open Program List

variable {helper : Helper}

/-- A failure after which the threads are released, unless the status says otherwise. -/
def GaveUp (status : HelperStatus) (helper : Helper) : Prop :=
  (Tracing helper ∧ Unrefused helper.log) ∧
    (status = .releaseFailed ∨ status ≠ .ok ∧ helper.held = [])

theorem GaveUp.of_cleanup {status intended : HelperStatus}
    (failure : intended ≠ .ok)
    (cleaned : Orderly helper ∧ (status = intended ∧ helper.held = [] ∨ status = .releaseFailed)) :
    GaveUp status helper := by
  rcases cleaned with ⟨start, ⟨same, nothing⟩ | failed⟩
  · exact ⟨start, .inr ⟨same ▸ failure, nothing⟩⟩
  · exact ⟨start, .inl failed⟩

def StopEnds : StopEnd → Helper → Prop
  | .answer status _, helper => GaveUp status helper
  | .restart, helper => (Tracing helper ∧ Unrefused helper.log) ∧ helper.held = []

/-- There is one snapshot for each held thread, with a program counter that was read while
the thread was stopped. -/
def Scanned (snapshots : List ThreadSnapshot) (helper : Helper) : Prop :=
  (Tracing helper ∧ Unrefused helper.log) ∧
    snapshots.map (·.tid) = helper.held.map (·.tid) ∧
    ∀ snapshot ∈ snapshots, .registers snapshot.tid snapshot.pc true ∈ helper.log

def Entered (snapshots : List ThreadSnapshot) (tid : ℤ) (helper : Helper) : Prop :=
  (Tracing helper ∧ Unrefused helper.log) ∧
    snapshots.map (·.tid) ++ [tid] = helper.held.map (·.tid) ∧
    ∀ snapshot ∈ snapshots, .registers snapshot.tid snapshot.pc true ∈ helper.log

namespace Scanned

variable {snapshots : List ThreadSnapshot} {helper : Helper} {tid : ℤ}

theorem hold (scanned : Scanned snapshots helper) (new : helper.isHeld tid = false) :
    Entered snapshots tid (helper.hold tid) := by
  rcases scanned with ⟨⟨tracing, unrefused⟩, same, read⟩
  refine ⟨⟨tracing.hold new, unrefused⟩, ?_, read⟩
  simp [Helper.hold, same]

end Scanned

namespace Entered

variable {snapshots : List ThreadSnapshot} {helper : Helper} {tid : ℤ}

theorem setSignal (entered : Entered snapshots tid helper) (signal : ℕ) :
    Entered snapshots tid (helper.setSignal tid signal) := by
  rcases entered with ⟨⟨tracing, unrefused⟩, same, read⟩
  refine ⟨⟨tracing.setSignal tid signal, unrefused⟩, ?_, read⟩
  rw [map_tid_setSignal]
  exact same

theorem snapshot (entered : Entered snapshots tid helper) (stopped : tid ∈ helper.stopped)
    (pc : ℕ) :
    Scanned (snapshots ++ [⟨tid, .ok, pc⟩])
      (helper.note (.registers tid pc (helper.stopped.contains tid))) := by
  rcases entered with ⟨⟨tracing, unrefused⟩, same, read⟩
  have isStopped : helper.stopped.contains tid := contains_iff_mem.mpr stopped
  rw [isStopped]
  refine ⟨⟨tracing, unrefused.note nofun⟩, ?_, ?_⟩
  · rw [map_append]
    exact same
  · intro snapshot snapshotMem
    rcases mem_append.mp snapshotMem with earlier | last
    · exact mem_append_left _ (read snapshot earlier)
    · rw [mem_singleton.mp last]
      exact mem_append_right _ (mem_singleton_self _)

end Entered

namespace Kernel

variable {kernel : Kernel} {limit deadline : ℕ} {controllerTid : ℤ}

theorem releaseAndAnswer_triple {intended : HelperStatus} {errno : Errno}
    (failure : intended ≠ .ok) :
    Triple Orderly (kernel.releaseAndAnswer intended errno) StopEnds := by
  refine triple_bind _ (cleanup_triple intended (some errno)) fun result => ?_
  exact triple_pure fun _ released => .of_cleanup failure released

theorem cleanupOrRetry_triple {intended : HelperStatus} {errno : Errno}
    (failure : intended ≠ .ok) :
    Triple Orderly (kernel.cleanupOrRetryStopSnapshot deadline intended errno) StopEnds := by
  refine triple_bind _ (cleanup_triple intended (some errno)) fun result => ?_
  rcases result with ⟨status, _⟩
  dsimp only
  split
  · exact triple_pure fun _ released => .of_cleanup failure released
  next same =>
    rw [not_not] at same
    split
    · exact triple_pure fun _ released => .of_cleanup failure released
    next retryable =>
      have nothing : ∀ helper, Orderly helper ∧
          (status = intended ∧ helper.held = [] ∨ status = .releaseFailed) →
          helper.held = [] := by
        rintro helper ⟨_, ⟨_, nothing⟩ | failed⟩
        · exact nothing
        · rw [← same, failed] at retryable
          simp [stopSnapshotErrorIsRetryable] at retryable
      refine triple_bind _ (triple_ask fun _ released => released) fun now => ?_
      split
      · exact triple_pure fun helper released =>
          ⟨released.1, .inr ⟨by decide, nothing helper released⟩⟩
      · exact triple_pure fun helper released => ⟨released.1, nothing helper released⟩

theorem deniedStatus_ne_ok (errno : Errno) : deniedStatus errno ≠ .ok := by
  rw [deniedStatus]
  split <;> decide

def EndsOr {α : Type} (goesOn : α → Helper → Prop) : Except StopEnd α → Helper → Prop
  | .error ended, helper => StopEnds ended helper
  | .ok value, helper => goesOn value helper

theorem endsOr_triple {α : Type} {pre : Helper → Prop} {program : HelperM StopEnd}
    {goesOn : α → Helper → Prop}
    (weaken : ∀ helper, pre helper → Orderly helper)
    (ends : Triple Orderly program StopEnds) :
    Triple pre (.error <$> program) (EndsOr goesOn) :=
  triple_map (triple_pre weaken ends)

theorem stopThread_triple (snapshots : List ThreadSnapshot) {tid : ℤ} :
    Triple (fun helper => Scanned snapshots helper ∧ helper.isHeld tid = false)
      (kernel.stopThread limit deadline tid)
      (EndsOr fun snapshot => Scanned (snapshots ++ [snapshot])) := by
  refine triple_bind _ (triple_ask fun _ start => start) fun answer => ?_
  cases answer with
  | some errno =>
    exact endsOr_triple (fun _ start => start.1.1)
      (cleanupOrRetry_triple (deniedStatus_ne_ok errno))
  | none =>
    refine triple_bind (fun _ => Entered snapshots tid)
      (triple_modify fun _ start => start.1.hold start.2) fun _ => ?_
    refine triple_bind _ (triple_ask fun _ entered => entered) fun answer => ?_
    cases answer with
    | some errno =>
      exact endsOr_triple (fun _ entered => entered.1)
        (cleanupOrRetry_triple (deniedStatus_ne_ok errno))
    | none =>
      refine triple_bind _ (triple_ask fun _ entered => entered) fun now => ?_
      refine triple_bind _ (waitForPtraceStop_triple
        (fun helper => Entered snapshots tid helper ∧ tid ∈ helper.stopped)
        (fun _ entered => entered) (fun _ entered => ⟨entered, mem_cons_self⟩) limit)
        fun waited => ?_
      cases waited with
      | error =>
        refine endsOr_triple (fun _ entered => entered.1) (cleanupOrRetry_triple ?_)
        split <;> decide
      | ok signal =>
        refine triple_bind
          (fun _ helper => Entered snapshots tid helper ∧ tid ∈ helper.stopped)
          (triple_modify fun _ stopped => ⟨stopped.1.setSignal signal, stopped.2⟩)
          fun _ => ?_
        refine triple_bind _ (readPc_triple
          (fun pc => Scanned (snapshots ++ [⟨tid, .ok, pc⟩])) (fun _ stopped => stopped)
          fun _ pc stopped => stopped.1.snapshot stopped.2 pc) fun read => ?_
        cases read with
        | error =>
          exact endsOr_triple (fun _ stopped => stopped.1.1) (cleanupOrRetry_triple (by decide))
        | ok => exact triple_pure fun _ scanned => scanned

theorem scanTasks_triple (rounds : ℕ) (snapshots : List ThreadSnapshot) :
    Triple (Scanned snapshots)
      (kernel.scanTasks limit deadline controllerTid rounds snapshots) (EndsOr Scanned) := by
  induction rounds generalizing snapshots with
  | zero => exact triple_throw
  | succ _ ih =>
    refine triple_bind _ (triple_ask fun _ scanned => scanned) fun answer => ?_
    rcases answer with (_ | tid) | (_ | errno)
    · exact ih snapshots
    · refine triple_get_bind fun helper => ?_
      split
      · exact triple_pre (fun _ start => start.2) (ih snapshots)
      next unknown =>
        split
        · exact endsOr_triple (fun _ start => start.2.1) (releaseAndAnswer_triple (by decide))
        · refine triple_bind _ (triple_pre ?_ (stopThread_triple snapshots)) fun stopped => ?_
          · rintro _ ⟨rfl, scanned⟩
            exact ⟨scanned, by simpa using fun isHeld => unknown (.inr isHeld)⟩
          · cases stopped with
            | error => exact triple_pure fun _ ends => ends
            | ok snapshot => exact ih (snapshots ++ [snapshot])
    · exact triple_pure fun _ scanned => scanned
    · exact endsOr_triple (fun _ scanned => scanned.1) (releaseAndAnswer_triple (by decide))

def Stopped (controllerTid : ℤ) (response : HelperResponse) (helper : Helper) : Prop :=
  response.status = .ok ∧ Verified controllerTid (Scanned response.snapshots) helper

/-- The stop could not open the task directory, and the threads are as they were then. -/
def Refused (status : HelperStatus) (helper : Helper) : Prop :=
  (status ≠ .ok ∧ status ≠ .releaseFailed) ∧
    ∃ before, (Tracing before ∧ Unrefused before.log) ∧
      helper = before.note (.refused before.attached)

def ScanEnds (controllerTid : ℤ) : Except StopEnd HelperResponse → Helper → Prop
  | .error (.answer status _), helper => GaveUp status helper ∨ Refused status helper
  | .error .restart, helper => StopEnds .restart helper
  | .ok response, helper => Stopped controllerTid response helper

theorem ScanEnds.of_stopEnds {ended : StopEnd} (ends : StopEnds ended helper) :
    ScanEnds controllerTid (.error ended) helper := by
  cases ended with
  | answer => exact .inl ends
  | restart => exact ends

theorem deniedStatus_ne_releaseFailed (errno : Errno) : deniedStatus errno ≠ .releaseFailed := by
  rw [deniedStatus]
  split <;> decide

theorem scanUntilStopped_triple (rounds : ℕ) (snapshots : List ThreadSnapshot)
    (errnoOut : Option Errno) :
    Triple (Scanned snapshots)
      (kernel.scanUntilStopped limit deadline controllerTid rounds snapshots errnoOut)
      (ScanEnds controllerTid) := by
  induction rounds generalizing snapshots errnoOut with
  | zero => exact triple_throw
  | succ _ ih =>
    refine triple_bind _ (triple_ask fun _ scanned => scanned) fun answer => ?_
    cases answer with
    | some errno =>
      refine triple_bind (fun _ => Refused (deniedStatus errno)) (triple_modify ?_)
        fun _ => triple_pure fun _ refused => .inr refused
      exact fun helper scanned =>
        ⟨⟨deniedStatus_ne_ok errno, deniedStatus_ne_releaseFailed errno⟩, helper, scanned.1, rfl⟩
    | none =>
      refine triple_bind_except (scanTasks_triple limit snapshots)
        (fun _ => triple_pure fun _ ends => .of_stopEnds ends) fun snapshots => ?_
      refine triple_bind _ (verify_triple (fun _ scanned => scanned) limit controllerTid)
        fun result => ?_
      cases result with
      | none => exact triple_pure fun _ verified => ⟨rfl, verified⟩
      | some errno =>
        dsimp only
        split
        · refine triple_bind _ (triple_ask fun _ scanned => scanned) fun now => ?_
          split
          · refine triple_map (triple_pre (fun _ scanned => scanned.1)
              (triple_post (releaseAndAnswer_triple (by decide)) ?_))
            exact fun _ _ ends => .of_stopEnds ends
          · exact ih snapshots (some errno)
        · refine triple_map (triple_pre (fun _ scanned => scanned.1)
            (triple_post (releaseAndAnswer_triple (by decide)) ?_))
          exact fun _ _ ends => .of_stopEnds ends

def StopAnswered (controllerTid : ℤ) (response : HelperResponse) (helper : Helper) : Prop :=
  Stopped controllerTid response helper ∨ GaveUp response.status helper ∨
    Refused response.status helper

theorem stopSnapshot_triple (rounds : ℕ) :
    Triple Orderly
      (kernel.stopSnapshot limit deadline controllerTid rounds) (StopAnswered controllerTid) := by
  induction rounds with
  | zero => exact triple_throw
  | succ _ ih =>
    refine triple_bind _ (cleanup_triple .ok none) fun result => ?_
    dsimp only
    split
    · exact triple_pure fun _ cleaned => .inr (.inl ⟨cleaned.1, .inl rfl⟩)
    next released =>
      rw [not_not] at released
      refine triple_bind _ (triple_pre ?_ (scanUntilStopped_triple limit [] none)) fun result => ?_
      · rintro helper ⟨start, ⟨_, nothing⟩ | failed⟩
        · exact ⟨start, by rw [nothing]; rfl, nofun⟩
        · rw [released] at failed
          cases failed
      · rcases result with (⟨status, errno⟩ | _) | response
        · exact triple_pure fun _ ends => .inr ends
        · exact triple_pre (fun _ ends => ends.1) ih
        · exact triple_pure fun _ stopped => .inl stopped

variable {response : HelperResponse}

theorem Stopped.tracing (stopped : Stopped controllerTid response helper) :
    Orderly helper := by
  rcases stopped with ⟨_, _, _, ⟨⟨tracing, unrefused⟩, _⟩, rfl, _⟩
  exact ⟨tracing, unrefused.note nofun⟩

theorem sendFailure_triple {pre : Helper → Prop} (timeless : Timeless pre)
    (snapshots : List ThreadSnapshot) :
    Triple pre (kernel.sendFailure snapshots) fun _ => pre := by
  refine triple_bind_option (triple_ask timeless) (fun _ => triple_pure fun _ start => start) ?_
  dsimp only
  split
  · exact triple_pure fun _ start => start
  · exact triple_ask timeless

theorem sendSnapshots_triple :
    Triple (Stopped controllerTid response) (kernel.sendSnapshots response)
      (StopAnswered controllerTid) := by
  refine triple_bind (fun _ helper => Stopped controllerTid response helper)
    (sendFailure_triple ?_ _) fun failure => ?_
  · rintro _ ⟨ok, before, tids, scanned, rfl, known⟩
    exact ⟨ok, { before with calls := before.calls + 1 }, tids, scanned, rfl, known⟩
  · cases failure with
    | none => exact triple_pure fun _ stopped => .inl stopped
    | some errno =>
      refine triple_bind _ (triple_pre (fun _ stopped => stopped.tracing)
        (cleanup_triple .protocolError (some errno))) fun result => ?_
      exact triple_pure fun _ cleaned => .inr (.inl (.of_cleanup (by decide) cleaned))

theorem StopAnswered.stopped
    (answered : StopAnswered controllerTid response helper) (ok : response.status = .ok) :
    Stopped controllerTid response helper := by
  rcases answered with stopped | ⟨_, failed | ⟨notOk, _⟩⟩ | ⟨⟨notOk, _⟩, _⟩
  · exact stopped
  · rw [ok] at failed
    cases failed
  · exact absurd ok notOk
  · exact absurd ok notOk

theorem stopTargetThreads_triple :
    Triple Orderly (kernel.stopTargetThreads limit controllerTid) (StopAnswered controllerTid) := by
  refine triple_bind _ (triple_ask fun _ start => start) fun now => ?_
  refine triple_bind _ (stopSnapshot_triple limit) fun response => ?_
  split
  next ok =>
    exact triple_pre (fun _ answered => answered.stopped ok) sendSnapshots_triple
  · exact triple_pure fun _ answered => answered

end Kernel

end Peak
