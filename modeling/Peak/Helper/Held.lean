import Mathlib.Data.List.Nodup
import Peak.Helper.Serve

/-!
# The threads held by the helper

While the helper runs, the threads it lists as held are exactly the attached ones.
A release that reports success leaves none of them attached.
-/

namespace Peak

open Program List

def Tracing (helper : Helper) : Prop :=
  helper.exitCode = none ∧ helper.attached = helper.held.map (·.tid) ∧
    (helper.held.map (·.tid)).Nodup ∧ ∀ thread ∈ helper.held, thread.attached

variable {helper : Helper}

theorem Tracing.attached_eq_nil (tracing : Tracing helper) (nothing : helper.held = []) :
    helper.attached = [] := by
  rw [tracing.2.1, nothing]
  rfl

theorem isHeld_iff {tid : ℤ} : helper.isHeld tid ↔ tid ∈ helper.held.map (·.tid) := by
  simp [Helper.isHeld]

theorem Tracing.hold {tid : ℤ} (tracing : Tracing helper) (new : helper.isHeld tid = false) :
    Tracing (helper.hold tid) := by
  rcases tracing with ⟨running, attached, distinct, live⟩
  refine ⟨running, ?_, ?_, ?_⟩
  · simp [Helper.hold, attached]
  · rw [Helper.hold, map_append, map_singleton, nodup_append]
    refine ⟨distinct, nodup_singleton _, ?_⟩
    intro other otherMem new' isNew same
    rw [mem_singleton] at isNew
    rw [same, isNew, ← isHeld_iff, new] at otherMem
    cases otherMem
  · exact forall_mem_append.mpr ⟨live, forall_mem_singleton.mpr rfl⟩

theorem map_tid_setSignal (helper : Helper) (tid : ℤ) (signal : ℕ) :
    (helper.setSignal tid signal).held.map (·.tid) = helper.held.map (·.tid) := by
  simp only [Helper.setSignal, Helper.setHeld, map_map]
  apply map_congr_left
  intro thread _
  simp only [Function.comp_apply]
  split <;> rfl

theorem Tracing.setSignal (tracing : Tracing helper) (tid : ℤ) (signal : ℕ) :
    Tracing (helper.setSignal tid signal) := by
  rcases tracing with ⟨running, attached, distinct, live⟩
  refine ⟨running, ?_, ?_, ?_⟩
  · rw [map_tid_setSignal]
    exact attached
  · rw [map_tid_setSignal]
    exact distinct
  · intro thread threadMem
    rcases mem_map.mp threadMem with ⟨old, oldMem, rfl⟩
    split
    · exact live old oldMem
    · exact live old oldMem

def Unrefused (log : List HelperEvent) : Prop :=
  ∀ attached, .refused attached ∉ log

/-- The list of held threads is true, and no scan was refused. -/
abbrev Orderly (helper : Helper) : Prop :=
  Tracing helper ∧ Unrefused helper.log

theorem Unrefused.note {log : List HelperEvent} {event : HelperEvent} (unrefused : Unrefused log)
    (other : ∀ attached, event ≠ .refused attached) : Unrefused (log ++ [event]) := by
  intro attached isLogged
  rcases mem_append.mp isLogged with earlier | last
  · exact unrefused attached earlier
  · exact other attached (mem_singleton.mp last).symm

def Timeless (condition : Helper → Prop) : Prop :=
  ∀ helper, condition helper → condition { helper with calls := helper.calls + 1 }

variable {pre : Helper → Prop}

theorem triple_ask {α : Type} {answer : ℕ → α} (timeless : Timeless pre) :
    Triple pre (ask answer) fun _ => pre := by
  intro helper value final start ok
  cases ok
  exact timeless helper start

namespace Kernel

variable {kernel : Kernel} {logged : List HelperEvent → Prop}

def Detaching (kept : List ℤ) (threads : List HeldThread) (helper : Helper) : Prop :=
  helper.exitCode = none ∧ helper.attached = kept ++ threads.map (·.tid) ∧
    (kept ++ threads.map (·.tid)).Nodup ∧ ∀ thread ∈ threads, thread.attached

variable {kept : List ℤ} {thread : HeldThread} {threads : List HeldThread} {helper : Helper}

theorem Detaching.drop (detaching : Detaching kept (thread :: threads) helper) :
    Detaching kept threads (helper.drop thread.tid) := by
  rcases detaching with ⟨running, attached, distinct, live⟩
  rw [map_cons, perm_middle.nodup_iff, nodup_cons] at distinct
  refine ⟨running, ?_, distinct.2, fun other otherMem => live other (mem_cons_of_mem _ otherMem)⟩
  change helper.attached.filter _ = _
  rw [attached, map_cons]
  rw [mem_append, not_or] at distinct
  have keptOnly : kept.filter (· ≠ thread.tid) = kept := by
    rw [filter_eq_self]
    intro tid tidMem
    simpa using fun same : tid = thread.tid => distinct.1.1 (same ▸ tidMem)
  have restOnly : (threads.map (·.tid)).filter (· ≠ thread.tid) = threads.map (·.tid) := by
    rw [filter_eq_self]
    intro tid tidMem
    simpa using fun same : tid = thread.tid => distinct.1.2 (same ▸ tidMem)
  rw [filter_append, keptOnly, filter_cons, restOnly]
  simp

theorem Detaching.keep (detaching : Detaching kept (thread :: threads) helper) :
    Detaching (kept ++ [thread.tid]) threads helper := by
  rcases detaching with ⟨running, attached, distinct, live⟩
  rw [map_cons, append_cons] at attached distinct
  exact ⟨running, attached, distinct, fun other otherMem => live other (.tail _ otherMem)⟩

theorem Detaching.retain (detaching : Detaching (kept ++ [thread.tid]) threads helper)
    (live : thread.attached) : Detaching kept (thread :: threads) helper := by
  rcases detaching with ⟨running, attached, distinct, restLive⟩
  rw [← append_cons] at attached distinct
  exact ⟨running, attached, distinct, forall_mem_cons.mpr ⟨live, restLive⟩⟩

theorem detachEach_triple (threads : List HeldThread) (kept : List ℤ) :
    Triple (fun helper => Detaching kept threads helper ∧ logged helper.log)
      (kernel.detachEach threads)
      fun result helper => Detaching kept result.1 helper ∧ logged helper.log := by
  induction threads generalizing kept with
  | nil => exact triple_pure fun _ start => start
  | cons thread threads ih =>
    by_cases live : thread.attached
    · rw [detachEach, if_pos live]
      have released : Triple
          (fun helper => Detaching kept (thread :: threads) helper ∧ logged helper.log)
          (do modify (·.drop thread.tid); kernel.detachEach threads)
          fun result helper => Detaching kept result.1 helper ∧ logged helper.log :=
        triple_bind (fun _ helper => Detaching kept threads helper ∧ logged helper.log)
          (triple_modify fun _ start => ⟨start.1.drop, start.2⟩) fun _ => ih kept
      refine triple_bind _ (triple_ask fun _ start => start) fun answer => ?_
      cases answer with
      | none => exact released
      | some =>
        refine triple_bind
          (fun _ helper => Detaching kept (thread :: threads) helper ∧ logged helper.log)
          ?_ fun vanished => ?_
        · rw [taskVanished]
          split
          · exact triple_bind _ (triple_ask fun _ start => start)
              fun _ => triple_pure fun _ start => start
          · exact triple_pure fun _ start => start
        · cases vanished with
          | true => exact released
          | false =>
            refine triple_bind _ (triple_pre ?_ (ih (kept ++ [thread.tid]))) ?_
            · exact fun _ start => ⟨start.1.keep, start.2⟩
            · exact fun _ => triple_pure fun _ rest => ⟨rest.1.retain live, rest.2⟩
    · intro helper _ _ start _
      exact absurd (start.1.2.2.2 thread (.head _)) live

theorem detachHeldThreads_triple :
    Triple (fun helper => Tracing helper ∧ logged helper.log) kernel.detachHeldThreads
      fun result helper => (Tracing helper ∧ logged helper.log) ∧
        (result.1 = .ok ∧ helper.held = [] ∨ result.1 = .ptraceError) := by
  refine triple_get_bind fun helper => ?_
  refine triple_bind
    (fun result helper => Detaching [] result.1 helper ∧ logged helper.log)
    (triple_pre ?_ (detachEach_triple helper.held [])) fun result => ?_
  · rintro _ ⟨rfl, tracing, log⟩
    exact ⟨tracing, log⟩
  · refine triple_bind (fun _ helper => (Tracing helper ∧ logged helper.log) ∧
      helper.held = result.1) ?_ fun _ => ?_
    · exact triple_modify fun _ detached => ⟨detached, rfl⟩
    · refine triple_pure fun helper detached => ⟨detached.1, ?_⟩
      rw [detached.2]
      by_cases nothing : result.1 = []
      · exact .inl ⟨if_pos nothing, nothing⟩
      · exact .inr (if_neg nothing)

theorem cleanup_triple (intended : HelperStatus) (errno : Option Errno) :
    Triple (fun helper => Tracing helper ∧ logged helper.log)
      (kernel.cleanupHeldThreadsOrReleaseFailed intended errno)
      fun result helper => (Tracing helper ∧ logged helper.log) ∧
        (result.1 = intended ∧ helper.held = [] ∨ result.1 = .releaseFailed) := by
  refine triple_get_bind fun helper => ?_
  split
  next nothing =>
    refine triple_pure ?_
    rintro _ ⟨rfl, start⟩
    exact ⟨start, .inl ⟨rfl, nothing⟩⟩
  · refine triple_bind _ (triple_pre (fun _ start => start.2) detachHeldThreads_triple)
      fun result => ?_
    dsimp only
    split
    next released =>
      refine triple_pure fun helper detached => ⟨detached.1, .inl ⟨rfl, ?_⟩⟩
      rcases detached.2 with ⟨_, nothing⟩ | failed
      · exact nothing
      · rw [released] at failed
        cases failed
    · exact triple_pure fun _ detached => ⟨detached.1, .inr rfl⟩

variable {tid : ℤ}

theorem readPc_triple (post : ℕ → Helper → Prop) (timeless : Timeless pre)
    (noted : ∀ helper pc, pre helper →
      post pc (helper.note (.registers tid pc (helper.stopped.contains tid)))) :
    Triple pre (kernel.readPc tid) fun result helper =>
      match result with
      | .error _ => pre helper
      | .ok pc => post pc helper := by
  refine triple_bind_except (triple_ask timeless)
    (fun _ => triple_pure fun _ start => start) fun pc => ?_
  refine triple_get_bind fun helper => ?_
  refine triple_bind (fun _ => post pc) (triple_modify ?_) fun _ =>
    triple_pure fun _ holds => holds
  rintro _ ⟨rfl, start⟩
  exact noted _ pc start

theorem waitForPtraceStop_triple (post : Helper → Prop) (timeless : Timeless pre) {deadline : ℕ}
    (stopped : ∀ helper, pre helper → post (helper.stop tid)) (rounds : ℕ) :
    Triple pre (kernel.waitForPtraceStop tid deadline rounds) fun result helper =>
      match result with
      | .error _ => pre helper
      | .ok _ => post helper := by
  induction rounds with
  | zero => exact triple_throw
  | succ _ ih =>
    refine triple_bind _ (triple_ask timeless) fun answer => ?_
    cases answer with
    | failed =>
      dsimp only
      split
      · exact ih
      · exact triple_pure fun _ start => start
    | nothing =>
      refine triple_bind _ (triple_ask timeless) fun now => ?_
      split
      · exact triple_pure fun _ start => start
      · refine triple_bind _ (triple_ask timeless) fun woken => ?_
        split
        · exact ih
        · exact ih
        · exact triple_pure fun _ start => start
        · exact triple_pure fun _ start => start
    | stopped =>
      exact triple_bind (fun _ => post) (triple_modify stopped)
        fun _ => triple_pure fun _ holds => holds
    | ended => exact triple_pure fun _ start => start
    | other => exact ih

theorem waitForSingleStepStop_triple (timeless : Timeless pre) {deadline : ℕ}
    (stopped : ∀ helper, pre helper → pre (helper.stop tid)) (rounds : ℕ) :
    Triple pre (kernel.waitForSingleStepStop tid deadline rounds) fun _ => pre := by
  induction rounds with
  | zero => exact triple_throw
  | succ _ ih =>
    refine triple_bind _ (triple_ask timeless) fun answer => ?_
    cases answer with
    | failed =>
      dsimp only
      split
      · exact ih
      · exact triple_pure fun _ start => start
    | nothing =>
      refine triple_bind _ (triple_ask timeless) fun now => ?_
      split
      · exact triple_pure fun _ start => start
      · exact ih
    | stopped =>
      exact triple_bind (fun _ => pre) (triple_modify stopped)
        fun _ => triple_pure fun _ holds => holds
    | ended => exact triple_pure fun _ start => start
    | other => exact ih

/-- The helper after a complete verification: only the controller and held threads were
listed. -/
def Verified (controllerTid : ℤ) (condition : Helper → Prop) (helper : Helper) : Prop :=
  ∃ before tids, condition before ∧ helper = before.note (.listed tids) ∧
    ∀ tid ∈ tids, tid = controllerTid ∨ before.isHeld tid

theorem verifyEach_triple (timeless : Timeless pre) {controllerTid : ℤ} (rounds : ℕ)
    (tids : List ℤ) :
    Triple
      (fun helper => pre helper ∧ ∀ tid ∈ tids, tid = controllerTid ∨ helper.isHeld tid)
      (kernel.verifyEach controllerTid rounds tids) fun result helper =>
        match result with
        | some _ => pre helper
        | none => Verified controllerTid pre helper := by
  induction rounds generalizing tids with
  | zero => exact triple_throw
  | succ _ ih =>
    refine triple_bind _ (triple_ask fun helper start => ⟨timeless helper start.1, start.2⟩)
      fun answer => ?_
    rcases answer with (_ | tid) | (_ | errno)
    · exact ih tids
    · refine triple_get_bind fun helper => ?_
      split
      · exact triple_pure fun _ start => start.2.1
      next known =>
        refine triple_pre ?_ (ih (tids ++ [tid]))
        rintro _ ⟨rfl, start, listed⟩
        refine ⟨start, forall_mem_append.mpr ⟨listed, forall_mem_singleton.mpr ?_⟩⟩
        by_cases same : tid = controllerTid
        · exact .inl same
        · exact .inr (by simpa [same] using known)
    · refine triple_bind (fun _ => Verified controllerTid pre) (triple_modify ?_)
        fun _ => triple_pure fun _ holds => holds
      exact fun helper start => ⟨helper, tids, start.1, rfl, start.2⟩
    · exact triple_pure fun _ start => start.1

theorem verify_triple (timeless : Timeless pre) (limit : ℕ) (controllerTid : ℤ) :
    Triple pre (kernel.verifyNoUnstoppedThreads limit controllerTid) fun result helper =>
      match result with
      | some _ => pre helper
      | none => Verified controllerTid pre helper := by
  refine triple_bind_option (triple_ask timeless) (fun _ => triple_pure fun _ start => start) ?_
  exact triple_pre (fun _ start => ⟨start, nofun⟩) (verifyEach_triple timeless limit [])

end Kernel

end Peak
