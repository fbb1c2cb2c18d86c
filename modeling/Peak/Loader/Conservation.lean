import Peak.Common.Runs
import Peak.Loader.Attached
import Peak.Loader.Borrowed

/-!
# Conservation of references

In every run of the loader, the references which the loader counts are those of the
application and those of PEAK.
-/

namespace Peak

namespace Loader

open AttachRequest ReferenceLedger Multiset

variable {Handle Call Drain : Type} [Fintype Call] [Fintype Drain]
  {history : List (LoaderEvent Handle Call Drain)} {state after : Loader Handle Call Drain}

/-- The application has a reference to every library that is borrowed, and a library that is being
pinned is loaded. -/
structure Lends (state : Loader Handle Call Drain) : Prop where
  borrowed : ∀ request ∈ state.queue, request.Unresolved →
    request.sourceHandleToken ∈ state.application
  pinning : ∀ ticket handle, state.owner = .pinning ticket handle →
    ∃ library ∈ state.counted, handle = some library

structure Sound (state : Loader Handle Call Drain) : Prop where
  balanced : Balanced state.ledger
  consistent : QueueConsistent state
  counts : state.pendingOwnership = state.queue.countP pending
  distinct : DistinctSources state.queue
  controlled : Controlled state.view
  handled : Handled state
  selected : Selected state
  backed : Backed state

theorem sound_start (received : Multiset Handle) :
    Sound (start received : Loader Handle Call Drain) where
  balanced := by
    constructor
    · simp [ledger, start, application, references, CallPc.reference, OwnerPc.reference,
        DrainPc.references, ShutdownPc.references]
    · simp [ledger, start, references, OwnerPc.reference, DrainPc.references, ShutdownPc.references]
    · simp [ledger, start]
    · simp [ledger, start]
  consistent := by simp [QueueConsistent, start]
  counts := rfl
  distinct := List.Pairwise.nil
  controlled := by
    constructor <;> simp [view, start, DrainPc.active, ShutdownPc.stage]
  handled := by simp [Handled, start]
  selected := by simp [Selected, start]
  backed := by constructor <;> simp [start, DrainPc.request]

theorem Sound.lends (sound : Sound state) (kept : Kept state) : Lends state := by
  have borrowed : ∀ request ∈ state.queue, request.Unresolved →
      request.sourceHandleToken ∈ state.application := by
    intro request isQueued unresolved
    exact mem_of_le state.uncommitted_le_application (kept request isQueued unresolved)
  refine ⟨borrowed, ?_⟩
  intro ticket handle isPinning
  rcases sound.selected ticket handle isPinning with
    ⟨request, isQueued, pinning, isHandle, same⟩
  refine ⟨request.sourceHandleToken, ?_, same⟩
  have balanced : state.counted = state.application + state.references.map Prod.fst :=
    sound.balanced.counted
  rw [balanced, mem_add]
  cases transferred : request.referenceTransferred with
  | false => exact .inl (borrowed request isQueued (.inr ⟨pinning, transferred⟩))
  | true =>
    right
    have isPending : request.pending := by simp [pending, pinning]
    have isConsistent := sound.consistent request isQueued
    have toClose : request.handleToClose = some (request.sourceHandleToken, request.reference) := by
      simp [handleToClose, isConsistent.owned isPending, isConsistent.unretained isPending,
        transferred, isHandle]
    have isHeld := mem_queued isQueued toClose
    have held : (request.sourceHandleToken, request.reference) ∈ state.references := by
      rw [references_eq]
      simp [isHeld]
    exact mem_map_of_mem Prod.fst held

theorem Sound.references_eq_zero (sound : Sound state) (released : state.shutdown = .released)
    (idle : ∀ drain, state.drains drain = .idle) : state.references = 0 := by
  have stage : state.view.shutdown.stage = 10 := by
    simp [view, released, ShutdownPc.stage]
  have queue : state.queue = [] := sound.controlled.emptied (by omega)
  have retained : state.retained = [] := sound.controlled.released (by omega)
  have owner : state.owner = .exited := sound.controlled.joined (by omega)
  simp [references_eq, queue, idle, retained, owner, released, DrainPc.references,
    OwnerPc.reference, ShutdownPc.references]

variable [DecidableEq Handle]

/-- The references of the application and PEAK add up to those of the loader. Every reference
acquired by PEAK is held in one place or closed. -/
structure Conserved (state : Loader Handle Call Drain) : Prop where
  counted : ∀ handle, state.counted.count handle =
    state.application.count handle + (state.references.map Prod.fst).count handle
  accounted : state.references + state.closed = state.acquired
  distinct : state.acquired.Nodup
  attached : ∀ drain request handle, (state.drains drain).request = some request →
    request.handle = some handle → (handle, request.reference) ∈ state.references

theorem Sound.conserved (sound : Sound state) : Conserved state where
  counted := by
    intro handle
    have balanced : state.counted = state.application + state.references.map Prod.fst :=
      sound.balanced.counted
    rw [balanced, count_add]
  accounted := sound.balanced.accounted
  distinct := sound.balanced.distinct
  attached := fun _ _ _ isTaken isHandle => sound.backed.mem_references isTaken isHandle

variable [DecidableEq Call] [DecidableEq Drain]

theorem Sound.step {event : LoaderEvent Handle Call Drain} (sound : Sound state)
    (stepped : state.step event = some after) : Sound after :=
  have move := Move.of_step stepped
  { balanced := sound.balanced.step (ledger_move sound.consistent move)
    consistent := (queueSteps_move move).consistent sound.consistent
    counts := (queueSteps_move move).counts sound.counts
    distinct := (queueSteps_move move).distinct sound.consistent sound.distinct
    controlled := controlled_move sound.controlled sound.counts move
    handled := (queueSteps_move move).handled sound.handled
    selected := selected_move sound.handled sound.selected move
    backed := backed_move sound.backed sound.consistent sound.controlled move }

theorem sound_run {received : Multiset Handle}
    (ran : history.foldlM step (start received) = some state) : Sound state :=
  (Runs.of_foldlM ran).preserves (sound_start received) Sound.step

theorem kept_run {received : Multiset Handle}
    (ran : history.foldlM step (start received) = some state)
    (guarded : ∀ call handle, .close call handle true ∉ history) : Kept state := by
  induction history using List.reverseRecOn generalizing state with
  | nil =>
    cases ran
    intro request isQueued
    cases isQueued
  | append_singleton _ _ ih =>
    rcases Runs.foldlM_concat ran with ⟨before, earlier, last⟩
    have sound := sound_run earlier
    have kept : Kept before := by
      apply ih earlier
      intro call handle inHistory
      exact guarded call handle (List.mem_append_left _ inHistory)
    apply kept_move kept sound.consistent sound.distinct sound.counts sound.controlled _
      (.of_step last)
    rintro call handle rfl
    exact guarded call handle (by simp)

/-- References are conserved in every interleaving. A step closes at most one reference of PEAK, one
that PEAK holds. -/
theorem loader_references_conserved (received : Multiset Handle)
    (history : List (LoaderEvent Handle Call Drain)) (state : Loader Handle Call Drain)
    (ran : history.foldlM step (start received) = some state) :
    Conserved state ∧
      (∀ event after, state.step event = some after →
        after.closed = state.closed ∨
          ∃ reference ∈ state.references, after.closed = reference ::ₘ state.closed ∧
            after.references = state.references.erase reference ∧
            after.counted = state.counted.erase reference.1) ∧
      (state.shutdown = .released → (∀ drain, state.drains drain = .idle) →
        state.references = 0 ∧ state.closed = state.acquired) ∧
      ((∀ call handle, .close call handle true ∉ history) → Lends state) := by
  have sound := sound_run ran
  have conserved := sound.conserved
  refine ⟨conserved, ?_, ?_, ?_⟩
  · intro event after stepped
    exact (ledger_move sound.consistent (.of_step stepped)).closes
  · intro released idle
    have none := sound.references_eq_zero released idle
    have accounted := conserved.accounted
    rw [none, zero_add] at accounted
    exact ⟨none, accounted⟩
  · intro guarded
    exact sound.lends (kept_run ran guarded)

end Loader

/-- The application closes a library being pinned. The pin is redundant, a drain retains the
reference of the application, and the shutdown releases it. -/
def transferDuringPin : List (LoaderEvent Bool Unit Unit) :=
  [.enable, .enter () false, .beginCallback (), .load () (some true),
    .enqueue () ⟨true, false⟩ .all, .endCallback (), .select, .close () true false, .readOwner (),
    .readPending (), .guardedDlclose (), .pin true, .commit, .closeOwned, .commit,
    .beginDrain () 0, .drainPop (), .attach () .all true .done, .drainFinish (), .drainPop (),
    .endDrain (), .drainClose (), .withdraw, .proceed, .proceed, .proceed, .proceed, .proceed,
    .proceed, .select, .proceed, .proceed, .proceed, .proceed, .proceed]

theorem loader_references_conserved_transferDuringPin :
    ∃ state : Loader Bool Unit Unit,
      transferDuringPin.foldlM Loader.step (Loader.start 0) = some state ∧
      state.acquired = {(true, 0), (true, 1)} ∧ state.closed = state.acquired ∧
      state.Conserved ∧ state.Lends := by
  have run : (transferDuringPin.foldlM Loader.step
      (Loader.start 0 : Loader Bool Unit Unit)).any (fun state =>
        state.shutdown = .released ∧ state.drains () = .idle ∧
          state.acquired = {(true, 0), (true, 1)}) = true := by
    decide +kernel
  rcases (Option.any_eq_true _ _).mp run with ⟨state, ran, ended⟩
  rcases of_decide_eq_true ended with ⟨released, idle, acquired⟩
  rcases Loader.loader_references_conserved 0 transferDuringPin state ran with
    ⟨conserved, _, closes, lends⟩
  refine ⟨state, ran, acquired, (closes released fun _ => idle).2, conserved, lends ?_⟩
  simp [transferDuringPin]

end Peak
