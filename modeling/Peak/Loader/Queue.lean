import Peak.Loader.Ledger

/-!
# The queue of requests

A step changes at most one request, adds one at the end or takes the first one out.
While the ownership of a request is pending, it is neither taken out nor forgotten in
the count of pending requests.
-/

namespace Peak

open List

namespace AttachRequest

variable {Handle : Type}

/-- The application has not left its reference to the request, and no pin is committed. -/
def Unresolved (request : AttachRequest Handle) : Prop :=
  request.state = .borrowed ∨ request.state = .pinning ∧ request.referenceTransferred = false

variable {request : AttachRequest Handle}

theorem Unresolved.pending (unresolved : request.Unresolved) : request.pending := by
  rcases unresolved with borrowed | pinning
  · simp [AttachRequest.pending, borrowed]
  · simp [AttachRequest.pending, pinning.1]

theorem not_unresolved_of_drainable (drainable : request.drainable) : ¬ request.Unresolved := by
  intro unresolved
  rcases unresolved with borrowed | pinning
  · simp [AttachRequest.drainable, borrowed] at drainable
  · simp [AttachRequest.drainable, pinning.1] at drainable

theorem not_pending_of_drainable (drainable : request.drainable) : request.pending = false := by
  have settled : request.state = .ready ∨ request.state = .pinFailed := by
    simpa [AttachRequest.drainable] using drainable
  rcases settled with settled | settled <;> simp [pending, settled]

/-- A request changes while it stays in the same condition, or is selected or transferred while it
is pinned. -/
structure Continues (request changed : AttachRequest Handle) : Prop where
  source : changed.sourceHandleToken = request.sourceHandleToken
  pending : changed.pending = request.pending
  consistent : request.Consistent → changed.Consistent
  unresolved : request.Consistent → changed.Unresolved → request.Unresolved
  pinning : request.state = .pinning → changed.state = .pinning
  handle : request.handle = some request.sourceHandleToken →
    changed.handle = some request.sourceHandleToken

end AttachRequest

namespace Loader

open AttachRequest

variable {Handle Call Drain : Type}

/-- What a step can do to the queue and to the count of pending requests. Only a commit resolves a
request being pinned. -/
inductive QueueStep (committing : Prop) :
    List (AttachRequest Handle) × ℕ → List (AttachRequest Handle) × ℕ → Prop
  | stay (queue : List (AttachRequest Handle)) (count : ℕ) :
      QueueStep committing (queue, count) (queue, count)
  | update (before rest : List (AttachRequest Handle)) (request changed : AttachRequest Handle)
      (count : ℕ) : request.Continues changed →
      QueueStep committing (before ++ request :: rest, count) (before ++ changed :: rest, count)
  | resolve (before rest : List (AttachRequest Handle)) (request changed : AttachRequest Handle)
      (count : ℕ) : request.pending → changed.drainable →
      (request.state = .pinning → committing) →
      QueueStep committing (before ++ request :: rest, count) (before ++ changed :: rest, count - 1)
  | add (queue : List (AttachRequest Handle)) (request : AttachRequest Handle) (count : ℕ) :
      request.state = .borrowed → request.Consistent →
      request.handle = some request.sourceHandleToken →
      (∀ other ∈ queue, other.Unresolved → other.sourceHandleToken ≠ request.sourceHandleToken) →
      QueueStep committing (queue, count) (queue ++ [request], count + 1)
  | requeue (queue : List (AttachRequest Handle)) (request : AttachRequest Handle) (count : ℕ) :
      request.drainable → QueueStep committing (queue, count) (queue ++ [request], count)
  | pop (request : AttachRequest Handle) (rest : List (AttachRequest Handle)) (count : ℕ) :
      request.drainable → QueueStep committing (request :: rest, count) (rest, count)

variable {committing : Prop} {queue queue' : List (AttachRequest Handle)} {count count' : ℕ}

section

variable (step : QueueStep committing (queue, count) (queue', count'))

include step

theorem QueueStep.forall_mem {holds : AttachRequest Handle → Prop}
    (updated : ∀ request changed, request.Continues changed → holds request → holds changed)
    (settled : ∀ request, request.drainable → holds request)
    (added : ∀ request, request.Consistent → request.handle = some request.sourceHandleToken →
      holds request)
    (all : ∀ request ∈ queue, holds request) : ∀ request ∈ queue', holds request := by
  cases step with
  | stay => exact all
  | update _ _ request _ _ continues =>
    simp only [mem_append, mem_cons] at all ⊢
    rintro other (earlier | rfl | later)
    · exact all other (.inl earlier)
    · exact updated request other continues (all request (.inr (.inl rfl)))
    · exact all other (.inr (.inr later))
  | resolve _ _ _ _ _ _ drainable =>
    simp only [mem_append, mem_cons] at all ⊢
    rintro other (earlier | rfl | later)
    · exact all other (.inl earlier)
    · exact settled other drainable
    · exact all other (.inr (.inr later))
  | add _ _ _ _ isConsistent handle =>
    simp only [mem_append, mem_singleton]
    rintro other (earlier | rfl)
    · exact all other earlier
    · exact added other isConsistent handle
  | requeue _ _ _ drainable =>
    simp only [mem_append, mem_singleton]
    rintro other (earlier | rfl)
    · exact all other earlier
    · exact settled other drainable
  | pop request =>
    intro other later
    exact all other (mem_cons_of_mem request later)

theorem QueueStep.consistent (consistent : ∀ request ∈ queue, request.Consistent) :
    ∀ request ∈ queue', request.Consistent :=
  step.forall_mem (fun _ _ continues => continues.consistent)
    (fun _ drainable => consistent_of_drainable drainable) (fun _ isConsistent _ => isConsistent)
    consistent

theorem QueueStep.counts
    (counts : count = queue.countP pending) : count' = queue'.countP pending := by
  cases step with
  | stay => exact counts
  | update _ _ _ _ _ continues =>
    simpa [countP_cons, continues.pending] using counts
  | resolve _ _ _ _ _ isPending drainable =>
    have settled := not_pending_of_drainable drainable
    simp only [countP_append, countP_cons, isPending, settled] at counts ⊢
    simp only [if_true, Bool.false_eq_true, if_false] at counts ⊢
    omega
  | add _ request _ borrowed =>
    have isPending : request.pending := by simp [pending, borrowed]
    simp [isPending, counts]
  | requeue _ _ _ drainable =>
    simpa [not_pending_of_drainable drainable] using counts
  | pop _ _ _ drainable =>
    simpa [not_pending_of_drainable drainable] using counts

end

def DistinctSources (queue : List (AttachRequest Handle)) : Prop :=
  queue.Pairwise fun first second => first.Unresolved → second.Unresolved →
    first.sourceHandleToken ≠ second.sourceHandleToken

variable {before rest : List (AttachRequest Handle)} {request changed : AttachRequest Handle}

theorem DistinctSources.replace (distinct : DistinctSources (before ++ request :: rest))
    (same : changed.Unresolved → request.Unresolved ∧
      changed.sourceHandleToken = request.sourceHandleToken) :
    DistinctSources (before ++ changed :: rest) := by
  unfold DistinctSources at distinct ⊢
  rw [pairwise_append, pairwise_cons] at distinct ⊢
  rcases distinct with ⟨first, ⟨here, later⟩, across⟩
  refine ⟨first, ⟨?_, later⟩, ?_⟩
  · intro other isLater unresolved otherUnresolved
    rw [(same unresolved).2]
    exact here other isLater (same unresolved).1 otherUnresolved
  · intro other earlier another isAnother unresolved anotherUnresolved
    rcases mem_cons.mp isAnother with rfl | isLater
    · rw [(same anotherUnresolved).2]
      exact across other earlier request mem_cons_self unresolved (same anotherUnresolved).1
    · exact across other earlier another (mem_cons_of_mem _ isLater) unresolved
        anotherUnresolved

theorem DistinctSources.ne_of_mem {other : AttachRequest Handle}
    (distinct : DistinctSources (before ++ request :: rest)) (unresolved : request.Unresolved)
    (isOther : other ∈ before ∨ other ∈ rest) (otherUnresolved : other.Unresolved) :
    other.sourceHandleToken ≠ request.sourceHandleToken := by
  unfold DistinctSources at distinct
  rw [pairwise_append, pairwise_cons] at distinct
  rcases distinct with ⟨_, ⟨here, _⟩, across⟩
  rcases isOther with earlier | later
  · exact across other earlier request mem_cons_self otherUnresolved unresolved
  · exact (here other later unresolved otherUnresolved).symm

section

variable (step : QueueStep committing (queue, count) (queue', count'))

include step

theorem QueueStep.distinct
    (consistent : ∀ request ∈ queue, request.Consistent) (distinct : DistinctSources queue) :
    DistinctSources queue' := by
  cases step with
  | stay => exact distinct
  | update _ _ request _ _ continues =>
    apply distinct.replace
    intro unresolved
    have isConsistent := consistent request (by simp)
    exact ⟨continues.unresolved isConsistent unresolved, continues.source⟩
  | resolve _ _ _ _ _ _ drainable =>
    apply distinct.replace
    intro unresolved
    exact absurd unresolved (not_unresolved_of_drainable drainable)
  | add _ _ _ _ _ _ new =>
    unfold DistinctSources
    rw [pairwise_append]
    refine ⟨distinct, pairwise_singleton _ _, ?_⟩
    intro other earlier _ isNew unresolved _
    rw [mem_singleton.mp isNew]
    exact new other earlier unresolved
  | requeue _ _ _ drainable =>
    unfold DistinctSources
    rw [pairwise_append]
    refine ⟨distinct, pairwise_singleton _ _, ?_⟩
    intro _ _ _ isRequeued _ unresolved
    rw [mem_singleton.mp isRequeued] at unresolved
    exact absurd unresolved (not_unresolved_of_drainable drainable)
  | pop => exact (pairwise_cons.mp distinct).2

theorem QueueStep.unresolved
    (consistent : ∀ request ∈ queue, request.Consistent) (isQueued : request ∈ queue')
    (unresolved : request.Unresolved) :
    (∃ earlier ∈ queue, earlier.Unresolved ∧
      earlier.sourceHandleToken = request.sourceHandleToken) ∨
      queue' = queue ++ [request] ∧ count' = count + 1 := by
  cases step with
  | stay => exact .inl ⟨request, isQueued, unresolved, rfl⟩
  | update _ _ original _ _ continues =>
    left
    simp only [mem_append, mem_cons] at isQueued
    rcases isQueued with earlier | rfl | later
    · exact ⟨request, by simp [earlier], unresolved, rfl⟩
    · have isConsistent := consistent original (by simp)
      exact ⟨original, by simp, continues.unresolved isConsistent unresolved, continues.source.symm⟩
    · exact ⟨request, by simp [later], unresolved, rfl⟩
  | resolve _ _ _ _ _ _ drainable =>
    left
    simp only [mem_append, mem_cons] at isQueued
    rcases isQueued with earlier | rfl | later
    · exact ⟨request, by simp [earlier], unresolved, rfl⟩
    · exact absurd unresolved (not_unresolved_of_drainable drainable)
    · exact ⟨request, by simp [later], unresolved, rfl⟩
  | add =>
    rcases mem_append.mp isQueued with earlier | last
    · exact .inl ⟨request, earlier, unresolved, rfl⟩
    · rw [mem_singleton.mp last]
      exact .inr ⟨rfl, rfl⟩
  | requeue _ _ _ drainable =>
    rcases mem_append.mp isQueued with earlier | last
    · exact .inl ⟨request, earlier, unresolved, rfl⟩
    · rw [mem_singleton.mp last] at unresolved
      exact absurd unresolved (not_unresolved_of_drainable drainable)
  | pop popped =>
    exact .inl ⟨request, mem_cons_of_mem popped isQueued, unresolved, rfl⟩

theorem QueueStep.pinning
    (waits : ¬ committing) (isQueued : request ∈ queue) (pinning : request.state = .pinning)
    (handle : request.handle = some request.sourceHandleToken) :
    ∃ later ∈ queue', later.state = .pinning ∧
      later.sourceHandleToken = request.sourceHandleToken ∧
      later.handle = some request.sourceHandleToken := by
  cases step with
  | stay => exact ⟨request, isQueued, pinning, rfl, handle⟩
  | update _ _ _ changed _ continues =>
    simp only [mem_append, mem_cons] at isQueued
    rcases isQueued with earlier | rfl | later
    · exact ⟨request, by simp [earlier], pinning, rfl, handle⟩
    · exact ⟨changed, by simp, continues.pinning pinning, continues.source, continues.handle handle⟩
    · exact ⟨request, by simp [later], pinning, rfl, handle⟩
  | resolve _ _ _ _ _ _ _ commits =>
    simp only [mem_append, mem_cons] at isQueued
    rcases isQueued with earlier | rfl | later
    · exact ⟨request, by simp [earlier], pinning, rfl, handle⟩
    · exact absurd (commits pinning) waits
    · exact ⟨request, by simp [later], pinning, rfl, handle⟩
  | add => exact ⟨request, by simp [isQueued], pinning, rfl, handle⟩
  | requeue => exact ⟨request, by simp [isQueued], pinning, rfl, handle⟩
  | pop _ _ _ drainable =>
    rcases mem_cons.mp isQueued with rfl | later
    · simp [AttachRequest.drainable, pinning] at drainable
    · exact ⟨request, later, pinning, rfl, handle⟩

theorem QueueStep.handled (handled : ∀ request ∈ queue, request.pending →
      request.handle = some request.sourceHandleToken) :
    ∀ request ∈ queue', request.pending → request.handle = some request.sourceHandleToken := by
  refine step.forall_mem ?_ ?_ (fun _ _ handle _ => handle) handled
  · intro request changed continues isHandled isPending
    rw [continues.pending] at isPending
    rw [continues.source]
    exact continues.handle (isHandled isPending)
  · intro request drainable isPending
    rw [not_pending_of_drainable drainable] at isPending
    cases isPending

end

theorem continues_merge (request : AttachRequest Handle) (bindingFlags : BindingFlags)
    (scope : AttachScope) : request.Continues (request.merge bindingFlags scope) where
  source := rfl
  pending := rfl
  consistent := fun consistent => consistent.merge bindingFlags scope
  unresolved := fun _ unresolved => unresolved
  pinning := fun pinning => pinning
  handle := fun handle => handle

theorem continues_select (borrowed : request.state = .borrowed) :
    request.Continues { request with state := .pinning } where
  source := rfl
  pending := by simp [pending, borrowed]
  consistent := fun consistent => consistent.select borrowed
  unresolved := fun _ _ => .inl borrowed
  pinning := fun _ => rfl
  handle := fun handle => handle

section

variable [DecidableEq Handle] {request : AttachRequest Handle} {handle : Handle}

theorem transferable_of_unresolved (unresolved : request.Unresolved) :
    request.transferable request.sourceHandleToken := by
  simpa [transferable, Unresolved] using unresolved

variable (transferable : request.transferable handle)

include transferable

theorem sourceHandleToken_of_transferable :
    request.sourceHandleToken = handle := by
  simp only [AttachRequest.transferable, decide_eq_true_eq] at transferable
  exact transferable.2

theorem unresolved_of_transferable :
    request.Unresolved := by
  simp only [AttachRequest.transferable, decide_eq_true_eq] at transferable
  simpa [Unresolved] using transferable.1

theorem not_unresolved_transfer (reference : ℕ) :
    ¬ (request.transfer handle reference).Unresolved := by
  rcases unresolved_of_transferable transferable with borrowed | pinning
  · simp [Unresolved, transfer, borrowed]
  · simp [Unresolved, transfer, pinning.1]

theorem continues_transfer (pinning : request.state = .pinning) (reference : ℕ) :
    request.Continues (request.transfer handle reference) where
  source := rfl
  pending := by simp [pending, transfer, pinning]
  consistent := fun consistent => consistent.transfer transferable reference
  unresolved := by simp [Unresolved, transfer, pinning]
  pinning := by simp [transfer, pinning]
  handle := fun _ => by simp [transfer, sourceHandleToken_of_transferable transferable]

end

variable {state after : Loader Handle Call Drain}

abbrev QueueSteps (committing : Prop) (state after : Loader Handle Call Drain) : Prop :=
  QueueStep committing (state.queue, state.pendingOwnership) (after.queue, after.pendingOwnership)

theorem queueSteps_of_eq (queue : after.queue = state.queue)
    (count : after.pendingOwnership = state.pendingOwnership) :
    QueueSteps committing state after := by
  unfold QueueSteps
  rw [queue, count]
  exact .stay _ _

theorem queueSteps_update (split : state.queue = before ++ request :: rest)
    (updated : after.queue = before ++ changed :: rest)
    (count : after.pendingOwnership = state.pendingOwnership)
    (continues : request.Continues changed) : QueueSteps committing state after := by
  unfold QueueSteps
  rw [split, updated, count]
  exact .update before rest request changed _ continues

theorem queueSteps_resolve (split : state.queue = before ++ request :: rest)
    (updated : after.queue = before ++ changed :: rest)
    (count : after.pendingOwnership = state.pendingOwnership - 1) (isPending : request.pending)
    (drainable : changed.drainable) (commits : request.state = .pinning → committing) :
    QueueSteps committing state after := by
  unfold QueueSteps
  rw [split, updated, count]
  exact .resolve before rest request changed _ isPending drainable commits

theorem queueSteps_pop (split : state.queue = request :: rest) (popped : after.queue = rest)
    (count : after.pendingOwnership = state.pendingOwnership) (drainable : request.drainable) :
    QueueSteps committing state after := by
  unfold QueueSteps
  rw [split, popped, count]
  exact .pop request rest _ drainable

theorem queueSteps_resolved {ticket : ℕ} {pin : Option ((Handle × ℕ) × Handle)}
    (pinned : state.owner = .pinned ticket pin)
    {change : AttachRequest Handle → AttachRequest Handle}
    (found : state.queue.find? (·.ownershipTicket = ticket) = some request)
    (pinning : request.state = .pinning) (drainable : (change request).drainable)
    (pc : OwnerPc Handle) :
    QueueSteps (∃ ticket pin, state.owner = .pinned ticket pin) state
      ((state.resolve ticket change).setOwner pc) := by
  rcases FirstMatch.modifyFirst_of_found change found with ⟨_, _, split, _, resolved⟩
  have isPending : request.pending := by simp [pending, pinning]
  exact queueSteps_resolve split resolved rfl isPending drainable fun _ => ⟨ticket, pin, pinned⟩

variable [DecidableEq Handle]

theorem queueSteps_enqueue {handle : Handle} {bindingFlags : BindingFlags} {scope : AttachScope} :
    QueueSteps committing state (state.enqueueRequest handle bindingFlags scope) := by
  unfold enqueueRequest
  split
  · exact queueSteps_of_eq rfl rfl
  split
  · exact queueSteps_of_eq rfl rfl
  split
  next known =>
    rcases Option.isSome_iff_exists.mp known with ⟨request, found⟩
    rcases FirstMatch.modifyFirst_of_found (·.merge bindingFlags scope) found with
      ⟨_, _, split, _, merged⟩
    exact queueSteps_update split merged rfl (continues_merge request bindingFlags scope)
  next unknown =>
    split
    · exact queueSteps_of_eq rfl rfl
    · apply QueueStep.add
      · rfl
      · exact ⟨fun _ => rfl, fun _ => rfl, fun _ => rfl⟩
      · rfl
      · intro other isQueued unresolved same
        rw [Option.not_isSome_iff_eq_none, find?_eq_none] at unknown
        apply unknown other isQueued
        have started : other.state ≠ .pinFailed := by
          rcases unresolved with borrowed | pinning
          · simp [borrowed]
          · simp [pinning.1]
        simp [matchesHandle, started, same, newRequest]

variable [DecidableEq Call] [DecidableEq Drain]

theorem queueSteps_move {event : LoaderEvent Handle Call Drain} (move : Move state event after) :
    QueueSteps (∃ ticket pin, state.owner = .pinned ticket pin) state after := by
  cases move with
  | load _ _ handle => cases handle <;> exact queueSteps_of_eq rfl rfl
  | enqueue => exact queueSteps_enqueue
  | transfer _ handle request _ found =>
    rcases FirstMatch.modifyFirst_of_found (·.transfer handle state.nextReference) found with
      ⟨_, _, split, transferable, transferred⟩
    have isPending := pending_of_transferable transferable
    by_cases borrowed : request.state = .borrowed
    · refine queueSteps_resolve split transferred (if_pos borrowed) isPending ?_ ?_
      · simp [drainable, transfer, borrowed]
      · simp [borrowed]
    · have pinning : request.state = .pinning := by simpa [pending, borrowed] using isPending
      exact queueSteps_update split transferred (if_neg borrowed)
        (continues_transfer transferable pinning _)
  | select _ _ found =>
    rcases FirstMatch.modifyFirst_of_found ({ · with state := .pinning }) found with
      ⟨_, _, split, borrowed, selected⟩
    exact queueSteps_update split selected rfl (continues_select (by simpa using borrowed))
  | own _ _ _ _ pinned found pinning =>
    exact queueSteps_resolved pinned found pinning (by simp [drainable, own]) .waiting
  | resolveUnpinned _ _ pinned found pinning =>
    exact queueSteps_resolved pinned found pinning drainable_resolveUnpinned .waiting
  | take _ _ _ _ _ _ _ queue drainable =>
    exact queueSteps_pop queue rfl rfl drainable
  | requeue _ _ _ _ request _ _ drainable =>
    exact .requeue _ request _ drainable
  | discard _ _ _ _ queue drainable => exact queueSteps_pop queue rfl rfl drainable
  | _ => exact queueSteps_of_eq rfl rfl

end Loader

end Peak
