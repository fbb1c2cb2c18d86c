import Mathlib.Algebra.BigOperators.Group.Finset.Piecewise
import Mathlib.Tactic.Abel
import Peak.Common.ReferenceLedger
import Peak.Loader.Moves

/-!
# The references of the loader

Every step of the loader is a step of a ledger of references, in which the application is
the client and PEAK the keeper.
-/

namespace Peak

open ReferenceLedger Function Finset Multiset List AttachRequest

@[simp]
theorem present_none {α : Type} : present (none : Option α) = 0 := rfl

@[simp]
theorem present_some {α : Type} (reference : α) : present (some reference) = {reference} := rfl

structure AttachRequest.Consistent {Handle : Type} (request : AttachRequest Handle) : Prop where
  untransferred : request.state = .borrowed → request.referenceTransferred = false
  owned : request.pending → request.handleOwned = request.referenceTransferred
  unretained : request.pending → request.handleRetained = false

namespace AttachRequest

variable {Handle : Type} {request : AttachRequest Handle}

theorem consistent_of_drainable (drainable : request.drainable) : request.Consistent := by
  have settled : request.state = .ready ∨ request.state = .pinFailed := by
    simpa [AttachRequest.drainable] using drainable
  constructor <;> rcases settled with settled | settled <;> simp [pending, settled]

theorem Consistent.handleToClose_of_untransferred (consistent : request.Consistent)
    (isPending : request.pending) (untransferred : request.referenceTransferred = false) :
    request.handleToClose = none := by
  simp [handleToClose, consistent.owned isPending, untransferred]

@[simp]
theorem handleToClose_merge (bindingFlags : BindingFlags) (scope : AttachScope) :
    (request.merge bindingFlags scope).handleToClose = request.handleToClose := rfl

theorem Consistent.merge (consistent : request.Consistent) (bindingFlags : BindingFlags)
    (scope : AttachScope) : (request.merge bindingFlags scope).Consistent :=
  ⟨consistent.untransferred, consistent.owned, consistent.unretained⟩

theorem Consistent.select (consistent : request.Consistent) (borrowed : request.state = .borrowed) :
    Consistent { request with state := .pinning } := by
  have isPending : request.pending := by simp [pending, borrowed]
  refine ⟨by simp, ?_, ?_⟩
  · exact fun _ => consistent.owned isPending
  · exact fun _ => consistent.unretained isPending

section

variable [DecidableEq Handle] {handle : Handle}

theorem pending_of_transferable (transferable : request.transferable handle) : request.pending := by
  simp only [AttachRequest.transferable, decide_eq_true_eq] at transferable
  rcases transferable.1 with borrowed | pinning
  · simp [pending, borrowed]
  · simp [pending, pinning.1]

variable (consistent : request.Consistent) (transferable : request.transferable handle)

include consistent transferable

theorem Consistent.untransferred_of_transferable : request.referenceTransferred = false := by
  simp only [AttachRequest.transferable, decide_eq_true_eq] at transferable
  rcases transferable.1 with borrowed | pinning
  · exact consistent.untransferred borrowed
  · simpa using pinning.2

theorem Consistent.handleToClose_transfer (reference : ℕ) :
    (request.transfer handle reference).handleToClose = some (handle, reference) := by
  simp [handleToClose, transfer, consistent.unretained (pending_of_transferable transferable)]

theorem Consistent.transfer (reference : ℕ) : (request.transfer handle reference).Consistent := by
  have unretained := consistent.unretained (pending_of_transferable transferable)
  by_cases borrowed : request.state = .borrowed
  · apply consistent_of_drainable
    simp [drainable, AttachRequest.transfer, borrowed]
  · refine ⟨?_, ?_, ?_⟩
    · simp [AttachRequest.transfer, borrowed]
    · simp [AttachRequest.transfer, borrowed]
    · exact fun _ => unretained

end

theorem Consistent.handleToClose_own (consistent : request.Consistent) (isPending : request.pending)
    (reference : Handle × ℕ) (token : Handle) :
    (request.own reference token).handleToClose = some reference := by
  simp [handleToClose, own, consistent.unretained isPending]

theorem Consistent.handleToClose_resolveUnpinned (consistent : request.Consistent)
    (isPending : request.pending) :
    request.resolveUnpinned.handleToClose = request.handleToClose := by
  have owned := consistent.owned isPending
  cases transferred : request.referenceTransferred with
  | false => simp [resolveUnpinned, handleToClose, owned, transferred]
  | true => simp [resolveUnpinned, handleToClose, owned, transferred]

theorem drainable_resolveUnpinned : request.resolveUnpinned.drainable := by
  unfold resolveUnpinned
  split <;> simp [drainable]

end AttachRequest

namespace Loader

variable {Handle Call Drain : Type}

def queued (queue : List (AttachRequest Handle)) : Multiset (Handle × ℕ) :=
  (queue.map fun request => present request.handleToClose).sum

@[simp]
theorem queued_append (first second : List (AttachRequest Handle)) :
    queued (first ++ second) = queued first + queued second := by
  simp [queued]

@[simp]
theorem queued_cons (request : AttachRequest Handle) (rest : List (AttachRequest Handle)) :
    queued (request :: rest) = present request.handleToClose + queued rest := by
  simp [queued]

variable {reference : Handle × ℕ}

@[simp]
theorem queued_nil : queued ([] : List (AttachRequest Handle)) = 0 := rfl

variable {queue : List (AttachRequest Handle)}

theorem mem_queued {request : AttachRequest Handle}
    (isQueued : request ∈ queue) (toClose : request.handleToClose = some reference) :
    reference ∈ queued queue := by
  rcases append_of_mem isQueued with ⟨_, _, rfl⟩
  simp [toClose]

theorem queued_modifyFirst {test : AttachRequest Handle → Bool} {request : AttachRequest Handle}
    (change : AttachRequest Handle → AttachRequest Handle)
    (found : queue.find? test = some request) :
    ∃ rest, queued queue = rest + present request.handleToClose ∧
      queued (FirstMatch.modifyFirst test change queue) =
        rest + present (change request).handleToClose := by
  rcases FirstMatch.modifyFirst_of_found change found with
    ⟨before, after, split, _, changed⟩
  refine ⟨queued before + queued after, ?_, ?_⟩
  · rw [split]
    simp only [queued_append, queued_cons]
    abel
  · rw [changed]
    simp only [queued_append, queued_cons]
    abel

theorem sum_update {Name : Type} [Fintype Name] [DecidableEq Name] {Value Pc : Type}
    [AddCommMonoid Value] (weight : Pc → Value) (pcs : Name → Pc) (name : Name) (pc : Pc) :
    ∃ rest, ∑ other, weight (pcs other) = rest + weight (pcs name) ∧
      ∑ other, weight (update pcs name pc other) = rest + weight pc := by
  refine ⟨∑ other ∈ univ.erase name, weight (pcs other), ?_, ?_⟩
  · rw [sum_erase_add _ _ (mem_univ name)]
  · rw [← sum_erase_add _ _ (mem_univ name), update_self]
    congr 1
    apply sum_congr rfl
    intro other isOther
    rw [update_of_ne (ne_of_mem_erase isOther)]

variable {state after : Loader Handle Call Drain}

section

variable [Fintype Call] [DecidableEq Call] {call : Call} {pc : CallPc Handle}

variable (calls : after.calls = update state.calls call pc)

include calls

theorem application_update :
    ∃ rest, state.application = rest + (present (state.calls call).reference + state.received) ∧
      after.application = rest + (present pc.reference + after.received) := by
  rcases sum_update (fun pc : CallPc Handle => present pc.reference) state.calls call pc with
    ⟨rest, before, updated⟩
  refine ⟨rest, ?_, ?_⟩
  · rw [application, before]
    abel
  · rw [application, calls, updated]
    abel

theorem application_lend {handle : Handle}
    (balance : present pc.reference + after.received =
      handle ::ₘ (present (state.calls call).reference + state.received)) :
    after.application = handle ::ₘ state.application := by
  rcases application_update calls with ⟨_, before, updated⟩
  rw [updated, before, balance, add_cons]

theorem application_drop {handle : Handle}
    (balance : present (state.calls call).reference + state.received =
      handle ::ₘ (present pc.reference + after.received)) :
    state.application = handle ::ₘ after.application := by
  rcases application_update calls with ⟨_, before, updated⟩
  rw [updated, before, balance, add_cons]

end

theorem present_add_receive (state : Loader Handle Call Drain) (handle : Option Handle) :
    (state.receive handle).received = present handle + state.received := by
  cases handle with
  | none => simp [receive]
  | some => simp [receive]

theorem queued_enqueueRequest [DecidableEq Handle] (state : Loader Handle Call Drain)
    (handle : Handle) (bindingFlags : BindingFlags) (scope : AttachScope) :
    queued (state.enqueueRequest handle bindingFlags scope).queue = queued state.queue := by
  unfold enqueueRequest
  split
  · rfl
  split
  · rfl
  split
  next known =>
    rcases Option.isSome_iff_exists.mp known with ⟨_, found⟩
    rcases queued_modifyFirst (·.merge bindingFlags scope) found with ⟨_, before, merged⟩
    rw [merged, before, handleToClose_merge]
  split
  · rfl
  · simp [newRequest, handleToClose]

theorem enqueueRequest_other [DecidableEq Handle] (state : Loader Handle Call Drain)
    (handle : Handle) (bindingFlags : BindingFlags) (scope : AttachScope) :
    ∃ queue ticket pending, state.enqueueRequest handle bindingFlags scope =
      { state with queue := queue, nextTicket := ticket, pendingOwnership := pending } := by
  unfold enqueueRequest
  repeat' split
  all_goals exact ⟨_, _, _, rfl⟩

theorem handleToClose_retain (request : AttachRequest Handle) :
    present (retain request).1.handleToClose + ((retain request).2 : Multiset _) =
      present request.handleToClose := by
  unfold retain
  split
  next noHandle => simp
  next handle isHandle =>
    split
    next owned => simp [handleToClose, isHandle, owned]
    next => simp

def QueueConsistent (state : Loader Handle Call Drain) : Prop :=
  ∀ request ∈ state.queue, request.Consistent

variable [Fintype Drain]

theorem references_eq (state : Loader Handle Call Drain) :
    state.references = queued state.queue + ∑ drain, (state.drains drain).references +
      (state.retained : Multiset _) + present state.owner.reference + state.shutdown.references :=
  rfl

theorem references_drain [DecidableEq Drain] {drain : Drain} {pc : DrainPc Handle}
    (drains : after.drains = update state.drains drain pc)
    (owner : after.owner = state.owner) (shutdown : after.shutdown = state.shutdown) :
    ∃ rest,
      state.references = rest +
        (queued state.queue + (state.drains drain).references + (state.retained : Multiset _)) ∧
      after.references = rest +
        (queued after.queue + pc.references + (after.retained : Multiset _)) := by
  rcases sum_update DrainPc.references state.drains drain pc with ⟨rest, before, updated⟩
  refine ⟨rest + present state.owner.reference + state.shutdown.references, ?_, ?_⟩
  · rw [references_eq, before]
    abel
  · rw [references_eq, drains, updated, owner, shutdown]
    abel

theorem references_other (drains : after.drains = state.drains) :
    ∃ rest,
      state.references = rest + (queued state.queue + (state.retained : Multiset _) +
        present state.owner.reference + state.shutdown.references) ∧
      after.references = rest + (queued after.queue + (after.retained : Multiset _) +
        present after.owner.reference + after.shutdown.references) := by
  refine ⟨∑ drain, (state.drains drain).references, ?_, ?_⟩
  · rw [references_eq]
    abel
  · rw [references_eq, drains]
    abel

theorem references_setOwner {pc : OwnerPc Handle} (nothing : state.owner.reference = none)
    (something : pc.reference = some reference) (drains : after.drains = state.drains)
    (queue : after.queue = state.queue) (retained : after.retained = state.retained)
    (shutdown : after.shutdown = state.shutdown) (owner : after.owner = pc) :
    after.references = reference ::ₘ state.references := by
  rw [references_eq, references_eq, drains, queue, retained, shutdown, owner, nothing, something,
    present_none, present_some, ← singleton_add]
  abel

variable [Fintype Call]

def ledger (state : Loader Handle Call Drain) : ReferenceLedger Handle where
  counted := state.counted
  lent := state.application
  held := state.references
  closed := state.closed
  acquired := state.acquired
  next := state.nextReference

/-- The loader is not called, and PEAK neither acquires nor closes a reference. -/
def Untouched (state after : Loader Handle Call Drain) : Prop :=
  after.counted = state.counted ∧ after.closed = state.closed ∧
    after.acquired = state.acquired ∧ after.nextReference = state.nextReference

variable [DecidableEq Handle]

theorem ledger_stay (untouched : Untouched state after)
    (application : after.application = state.application)
    (references : after.references = state.references) : Step state.ledger after.ledger := by
  rcases untouched with ⟨counted, closed, acquired, next⟩
  have same : after.ledger = state.ledger := by
    simp only [ledger, counted, application, references, closed, acquired, next]
  rw [same]
  exact .stay state.ledger

variable {handle : Handle}

theorem ledger_step {ledger : ReferenceLedger Handle} (step : Step state.ledger ledger)
    (application : after.application = ledger.lent := by rfl)
    (references : after.references = ledger.held := by rfl)
    (counted : after.counted = ledger.counted := by rfl)
    (closed : after.closed = ledger.closed := by rfl)
    (acquired : after.acquired = ledger.acquired := by rfl)
    (next : after.nextReference = ledger.next := by rfl) : Step state.ledger after.ledger := by
  have same : after.ledger = ledger := by
    simp only [Loader.ledger, counted, application, references, closed, acquired, next]
  rw [same]
  exact step

theorem ledger_other (drains : after.drains = state.drains)
    (balance : queued after.queue + (after.retained : Multiset _) +
        present after.owner.reference + after.shutdown.references =
      queued state.queue + (state.retained : Multiset _) +
        present state.owner.reference + state.shutdown.references)
    (application : after.application = state.application := by rfl)
    (untouched : Untouched state after := by exact ⟨rfl, rfl, rfl, rfl⟩) :
    Step state.ledger after.ledger := by
  apply ledger_stay untouched application
  rcases references_other drains with ⟨_, before, updated⟩
  rw [updated, before, balance]

theorem ledger_drain [DecidableEq Drain] {drain : Drain} {pc : DrainPc Handle}
    (drains : after.drains = update state.drains drain pc)
    (balance : queued after.queue + pc.references + (after.retained : Multiset _) =
      queued state.queue + (state.drains drain).references + (state.retained : Multiset _))
    (owner : after.owner = state.owner := by rfl)
    (shutdown : after.shutdown = state.shutdown := by rfl)
    (application : after.application = state.application := by rfl)
    (untouched : Untouched state after := by exact ⟨rfl, rfl, rfl, rfl⟩) :
    Step state.ledger after.ledger := by
  apply ledger_stay untouched application
  rcases references_drain drains owner shutdown with ⟨_, before, updated⟩
  rw [updated, before, balance]

variable [DecidableEq Call] {call : Call} {pc : CallPc Handle}

theorem ledger_call (calls : after.calls = update state.calls call pc)
    (balance : present pc.reference + after.received =
      present (state.calls call).reference + state.received)
    (references : after.references = state.references := by rfl)
    (untouched : Untouched state after := by exact ⟨rfl, rfl, rfl, rfl⟩) :
    Step state.ledger after.ledger := by
  apply ledger_stay untouched _ references
  rcases application_update calls with ⟨_, before, updated⟩
  rw [updated, before, balance]

theorem ledger_enqueue (loaded : state.calls call = .loaded true (some handle))
    (bindingFlags : BindingFlags) (scope : AttachScope) :
    Step state.ledger ((state.enqueueRequest handle bindingFlags scope).goto call
      (.leaving (some handle))).ledger := by
  have same := queued_enqueueRequest state handle bindingFlags scope
  rcases enqueueRequest_other state handle bindingFlags scope with ⟨_, _, _, changed⟩
  rw [changed] at same ⊢
  refine ledger_call rfl ?_ ?_
  · simp [loaded, CallPc.reference, goto]
  · simp only [references_eq, goto, same]

variable [DecidableEq Drain]

theorem ledger_move {event : LoaderEvent Handle Call Drain} (consistent : QueueConsistent state)
    (move : Move state event after) : Step state.ledger after.ledger := by
  cases move with
  | turn _ _ _ turns =>
    exact ledger_call rfl (by simp [turns.reference, goto])
  | load _ _ handle entered =>
    cases handle with
    | none =>
      exact ledger_call rfl (by simp [entered, CallPc.reference, goto])
    | some handle =>
      refine ledger_step (.lend state.ledger handle) ?_
      exact application_lend rfl (by simp [entered, CallPc.reference, loaderOpen, goto])
  | receive _ handle _ reference =>
    have received := present_add_receive state handle
    refine ledger_call rfl ?_
    rw [reference]
    simp [CallPc.reference, goto, received]
  | enqueue _ _ bindingFlags scope loaded => exact ledger_enqueue loaded bindingFlags scope
  | close _ _ _ idle received reference =>
    refine ledger_call rfl ?_
    rw [idle, reference]
    simp [CallPc.reference, goto, cons_erase received]
  | transfer _ handle request locking found =>
    have isConsistent := consistent request (mem_of_find?_eq_some found)
    have transferable := find?_some found
    rcases queued_modifyFirst (·.transfer handle state.nextReference) found with
      ⟨_, before, transferred⟩
    rw [isConsistent.handleToClose_of_untransferred
      (pending_of_transferable transferable)
      (isConsistent.untransferred_of_transferable transferable)] at before
    rw [isConsistent.handleToClose_transfer transferable] at transferred
    refine ledger_step (.takeOver state.ledger handle _ ?_) rfl ?_
    · exact application_drop rfl (by simp [locking, CallPc.reference, goto, record])
    · change _ = (handle, state.nextReference) ::ₘ state.references
      simp only [references_eq, transferred, before, present_none]
      rw [← singleton_add]
      abel
  | unload _ handle closing =>
    refine ledger_step (.returned state.ledger handle _ ?_)
    exact application_drop rfl (by simp [closing, CallPc.reference, goto, loaderClose])
  | select _ waiting found =>
    rcases queued_modifyFirst ({ · with state := .pinning }) found with ⟨_, before, selected⟩
    refine ledger_other rfl ?_
    simp only [selected, before, waiting]
    rfl
  | owner _ _ same =>
    exact ledger_other rfl (by simp [setOwner, same])
  | acquire handle _ _ nothing something =>
    refine ledger_step (.acquire state.ledger handle) rfl ?_
    exact references_setOwner nothing something rfl rfl rfl rfl rfl
  | own _ reference token request pinned found pinning untransferred =>
    have isConsistent := consistent request (mem_of_find?_eq_some found)
    have isPending : request.pending := by simp [pending, pinning]
    rcases queued_modifyFirst (·.own reference token) found with ⟨_, before, owned⟩
    rw [isConsistent.handleToClose_of_untransferred isPending untransferred] at before
    rw [isConsistent.handleToClose_own isPending] at owned
    refine ledger_other rfl ?_
    simp only [setOwner, resolve, owned, before, pinned, OwnerPc.reference, Option.map_some]
    abel
  | resolveUnpinned _ request pinned found pinning =>
    have isConsistent := consistent request (mem_of_find?_eq_some found)
    have isPending : request.pending := by simp [pending, pinning]
    rcases queued_modifyFirst (·.resolveUnpinned) found with ⟨_, before, resolved⟩
    rw [isConsistent.handleToClose_resolveUnpinned isPending, ← before] at resolved
    refine ledger_other rfl ?_
    simp only [setOwner, resolve, resolved, pinned, OwnerPc.reference, Option.map_none]
  | closeOwned reference _ _ something nothing =>
    refine ledger_step (.release state.ledger reference (references _) ?_)
    change state.references = _
    rw [references_eq, references_eq, something, present_some, ← singleton_add]
    simp only [setOwner, internalClose, loaderClose, nothing]
    abel
  | beginDrain _ _ idle =>
    exact ledger_drain rfl (by simp [idle, DrainPc.references, setDrain])
  | take _ _ _ _ _ _ looping queue =>
    refine ledger_drain rfl ?_
    simp only [setDrain, queue, looping, DrainPc.references, queued_cons]
    abel
  | drain _ _ goesOn =>
    exact ledger_drain rfl (by simp [goesOn.references, setDrain])
  | retain _ _ _ _ request scope _ popped =>
    have kept := handleToClose_retain { request with scope := scope }
    have sameReference : handleToClose { request with scope := scope } =
        request.handleToClose := rfl
    rw [sameReference] at kept
    refine ledger_drain rfl ?_
    simp only [setDrain, popped, DrainPc.references, ← kept, ← coe_add]
    abel
  | requeue _ _ _ _ _ _ attached =>
    refine ledger_drain rfl ?_
    simp only [attached, DrainPc.references, queued_append, queued_cons]
    abel
  | endDrain _ _ ending =>
    exact ledger_drain rfl (by simp [ending, DrainPc.references, setDrain])
  | drainClose drain reference handles closing =>
    refine ledger_step (.release state.ledger reference (references _) ?_)
    change state.references = _
    have drains : ((state.internalClose reference).setDrain drain (.closing handles)).drains =
        update state.drains drain (.closing handles) := rfl
    rcases references_drain drains rfl rfl with ⟨_, before, updated⟩
    rw [before, updated, closing]
    simp only [DrainPc.references, setDrain, internalClose, loaderClose, ← singleton_add,
      ← cons_coe]
    abel
  | drainEnds _ closing =>
    exact ledger_drain rfl (by simp [closing, DrainPc.references, setDrain])
  | enable | withdraw | setRoute => exact ledger_stay ⟨rfl, rfl, rfl, rfl⟩ rfl rfl
  | shutDown here | clearOwner here =>
    exact ledger_other rfl (by simp [setShutdown, here, ShutdownPc.references])
  | advance _ _ advances =>
    exact ledger_other rfl (by simp [setShutdown, advances.references])
  | discard _ _ _ discarding queue _ _ taken =>
    refine ledger_other rfl ?_
    simp only [setShutdown, queue, queued_cons, taken, discarding]
    abel
  | closeTaken reference _ _ _ taken =>
    refine ledger_step (.release state.ledger reference (references _) ?_)
    change state.references = _
    rw [references_eq, references_eq, taken]
    simp only [setShutdown, internalClose, loaderClose, ← singleton_add]
    abel
  | release finished =>
    refine ledger_other rfl ?_
    simp only [setShutdown, finished]
    abel
  | timeOut =>
    refine ledger_other rfl ?_
    have nothing : state.shutdown.references = 0 := by
      cases here : state.shutdown <;> simp_all [ShutdownPc.stage, ShutdownPc.references]
    simp only [nothing]
    rfl

end Loader

end Peak
