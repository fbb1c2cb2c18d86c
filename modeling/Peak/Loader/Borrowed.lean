import Peak.Loader.Control

/-!
# Borrowed handles

A request whose ownership is pending relies on a reference of the application, which gives it up
only where no pending request relies on it, and otherwise leaves it to the request. Thus the library
which is being pinned is always loaded.

A destructor that runs while PEAK closes a library can close another one without the guard. These
results are about the closes which pass the guard.
-/

namespace Peak.Loader

open AttachRequest Multiset

variable {Handle Call Drain : Type} {handle : Handle} {state after : Loader Handle Call Drain}

def Handled (state : Loader Handle Call Drain) : Prop :=
  ∀ request ∈ state.queue, request.pending → request.handle = some request.sourceHandleToken

def Selected (state : Loader Handle Call Drain) : Prop :=
  ∀ ticket handle, state.owner = .pinning ticket handle →
    ∃ request ∈ state.queue, request.state = .pinning ∧
      request.handle = some request.sourceHandleToken ∧ handle = some request.sourceHandleToken

theorem selected_move [DecidableEq Handle] [DecidableEq Call] [DecidableEq Drain]
    {event : LoaderEvent Handle Call Drain} (handled : Handled state) (selected : Selected state)
    (move : Move state event after) : Selected after := by
  have steps := queueSteps_move move
  intro ticket handle pinning
  have stays : state.owner = .pinning ticket handle → ∃ request ∈ after.queue,
      request.state = .pinning ∧ request.handle = some request.sourceHandleToken ∧
        handle = some request.sourceHandleToken := by
    intro wasPinning
    rcases selected ticket handle wasPinning with ⟨_, isQueued, isPinning, isHandled, same⟩
    have waits : ¬ ∃ ticket pin, state.owner = .pinned ticket pin := by simp [wasPinning]
    rcases steps.pinning waits isQueued isPinning isHandled with
      ⟨later, isLater, stillPinning, source, stillHandled⟩
    refine ⟨later, isLater, stillPinning, ?_, ?_⟩
    · rw [stillHandled, source]
    · rw [same, source]
  cases move with
  | select request _ found =>
    cases pinning
    rcases FirstMatch.modifyFirst_of_found ({ · with state := .pinning }) found with
      ⟨_, _, _, _, changed⟩
    have isQueued := List.mem_of_find?_eq_some found
    have isHandled := handled request isQueued (by simp_all [pending])
    refine ⟨{ request with state := .pinning }, ?_, rfl, isHandled, isHandled⟩
    rw [changed]
    simp
  | owner pc works | acquire _ pc works | closeOwned _ pc works =>
    exact absurd pinning (works.others ticket handle)
  | own | resolveUnpinned => cases pinning
  | load _ _ opened => cases opened <;> exact stays pinning
  | enqueue _ opened bindingFlags scope =>
    apply stays
    rcases enqueueRequest_other state opened bindingFlags scope with ⟨_, _, _, changed⟩
    rw [changed] at pinning
    exact pinning
  | _ => exact stays pinning

theorem unresolved_enqueueRequest [DecidableEq Handle]
    {bindingFlags : BindingFlags} {scope : AttachScope} (consistent : QueueConsistent state)
    {request : AttachRequest Handle}
    (isQueued : request ∈ (state.enqueueRequest handle bindingFlags scope).queue)
    (unresolved : request.Unresolved) :
    (∃ earlier ∈ state.queue, earlier.Unresolved ∧
      earlier.sourceHandleToken = request.sourceHandleToken) ∨
      request.sourceHandleToken = handle := by
  have steps : QueueSteps False state (state.enqueueRequest handle bindingFlags scope) :=
    queueSteps_enqueue
  rcases steps.unresolved consistent isQueued unresolved with earlier | ⟨queue, count⟩
  · exact .inl earlier
  · right
    unfold enqueueRequest at queue count
    split at queue <;> rename_i opened
    · simp at queue
    split at queue <;> rename_i running
    · simp at queue
    split at queue <;> rename_i known
    · simp [opened, running, known] at count
    split at queue
    · simp at queue
    · have isNew := List.append_cancel_left queue
      rw [List.singleton_inj] at isNew
      rw [← isNew]
      rfl

theorem unused_transfer [DecidableEq Handle] {request : AttachRequest Handle} {reference : ℕ}
    (distinct : DistinctSources state.queue)
    (found : state.queue.find? (·.transferable handle) = some request) :
    ∀ other ∈ FirstMatch.modifyFirst (·.transferable handle) (·.transfer handle reference)
      state.queue, other.Unresolved → other.sourceHandleToken ≠ handle := by
  rcases FirstMatch.modifyFirst_of_found (·.transfer handle reference) found with
    ⟨_, _, split, transferable, transferred⟩
  intro other isQueued unresolved
  rw [transferred, List.mem_append, List.mem_cons] at isQueued
  rw [split] at distinct
  rw [← sourceHandleToken_of_transferable transferable]
  apply distinct.ne_of_mem (unresolved_of_transferable transferable) _ unresolved
  rcases isQueued with earlier | rfl | later
  · exact .inl earlier
  · exact absurd unresolved (not_unresolved_transfer transferable _)
  · exact .inr later

variable [Fintype Call]

/-- The references of the application which the loader is not about to close. -/
def uncommitted (state : Loader Handle Call Drain) : Multiset Handle :=
  state.received + ∑ call, present (state.calls call).uncommitted

theorem uncommitted_le_application (state : Loader Handle Call Drain) :
    state.uncommitted ≤ state.application := by
  apply add_le_add_right
  apply Finset.sum_le_sum
  intro call _
  cases state.calls call with
  | closing => exact zero_le _
  | _ => exact le_rfl

/-- Every request that is not resolved relies on a reference of the application. -/
def Kept (state : Loader Handle Call Drain) : Prop :=
  ∀ request ∈ state.queue, request.Unresolved → request.sourceHandleToken ∈ state.uncommitted

variable {committing : Prop}

theorem kept_of_le (kept : Kept state) (consistent : ∀ request ∈ state.queue, request.Consistent)
    (steps : QueueSteps committing state after) (more : state.uncommitted ≤ after.uncommitted)
    (fewer : after.pendingOwnership ≤ state.pendingOwnership) : Kept after := by
  intro request isQueued unresolved
  rcases steps.unresolved consistent isQueued unresolved with
    ⟨earlier, wasQueued, wasUnresolved, same⟩ | added
  · rw [← same]
    exact mem_of_le more (kept earlier wasQueued wasUnresolved)
  · omega

theorem kept_of_resolved (counts : state.pendingOwnership = state.queue.countP pending)
    (resolved : state.pendingOwnership = 0) (queue : after.queue = state.queue) : Kept after := by
  intro request isQueued unresolved
  rw [queue] at isQueued
  rw [counts, List.countP_eq_zero] at resolved
  exact absurd unresolved.pending (resolved request isQueued)

variable [DecidableEq Call] {call : Call} {pc : CallPc Handle}

section

variable (calls : after.calls = Function.update state.calls call pc)

include calls

theorem uncommitted_update :
    ∃ rest,
      state.uncommitted = rest + (present (state.calls call).uncommitted + state.received) ∧
      after.uncommitted = rest + (present pc.uncommitted + after.received) := by
  rcases sum_update (fun pc : CallPc Handle => present pc.uncommitted) state.calls call pc with
    ⟨rest, before, updated⟩
  refine ⟨rest, ?_, ?_⟩
  · rw [uncommitted, before]
    abel
  · rw [uncommitted, calls, updated]
    abel

theorem uncommitted_le (more : present (state.calls call).uncommitted + state.received ≤
      present pc.uncommitted + after.received) : state.uncommitted ≤ after.uncommitted := by
  rcases uncommitted_update calls with ⟨rest, before, updated⟩
  rw [before, updated]
  exact add_le_add_right more rest

theorem mem_uncommitted
    (isKept : handle ∈ present pc.uncommitted) : handle ∈ after.uncommitted := by
  rcases uncommitted_update calls with ⟨_, _, updated⟩
  simp [updated, isKept]

end

theorem kept_call (kept : Kept state) (calls : after.calls = Function.update state.calls call pc)
    (queue : after.queue = state.queue)
    (more : present (state.calls call).uncommitted + state.received ≤
      present pc.uncommitted + after.received) : Kept after := by
  intro request isQueued unresolved
  rw [queue] at isQueued
  exact mem_of_le (uncommitted_le calls more) (kept request isQueued unresolved)

theorem kept_drop (handle : Handle) (kept : Kept state)
    (consistent : ∀ request ∈ state.queue, request.Consistent)
    (calls : after.calls = Function.update state.calls call pc)
    (steps : QueueSteps committing state after)
    (fewer : after.pendingOwnership ≤ state.pendingOwnership)
    (balance : present (state.calls call).uncommitted + state.received =
      handle ::ₘ (present pc.uncommitted + after.received))
    (unused : ∀ request ∈ after.queue, request.Unresolved → request.sourceHandleToken ≠ handle) :
    Kept after := by
  intro request isQueued unresolved
  have isUsed : request.sourceHandleToken ∈ state.uncommitted := by
    rcases steps.unresolved consistent isQueued unresolved with
      ⟨earlier, wasQueued, wasUnresolved, same⟩ | added
    · rw [← same]
      exact kept earlier wasQueued wasUnresolved
    · omega
  rcases uncommitted_update calls with ⟨_, before, updated⟩
  rw [before, balance, add_cons, ← updated, mem_cons] at isUsed
  exact isUsed.resolve_left (unused request isQueued unresolved)

variable [DecidableEq Handle]

theorem kept_enqueue (kept : Kept state) (consistent : QueueConsistent state)
    (loaded : state.calls call = .loaded true (some handle)) (bindingFlags : BindingFlags)
    (scope : AttachScope) : Kept ((state.enqueueRequest handle bindingFlags scope).goto call
      (.leaving (some handle))) := by
  rcases enqueueRequest_other state handle bindingFlags scope with ⟨_, _, _, changed⟩
  intro request isQueued unresolved
  have origin := unresolved_enqueueRequest consistent isQueued unresolved
  rw [changed]
  rcases origin with ⟨earlier, wasQueued, wasUnresolved, same⟩ | isNew
  · rw [← same]
    refine mem_of_le (uncommitted_le rfl ?_) (kept earlier wasQueued wasUnresolved)
    simp [loaded, CallPc.uncommitted, CallPc.reference, goto]
  · rw [isNew]
    exact mem_uncommitted rfl (mem_singleton_self handle)

variable [Fintype Drain] [DecidableEq Drain]

theorem kept_move {event : LoaderEvent Handle Call Drain} (kept : Kept state)
    (consistent : QueueConsistent state) (distinct : DistinctSources state.queue)
    (counts : state.pendingOwnership = state.queue.countP pending)
    (controlled : Controlled state.view) (guarded : ∀ call handle, event ≠ .close call handle true)
    (move : Move state event after) : Kept after := by
  have steps := queueSteps_move move
  cases move with
  | turn _ _ _ turns =>
    rcases turns.uncommitted with same | unguarded | resolved | ⟨handle, isHandle, given, unknown⟩
    · exact kept_call kept rfl rfl (by simp [same, goto])
    · exact kept_of_resolved counts (controlled.guarded unguarded) rfl
    · exact kept_of_resolved counts resolved rfl
    · refine kept_drop handle kept consistent rfl steps le_rfl (by simp [isHandle, given, goto]) ?_
      rintro request isQueued unresolved rfl
      rw [List.find?_eq_none] at unknown
      exact unknown request isQueued (transferable_of_unresolved unresolved)
  | load _ _ handle entered =>
    cases handle <;> refine kept_call kept rfl rfl ?_ <;>
      simp [entered, CallPc.uncommitted, CallPc.reference, goto, loaderOpen, le_cons_self]
  | receive _ handle _ _ uncommitted =>
    have received := present_add_receive state handle
    refine kept_call kept rfl rfl ?_
    rw [uncommitted]
    simp [goto, received]
  | enqueue _ _ bindingFlags scope loaded =>
    exact kept_enqueue kept consistent loaded bindingFlags scope
  | close call handle _ idle received _ reason =>
    rcases reason with same | internal | rerouted
    · refine kept_call kept rfl rfl ?_
      rw [idle, same]
      simp [CallPc.uncommitted, CallPc.reference, goto, cons_erase received]
    · exact absurd internal (guarded call handle)
    · have late := controlled.routed rerouted
      exact kept_of_resolved counts (controlled.resolved (by omega)) rfl
  | transfer _ handle _ locking found =>
    refine kept_drop handle kept consistent rfl steps ?_ ?_ (unused_transfer distinct found)
    · split
      · exact Nat.sub_le _ _
      · exact le_rfl
    · simp [locking, CallPc.uncommitted, CallPc.reference, goto, record]
  | unload _ _ closing =>
    refine kept_call kept rfl rfl ?_
    simp [closing, CallPc.uncommitted, goto, loaderClose]
  | own | resolveUnpinned => exact kept_of_le kept consistent steps le_rfl (Nat.sub_le _ _)
  | _ =>
    -- the other moves are not moves of the application
    exact kept_of_le kept consistent steps le_rfl le_rfl

end Peak.Loader
