import Peak.Loader.Control

/-!
# Attaching to a library

The controller attaches only to libraries which cannot be unloaded meanwhile. A request leaves the
queue when its ownership is resolved: it has no handle, or PEAK has a reference to the library,
which the request owns or has given to the retained handles.
-/

namespace Peak

open List Function

variable {Handle Call Drain : Type}

namespace AttachRequest

def Backed (retained : List (Handle × ℕ)) (request : AttachRequest Handle) : Prop :=
  request.drainable → ∀ handle, request.handle = some handle →
    request.handleOwned ∧
      (request.handleRetained = true → (handle, request.reference) ∈ retained)

variable {request : AttachRequest Handle} {retained : List (Handle × ℕ)}

theorem Backed.mono {more : List (Handle × ℕ)} (backed : request.Backed retained)
    (subset : retained ⊆ more) : request.Backed more := by
  intro drainable handle isHandle
  rcases backed drainable handle isHandle with ⟨owned, isRetained⟩
  exact ⟨owned, fun kept => subset (isRetained kept)⟩

theorem backed_of_pending (isPending : request.pending) : request.Backed retained := by
  intro drainable
  rw [not_pending_of_drainable drainable] at isPending
  cases isPending

theorem backed_of_owned (owned : request.handleOwned)
    (unretained : request.handleRetained = false) : request.Backed retained := by
  intro _ handle _
  refine ⟨owned, ?_⟩
  rw [unretained]
  nofun

theorem Consistent.backed_resolveUnpinned (consistent : request.Consistent)
    (isPending : request.pending) : request.resolveUnpinned.Backed retained := by
  unfold resolveUnpinned
  split
  · exact backed_of_owned rfl (consistent.unretained isPending)
  · intro _ handle isHandle
    cases isHandle

end AttachRequest

namespace Loader

open AttachRequest

structure Backed (state : Loader Handle Call Drain) : Prop where
  queued : ∀ request ∈ state.queue, request.Backed state.retained
  taken : ∀ drain request, (state.drains drain).request = some request →
    request.drainable ∧ request.Backed state.retained

variable {state after : Loader Handle Call Drain}

theorem Backed.change (backed : Backed state)
    (queue : ∀ request ∈ after.queue, request ∈ state.queue ∨ request.Backed state.retained)
    (drains : after.drains = state.drains) (retained : after.retained = state.retained) :
    Backed after := by
  constructor
  · intro request isQueued
    rw [retained]
    rcases queue request isQueued with wasQueued | isBacked
    · exact backed.queued request wasQueued
    · exact isBacked
  · intro drain request
    rw [drains, retained]
    exact backed.taken drain request

theorem Backed.same (backed : Backed state) (queue : after.queue = state.queue)
    (drains : after.drains = state.drains) (retained : after.retained = state.retained) :
    Backed after := by
  apply backed.change _ drains retained
  intro request isQueued
  rw [queue] at isQueued
  exact .inl isQueued

theorem Backed.drain [DecidableEq Drain] {drain : Drain} {pc : DrainPc Handle}
    (backed : Backed state) (drains : after.drains = update state.drains drain pc)
    (queue : ∀ request ∈ after.queue, request ∈ state.queue ∨ request.Backed after.retained)
    (more : state.retained ⊆ after.retained)
    (taken : ∀ request, pc.request = some request →
      request.drainable ∧ request.Backed after.retained) : Backed after := by
  constructor
  · intro request isQueued
    rcases queue request isQueued with wasQueued | isBacked
    · exact (backed.queued request wasQueued).mono more
    · exact isBacked
  · intro other request isTaken
    by_cases same : other = drain
    · subst same
      rw [drains, update_self] at isTaken
      exact taken request isTaken
    · rw [drains, update_of_ne same] at isTaken
      rcases backed.taken other request isTaken with ⟨drainable, isBacked⟩
      exact ⟨drainable, isBacked.mono more⟩

theorem Backed.release [DecidableEq Drain] {drain : Drain} {pc : DrainPc Handle}
    (backed : Backed state) (drains : after.drains = update state.drains drain pc)
    (without : pc.request = none)
    (queue : ∀ request ∈ after.queue, request ∈ state.queue ∨ request.Backed state.retained)
    (retained : after.retained = state.retained) : Backed after := by
  apply backed.drain drains
  · rw [retained]
    exact queue
  · rw [retained]
    exact Subset.refl _
  · intro request isTaken
    cases without.symm.trans isTaken

theorem Backed.modifyFirst {test : AttachRequest Handle → Bool} {request : AttachRequest Handle}
    (change : AttachRequest Handle → AttachRequest Handle) (backed : Backed state)
    (found : state.queue.find? test = some request)
    (isBacked : (change request).Backed state.retained)
    (queue : after.queue = FirstMatch.modifyFirst test change state.queue)
    (drains : after.drains = state.drains) (retained : after.retained = state.retained) :
    Backed after := by
  rcases FirstMatch.modifyFirst_of_found change found with ⟨_, _, split, _, changed⟩
  apply backed.change _ drains retained
  intro other isQueued
  rw [queue, changed, mem_append, mem_cons] at isQueued
  rw [split, mem_append, mem_cons]
  rcases isQueued with earlier | rfl | later
  · exact .inl (.inl earlier)
  · exact .inr isBacked
  · exact .inl (.inr (.inr later))

theorem backed_retain (request : AttachRequest Handle) {retained : List (Handle × ℕ)}
    (drainable : request.drainable) (backed : request.Backed retained) :
    (retain request).1.drainable ∧ (retain request).1.Backed (retained ++ (retain request).2) := by
  unfold retain
  split
  next =>
    rw [append_nil]
    exact ⟨drainable, backed⟩
  next handle isHandle =>
    split
    next owns =>
      refine ⟨drainable, ?_⟩
      intro _ other isOther
      cases isHandle.symm.trans isOther
      simp only [Bool.and_eq_true] at owns
      exact ⟨owns.1, fun _ => by simp⟩
    next =>
      rw [append_nil]
      exact ⟨drainable, backed⟩

theorem backed_enqueueRequest [DecidableEq Handle] (backed : Backed state)
    (handle : Handle) (bindingFlags : BindingFlags) (scope : AttachScope) :
    Backed (state.enqueueRequest handle bindingFlags scope) := by
  unfold enqueueRequest
  split
  · exact backed
  split
  · exact backed
  split
  next known =>
    rcases Option.isSome_iff_exists.mp known with ⟨request, found⟩
    have isBacked := backed.queued request (mem_of_find?_eq_some found)
    exact backed.modifyFirst (·.merge bindingFlags scope) found isBacked rfl rfl rfl
  next =>
    split
    · exact backed
    · refine backed.change ?_ rfl rfl
      exact forall_mem_append.mpr ⟨fun _ => .inl, forall_mem_singleton.mpr
        (.inr (backed_of_pending (by simp [pending, newRequest])))⟩

variable [Fintype Drain]

theorem request_eq_none (controlled : Controlled state.view) (late : 2 ≤ state.shutdown.stage)
    (drain : Drain) : (state.drains drain).request = none := by
  have inactive : (state.drains drain).active ≠ 1 := by
    intro active
    have early := controlled.stage_of_drain active
    omega
  cases isDrain : state.drains drain <;> simp_all [DrainPc.active, DrainPc.request]

theorem Backed.mem_references (backed : Backed state) {drain : Drain}
    {request : AttachRequest Handle} (isTaken : (state.drains drain).request = some request)
    {handle : Handle} (isHandle : request.handle = some handle) :
    (handle, request.reference) ∈ state.references := by
  rcases backed.taken drain request isTaken with ⟨drainable, isBacked⟩
  rcases isBacked drainable handle isHandle with ⟨owned, retained⟩
  rw [references_eq]
  cases kept : request.handleRetained with
  | true => simp [retained kept]
  | false =>
    have toClose : request.handleToClose = some (handle, request.reference) := by
      simp [handleToClose, owned, kept, isHandle]
    have held : (handle, request.reference) ∈ (state.drains drain).references := by
      cases isDrain : state.drains drain <;> rw [isDrain] at isTaken <;> cases isTaken <;>
        simp [DrainPc.references, toClose]
    have inSum : (handle, request.reference) ∈ ∑ drain, (state.drains drain).references :=
      Multiset.mem_sum.mpr ⟨drain, Finset.mem_univ drain, held⟩
    simp [inSum]

variable [DecidableEq Handle] [DecidableEq Call] [DecidableEq Drain]

theorem backed_move {event : LoaderEvent Handle Call Drain} (backed : Backed state)
    (consistent : QueueConsistent state) (controlled : Controlled state.view)
    (move : Move state event after) : Backed after := by
  have stays : ∀ request ∈ state.queue, request ∈ state.queue ∨ request.Backed state.retained :=
    fun request isQueued => .inl isQueued
  cases move with
  | load _ _ handle => cases handle <;> exact backed.same rfl rfl rfl
  | enqueue _ handle bindingFlags scope =>
    exact (backed_enqueueRequest backed handle bindingFlags scope).same rfl rfl rfl
  | transfer _ handle request _ found =>
    have isConsistent := consistent request (mem_of_find?_eq_some found)
    have transferable := find?_some found
    have isBacked : (request.transfer handle state.nextReference).Backed state.retained :=
      backed_of_owned rfl (isConsistent.unretained (pending_of_transferable transferable))
    exact backed.modifyFirst _ found isBacked rfl rfl rfl
  | select request _ found =>
    have isPending : ({ request with state := .pinning } : AttachRequest Handle).pending := by
      simp [pending]
    exact backed.modifyFirst _ found (backed_of_pending isPending) rfl rfl rfl
  | own _ reference token request _ found pinning =>
    have isConsistent := consistent request (mem_of_find?_eq_some found)
    have isBacked : (request.own reference token).Backed state.retained :=
      backed_of_owned rfl (isConsistent.unretained (by simp [pending, pinning]))
    exact backed.modifyFirst (·.own reference token) found isBacked rfl rfl rfl
  | resolveUnpinned _ request _ found pinning =>
    have isConsistent := consistent request (mem_of_find?_eq_some found)
    have isBacked : request.resolveUnpinned.Backed state.retained :=
      isConsistent.backed_resolveUnpinned (by simp [pending, pinning])
    exact backed.modifyFirst (·.resolveUnpinned) found isBacked rfl rfl rfl
  | take _ _ _ _ request _ _ queue drainable =>
    refine backed.drain rfl ?_ (Subset.refl _) ?_
    · intro other isQueued
      left
      rw [queue]
      exact mem_cons_of_mem request isQueued
    · intro other same
      cases same
      exact ⟨drainable, backed.queued request (by simp [queue])⟩
  | drain drain _ goesOn =>
    refine backed.drain rfl stays (Subset.refl _) ?_
    intro request isTaken
    rcases goesOn.request request isTaken with ⟨taken, _, wasTaken, rfl⟩
    exact backed.taken drain taken wasTaken
  | retain drain _ _ _ request scope _ popped =>
    have taken := backed.taken drain request (by rw [popped]; rfl)
    have kept := backed_retain { request with scope := scope } taken.1 taken.2
    refine backed.drain rfl (fun request isQueued => .inl isQueued) (subset_append_left _ _) ?_
    rintro other ⟨⟩
    exact kept
  | requeue drain _ _ _ request _ attached =>
    have taken := backed.taken drain request (by rw [attached]; rfl)
    refine backed.release rfl rfl ?_ rfl
    exact forall_mem_append.mpr ⟨fun _ => .inl, forall_mem_singleton.mpr (.inr taken.2)⟩
  | beginDrain | endDrain | drainClose | drainEnds => exact backed.release rfl rfl stays rfl
  | discard _ request _ _ queue =>
    refine backed.change ?_ rfl rfl
    intro other isQueued
    left
    rw [queue]
    exact mem_cons_of_mem request isQueued
  | release finished =>
    -- the queue is empty and the drains have ended when the retained handles are released
    have stage : state.shutdown.stage = 8 := by rw [finished]; rfl
    have emptied : state.queue = [] := controlled.emptied stage.ge
    constructor
    · intro request isQueued
      change request ∈ state.queue at isQueued
      rw [emptied] at isQueued
      cases isQueued
    · intro drain request isTaken
      have untaken := request_eq_none controlled (by omega) drain
      cases untaken.symm.trans isTaken
  | _ =>
    -- the other moves concern neither a request nor a retained handle
    exact backed.same rfl rfl rfl

end Loader

end Peak
