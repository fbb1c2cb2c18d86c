import Peak.Loader.Basic

/-!
# What a step of the loader does

The steps of the loader are moves of a few kinds.
-/

namespace Peak

variable {Handle Call Drain : Type}

def ShutdownPc.stage : ShutdownPc Handle → ℕ
  | .idle => 0
  | .awaitAttach => 1
  | .awaitCallbacks => 2
  | .awaitPending => 3
  | .clearOwner => 4
  | .stopThread => 5
  | .joinThread => 6
  | .discarding | .discardClosing _ => 7
  | .finished => 8
  | .releasing _ => 9
  | .released => 10

def DrainPc.active : DrainPc Handle → ℕ
  | .idle | .closing _ => 0
  | .looping _ _ _ | .popped _ _ _ _ | .attached _ _ _ _ _ | .ending _ => 1

def DrainPc.request : DrainPc Handle → Option (AttachRequest Handle)
  | .popped _ _ _ request | .attached _ _ _ request _ => some request
  | .idle | .looping _ _ _ | .ending _ | .closing _ => none

def CallPc.uncommitted : CallPc Handle → Option Handle
  | .closing _ => none
  | pc => pc.reference

namespace Loader

variable [DecidableEq Handle] [DecidableEq Call] [DecidableEq Drain]

section

variable (state : Loader Handle Call Drain)

/-- A call keeps its reference. It decides to close it only if no request relies on it. -/
structure Turns (call : Call) (pc : CallPc Handle) : Prop where
  reference : pc.reference = (state.calls call).reference
  uncommitted : pc.uncommitted = (state.calls call).uncommitted ∨
    state.guardOwner = false ∨ state.pendingOwnership = 0 ∨
    ∃ handle, (state.calls call).uncommitted = some handle ∧ pc.uncommitted = none ∧
      state.queue.find? (·.transferable handle) = none

/-- The ownership thread is at work and does not select a request. -/
structure Works (pc : OwnerPc Handle) : Prop where
  runs : state.owner ≠ .exited
  others : ∀ ticket handle, pc ≠ .pinning ticket handle

/-- An active drain goes on with the request it has taken out, if any. -/
structure DrainsOn (drain : Drain) (pc : DrainPc Handle) : Prop where
  references : pc.references = (state.drains drain).references
  active : (state.drains drain).active = 1
  still : pc.active = 1
  request : ∀ request, pc.request = some request →
    ∃ taken scope, (state.drains drain).request = some taken ∧
      request = { taken with scope := scope }

/-- The shutdown goes on to the next stage, whose condition holds. -/
structure Advances (pc : ShutdownPc Handle) : Prop where
  started : 1 ≤ state.shutdown.stage
  next : pc.stage = state.shutdown.stage + 1
  references : pc.references = state.shutdown.references
  quiet : pc.stage = 2 → state.activeDrains = 0
  resolved : pc.stage = 4 → state.pendingOwnership = 0
  unguarded : pc.stage ≠ 5
  joined : pc.stage = 7 → state.owner = .exited
  emptied : pc.stage = 8 → state.popRequest = none
  released : pc.stage ≠ 9

end

variable {state after : Loader Handle Call Drain} {event : LoaderEvent Handle Call Drain}

inductive Move (state : Loader Handle Call Drain) (event : LoaderEvent Handle Call Drain) :
    Loader Handle Call Drain → Prop
  | turn (call : Call) (pc : CallPc Handle) (callbacks : ℕ) : state.Turns call pc →
      Move state event { state.goto call pc with activeCallbacks := callbacks }
  | load (call : Call) (admitted : Bool) (handle : Option Handle) :
      state.calls call = .entered admitted →
      Move state event ((handle.elim state state.loaderOpen).goto call (.loaded admitted handle))
  | receive (call : Call) (handle : Option Handle) (callbacks : ℕ) :
      (state.calls call).reference = handle → (state.calls call).uncommitted = handle →
      Move state event { (state.receive handle).goto call .idle with activeCallbacks := callbacks }
  | enqueue (call : Call) (handle : Handle) (bindingFlags : BindingFlags) (scope : AttachScope) :
      state.calls call = .loaded true (some handle) →
      Move state event
        ((state.enqueueRequest handle bindingFlags scope).goto call (.leaving (some handle)))
  | close (call : Call) (handle : Handle) (pc : CallPc Handle) : state.calls call = .idle →
      handle ∈ state.received → pc.reference = some handle →
      (pc.uncommitted = some handle ∨ event = .close call handle true ∨ state.route ≠ .routed) →
      Move state event ({ state with received := state.received.erase handle }.goto call pc)
  | transfer (call : Call) (handle : Handle) (request : AttachRequest Handle) :
      state.calls call = .locking handle →
      state.queue.find? (·.transferable handle) = some request →
      Move state event { (state.record handle).goto call .idle with
        queue := FirstMatch.modifyFirst (·.transferable handle)
          (·.transfer handle state.nextReference) state.queue
        pendingOwnership :=
          if request.state = .borrowed then state.pendingOwnership - 1
          else state.pendingOwnership }
  | unload (call : Call) (handle : Handle) : state.calls call = .closing handle →
      Move state event ((state.loaderClose handle).goto call .idle)
  | select (request : AttachRequest Handle) : state.owner = .waiting →
      state.queue.find? (·.state = .borrowed) = some request →
      Move state event { state with
        queue := FirstMatch.modifyFirst (·.state = .borrowed)
          ({ · with state := .pinning }) state.queue
        owner := .pinning request.ownershipTicket request.handle }
  | owner (pc : OwnerPc Handle) : state.Works pc → pc.reference = state.owner.reference →
      Move state event (state.setOwner pc)
  | acquire (handle : Handle) (pc : OwnerPc Handle) : state.Works pc →
      state.owner.reference = none → pc.reference = some (handle, state.nextReference) →
      Move state event (((state.loaderOpen handle).record handle).setOwner pc)
  | own (ticket : ℕ) (reference : Handle × ℕ) (token : Handle) (request : AttachRequest Handle) :
      state.owner = .pinned ticket (some (reference, token)) →
      state.queue.find? (·.ownershipTicket = ticket) = some request →
      request.state = .pinning → request.referenceTransferred = false →
      Move state event ((state.resolve ticket (·.own reference token)).setOwner .waiting)
  | resolveUnpinned (ticket : ℕ) (request : AttachRequest Handle) :
      state.owner = .pinned ticket none →
      state.queue.find? (·.ownershipTicket = ticket) = some request →
      request.state = .pinning →
      Move state event ((state.resolve ticket (·.resolveUnpinned)).setOwner .waiting)
  | closeOwned (reference : Handle × ℕ) (pc : OwnerPc Handle) : state.Works pc →
      state.owner.reference = some reference → pc.reference = none →
      Move state event ((state.internalClose reference).setOwner pc)
  | beginDrain (drain : Drain) (limit : ℕ) : state.drains drain = .idle →
      state.controller = .opened →
      Move state event { state.setDrain drain (.looping 0 limit []) with
        drainActive := true
        activeDrains := state.activeDrains + 1 }
  | take (drain : Drain) (drained limit : ℕ) (handles : List (Handle × ℕ))
      (request : AttachRequest Handle) (rest : List (AttachRequest Handle)) :
      state.drains drain = .looping drained limit handles → state.queue = request :: rest →
      request.drainable →
      Move state event
        ({ state with queue := rest }.setDrain drain (.popped drained limit handles request))
  | drain (drain : Drain) (pc : DrainPc Handle) : state.DrainsOn drain pc →
      Move state event (state.setDrain drain pc)
  | retain (drain : Drain) (drained limit : ℕ) (handles : List (Handle × ℕ))
      (request : AttachRequest Handle) (scope : AttachScope) (result : AttachResult) :
      state.drains drain = .popped drained limit handles request →
      Move state event { state.setDrain drain
          (.attached drained limit handles (retain { request with scope := scope }).1 result) with
        retained := state.retained ++ (retain { request with scope := scope }).2 }
  | requeue (drain : Drain) (drained limit : ℕ) (handles : List (Handle × ℕ))
      (request : AttachRequest Handle) (result : AttachResult) :
      state.drains drain = .attached drained limit handles request result → request.drainable →
      Move state event { state.setDrain drain (.looping (drained + 1) limit handles) with
        queue := state.queue ++ [request] }
  | endDrain (drain : Drain) (handles : List (Handle × ℕ)) :
      state.drains drain = .ending handles →
      Move state event { state.setDrain drain (.closing handles) with
        drainActive := false
        activeDrains := state.activeDrains - 1 }
  | drainClose (drain : Drain) (reference : Handle × ℕ) (handles : List (Handle × ℕ)) :
      state.drains drain = .closing (reference :: handles) →
      Move state event ((state.internalClose reference).setDrain drain (.closing handles))
  | drainEnds (drain : Drain) : state.drains drain = .closing [] →
      Move state event (state.setDrain drain .idle)
  | enable : state.controller ≠ .shuttingDown →
      Move state event
        { state with listenerOwner := true, guardOwner := true, controller := .opened }
  | withdraw : Move state event { state with listenerOwner := false }
  | shutDown : state.shutdown = .idle →
      Move state event { state.setShutdown .awaitAttach with
        listenerOwner := false
        controller := .shuttingDown }
  | advance (pc : ShutdownPc Handle) (running : Bool) : state.Advances pc →
      Move state event { state.setShutdown pc with threadRunning := running }
  | clearOwner : state.shutdown = .clearOwner →
      Move state event { state.setShutdown .stopThread with guardOwner := false }
  | discard (pc : ShutdownPc Handle) (request : AttachRequest Handle)
      (rest : List (AttachRequest Handle)) : state.shutdown = .discarding →
      state.queue = request :: rest → request.drainable → pc.stage = 7 →
      pc.references = present request.handleToClose →
      Move state event ({ state with queue := rest }.setShutdown pc)
  | closeTaken (reference : Handle × ℕ) (pc : ShutdownPc Handle) : 7 ≤ pc.stage →
      pc.stage = state.shutdown.stage →
      state.shutdown.references = reference ::ₘ pc.references →
      Move state event ((state.internalClose reference).setShutdown pc)
  | release : state.shutdown = .finished →
      Move state event { state.setShutdown (.releasing state.retained) with retained := [] }
  | timeOut : state.shutdown.stage < 4 → Move state event (state.setShutdown .idle)
  | setRoute (route : GuardRoute) : 8 ≤ state.shutdown.stage →
      Move state event { state with route := route }

variable {call : Call} {drain : Drain}

theorem Move.goto {here : CallPc Handle} (pc : CallPc Handle) (isHere : state.calls call = here)
    (reference : pc.reference = here.reference) (uncommitted : pc.uncommitted = here.uncommitted) :
    Move state event (state.goto call pc) :=
  .turn call pc state.activeCallbacks ⟨isHere ▸ reference, .inl (isHere ▸ uncommitted)⟩

theorem move_enter {refused : Bool} (stepped : state.enter call refused = some after) :
    Move state event after := by
  unfold enter at stepped
  split at stepped
  next idle =>
    split at stepped <;> cases stepped <;> exact .goto _ idle rfl rfl
  next => cases stepped

theorem move_beginCallback (stepped : state.beginCallback call = some after) :
    Move state event after := by
  unfold beginCallback at stepped
  split at stepped
  next arriving =>
    repeat' split at stepped
    all_goals cases stepped
    · exact .turn call _ _ ⟨by rw [arriving]; rfl, .inl (by rw [arriving]; rfl)⟩
    · exact .goto _ arriving rfl rfl
  next => cases stepped

theorem move_skip (stepped : state.skip call = some after) :
    Move state event after := by
  unfold skip at stepped
  split at stepped <;> cases stepped
  next loaded =>
    exact .goto _ loaded rfl rfl
  next handle loaded =>
    exact .receive call handle state.activeCallbacks (by rw [loaded]; rfl) (by rw [loaded]; rfl)

theorem move_close {handle : Handle} {internal : Bool}
    (stepped : state.close call handle internal = some after) :
    Move state (.close call handle internal) after := by
  unfold close at stepped
  split at stepped
  next idle =>
    split at stepped
    next received =>
      split at stepped <;> cases stepped
      · exact .close call handle _ idle received rfl (.inl rfl)
      next unguarded =>
        refine .close call handle _ idle received rfl (.inr ?_)
        cases internal with
        | true => exact .inl rfl
        | false => exact .inr (by simpa using unguarded)
    next => cases stepped
  next => cases stepped

theorem move_readOwner (stepped : state.readOwner call = some after) :
    Move state event after := by
  unfold readOwner at stepped
  split at stepped <;> cases stepped
  rename_i handle guarded
  cases owned : state.guardOwner with
  | true => exact .goto _ guarded rfl rfl
  | false => exact .turn call _ state.activeCallbacks ⟨by rw [guarded]; rfl, .inr (.inl owned)⟩

theorem move_readPending (stepped : state.readPending call = some after) :
    Move state event after := by
  unfold readPending at stepped
  split at stepped <;> cases stepped
  rename_i handle owned
  by_cases resolved : state.pendingOwnership = 0
  · rw [if_pos resolved]
    exact .turn call _ state.activeCallbacks ⟨by rw [owned]; rfl, .inr (.inr (.inl resolved))⟩
  · rw [if_neg resolved]
    exact .goto _ owned rfl rfl

theorem move_guardedDlclose (stepped : state.guardedDlclose call = some after) :
    Move state event after := by
  unfold guardedDlclose at stepped
  split at stepped
  next handle locking =>
    split at stepped <;> cases stepped
    next unknown =>
      refine .turn call _ state.activeCallbacks ⟨by rw [locking]; rfl, .inr (.inr (.inr ?_))⟩
      exact ⟨handle, by rw [locking]; rfl, rfl, unknown⟩
    next request found =>
      exact .transfer call handle request locking found
  next => cases stepped

theorem move_select (stepped : state.select = some after) : Move state event after := by
  unfold select at stepped
  split at stepped
  next waiting =>
    split at stepped
    next =>
      split at stepped <;> cases stepped
      rename_i request found
      exact .select request waiting found
    next =>
      cases stepped
      exact .owner .exited ⟨by simp [waiting], nofun⟩ (by rw [waiting]; rfl)
  next => cases stepped

theorem move_commit (stepped : state.commit = some after) : Move state event after := by
  unfold commit at stepped
  split at stepped
  next ticket pin pinned =>
    have runs : state.owner ≠ .exited := by simp [pinned]
    have closes : ∀ pc : OwnerPc Handle, (∀ ticket handle, pc ≠ .pinning ticket handle) →
        pc.reference = pin.map Prod.fst → Move state event (state.setOwner pc) :=
      fun pc others same => .owner pc ⟨runs, others⟩ (by rw [pinned, same]; rfl)
    split at stepped
    next request reference token found =>
      split at stepped
      next pinning =>
        split at stepped <;> cases stepped
        · exact closes _ nofun rfl
        next untransferred =>
          exact .own ticket reference token request pinned found pinning
            (by simpa using untransferred)
      next =>
        cases stepped
        exact closes _ nofun rfl
    next request found =>
      split at stepped <;> cases stepped
      next pinning =>
        exact .resolveUnpinned ticket request pinned found pinning
      · exact closes _ nofun rfl
    all_goals
      cases stepped
      exact closes _ nofun rfl
  next => cases stepped

theorem move_closeOwned (stepped : state.closeOwned = some after) : Move state event after := by
  unfold closeOwned at stepped
  split at stepped <;> cases stepped
  all_goals
    rename_i closing
    exact .closeOwned _ _ ⟨by simp [closing], nofun⟩ (by rw [closing]; rfl) rfl

omit [DecidableEq Handle] [DecidableEq Call] [DecidableEq Drain] in
theorem popRequest_eq_some {request : AttachRequest Handle} {popped : Loader Handle Call Drain}
    (isPopped : state.popRequest = some (request, popped)) :
    ∃ rest, state.queue = request :: rest ∧ request.drainable ∧
      popped = { state with queue := rest } := by
  unfold popRequest at isPopped
  split at isPopped
  next => cases isPopped
  next first rest queue =>
    split at isPopped <;> cases isPopped
    rename_i drainable
    exact ⟨rest, queue, drainable, rfl⟩

theorem Move.drainsOn {here : DrainPc Handle} (pc : DrainPc Handle)
    (isHere : state.drains drain = here) (references : pc.references = here.references)
    (active : here.active = 1)
    (still : pc.active = 1)
    (request : ∀ request, pc.request = some request →
      ∃ taken scope, here.request = some taken ∧ request = { taken with scope := scope }) :
    Move state event (state.setDrain drain pc) :=
  .drain drain pc ⟨isHere ▸ references, isHere ▸ active, still, isHere ▸ request⟩

theorem move_drainPop (stepped : state.drainPop drain = some after) :
    Move state event after := by
  unfold drainPop at stepped
  split at stepped
  next drained limit handles looping =>
    split at stepped
    next =>
      split at stepped <;> cases stepped
      next request popped isPopped =>
        rcases popRequest_eq_some isPopped with ⟨rest, queue, drainable, rfl⟩
        exact .take drain drained limit handles request rest looping queue drainable
      · exact .drainsOn _ looping rfl rfl rfl nofun
    next =>
      cases stepped
      exact .drainsOn _ looping rfl rfl rfl nofun
  next => cases stepped

theorem move_attach {scope : AttachScope} {retains : Bool} {result : AttachResult}
    (stepped : state.attach drain scope retains result = some after) : Move state event after := by
  unfold attach at stepped
  split at stepped
  next drained limit handles request popped =>
    split at stepped
    next =>
      cases stepped
      exact .drainsOn _ popped rfl rfl rfl fun _ same => ⟨request, _, rfl, by cases same; rfl⟩
    next =>
      split at stepped <;> rw [Option.some.injEq] at stepped <;> subst stepped
      · exact .retain drain drained limit handles request scope result popped
      · exact .drainsOn _ popped rfl rfl rfl fun _ same => ⟨request, scope, rfl, by cases same; rfl⟩
  next => cases stepped

theorem move_drainFinish (stepped : state.drainFinish drain = some after) :
    Move state event after := by
  unfold drainFinish at stepped
  split at stepped
  next drained limit handles request result attached =>
    split at stepped <;> cases stepped
    next requeued =>
      refine .requeue drain drained limit handles request result attached ?_
      simp only [requeues, decide_eq_true_eq] at requeued
      simp [AttachRequest.drainable, requeued.2.2.2.1]
    · refine .drainsOn _ attached ?_ rfl rfl nofun
      simp only [DrainPc.references, ← Multiset.coe_add, present]
  next => cases stepped

theorem Move.onward {here : ShutdownPc Handle} (pc : ShutdownPc Handle)
    (running : Bool) (isHere : state.shutdown = here)
    (quiet : pc.stage = 2 → state.activeDrains = 0 := by nofun)
    (resolved : pc.stage = 4 → state.pendingOwnership = 0 := by nofun)
    (joined : pc.stage = 7 → state.owner = .exited := by nofun)
    (emptied : pc.stage = 8 → state.popRequest = none := by nofun)
    (started : 1 ≤ here.stage := by exact Nat.le_add_left 1 _)
    (next : pc.stage = here.stage + 1 := by rfl)
    (references : pc.references = here.references := by rfl)
    (unguarded : pc.stage ≠ 5 := by nofun) (released : pc.stage ≠ 9 := by nofun) :
    Move state event { state.setShutdown pc with threadRunning := running } := by
  subst isHere
  exact .advance pc running
    ⟨started, next, references, quiet, resolved, unguarded, joined, emptied, released⟩

theorem move_proceed (stepped : state.proceed = some after) : Move state event after := by
  unfold proceed at stepped
  split at stepped
  case h_1 idle =>
    cases stepped
    exact .shutDown idle
  case h_2 here =>
    split at stepped <;> cases stepped
    rename_i quiet
    exact .onward .awaitCallbacks state.threadRunning here (fun _ => quiet)
  case h_3 here =>
    split at stepped <;> cases stepped
    exact .onward .awaitPending state.threadRunning here
  case h_4 here =>
    split at stepped <;> cases stepped
    rename_i resolved
    exact .onward .clearOwner state.threadRunning here nofun (fun _ => resolved)
  case h_5 here =>
    cases stepped
    exact .clearOwner here
  case h_6 here =>
    cases stepped
    exact .onward .joinThread false here
  case h_7 here =>
    split at stepped <;> cases stepped
    rename_i joined
    exact .onward .discarding state.threadRunning here nofun nofun (fun _ => joined)
  case h_8 here =>
    split at stepped
    next isEmpty =>
      cases stepped
      exact .onward .finished state.threadRunning here nofun nofun nofun (fun _ => isEmpty)
    next request popped isPopped =>
      rcases popRequest_eq_some isPopped with ⟨rest, queue, drainable, rfl⟩
      split at stepped <;> cases stepped
      next nothing =>
        have same : ({ state with queue := rest } : Loader Handle Call Drain) =
            { state with queue := rest }.setShutdown .discarding := by
          rw [setShutdown, ← here]
        rw [same]
        exact .discard _ request rest here queue drainable rfl (by rw [nothing]; rfl)
      next reference something =>
        exact .discard _ request rest here queue drainable rfl (by rw [something]; rfl)
  case h_9 reference here =>
    cases stepped
    exact .closeTaken reference _ le_rfl (by rw [here]; rfl) (by rw [here]; rfl)
  case h_10 here =>
    cases stepped
    exact .release here
  case h_11 reference handles here =>
    cases stepped
    exact .closeTaken reference _ (Nat.le_add_right 7 2) (by rw [here]; rfl) (by rw [here]; rfl)
  case h_12 here =>
    cases stepped
    exact .onward .released state.threadRunning here
  case h_13 => cases stepped

theorem Move.of_step (stepped : state.step event = some after) : Move state event after := by
  cases event with
  | enter => exact move_enter stepped
  | beginCallback => exact move_beginCallback stepped
  | skip => exact move_skip stepped
  | close => exact move_close stepped
  | readOwner => exact move_readOwner stepped
  | readPending => exact move_readPending stepped
  | guardedDlclose => exact move_guardedDlclose stepped
  | select => exact move_select stepped
  | commit => exact move_commit stepped
  | closeOwned => exact move_closeOwned stepped
  | drainPop => exact move_drainPop stepped
  | attach => exact move_attach stepped
  | drainFinish => exact move_drainFinish stepped
  | proceed => exact move_proceed stepped
  | load call handle =>
    simp only [step, Loader.load] at stepped
    split at stepped <;> cases stepped
    rename_i admitted entered
    exact .load call admitted handle entered
  | enqueue call bindingFlags scope =>
    simp only [step, Loader.enqueue] at stepped
    split at stepped <;> cases stepped
    rename_i handle loaded
    exact .enqueue call handle bindingFlags scope loaded
  | endCallback call =>
    simp only [step, endCallback] at stepped
    split at stepped <;> cases stepped
    rename_i handle leaving
    exact .receive call handle _ (by rw [leaving]; rfl) (by rw [leaving]; rfl)
  | unload call =>
    simp only [step, Loader.unload] at stepped
    split at stepped <;> cases stepped
    rename_i handle closing
    exact .unload call handle closing
  | pin =>
    simp only [step, pin] at stepped
    split at stepped
    next ticket handle pinning =>
      split at stepped <;> cases stepped
      exact .acquire handle _ ⟨by simp [pinning], nofun⟩ (by rw [pinning]; rfl) rfl
    next => cases stepped
  | pinOther other =>
    simp only [step, pinOther] at stepped
    split at stepped <;> cases stepped
    rename_i pinning
    exact .acquire other _ ⟨by simp [pinning], nofun⟩ (by rw [pinning]; rfl) rfl
  | pinFails =>
    simp only [step, pinFails] at stepped
    split at stepped <;> cases stepped
    rename_i pinning
    exact .owner _ ⟨by simp [pinning], nofun⟩ (by rw [pinning]; rfl)
  | beginDrain drain =>
    simp only [step, Loader.beginDrain] at stepped
    split at stepped
    next idle =>
      split at stepped <;> cases stepped
      rename_i admitted
      exact .beginDrain drain _ idle admitted.1
    next => cases stepped
  | endDrain drain =>
    simp only [step, Loader.endDrain] at stepped
    split at stepped <;> cases stepped
    rename_i handles ending
    exact .endDrain drain handles ending
  | drainClose drain =>
    simp only [step, Loader.drainClose] at stepped
    split at stepped <;> cases stepped
    next reference handles closing =>
      exact .drainClose drain reference handles closing
    next closing =>
      exact .drainEnds drain closing
  | enable =>
    simp only [step, Loader.enable] at stepped
    split at stepped <;> cases stepped
    rename_i allowed
    exact .enable allowed.1
  | withdraw =>
    cases stepped
    exact .withdraw
  | timeOut =>
    simp only [step, Loader.timeOut] at stepped
    split at stepped <;> cases stepped
    all_goals
      rename_i waits
      exact .timeOut (by simp [waits, ShutdownPc.stage])
  | setRoute route =>
    simp only [step, Loader.setRoute] at stepped
    split at stepped <;> cases stepped
    all_goals
      rename_i here
      exact .setRoute route (by simp [here, ShutdownPc.stage])

end Loader

end Peak
