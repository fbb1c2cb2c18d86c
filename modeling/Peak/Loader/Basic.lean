import Mathlib.Algebra.BigOperators.Group.Finset.Basic
import Mathlib.Algebra.Order.BigOperators.Group.Multiset
import Peak.Common.FirstMatch

/-!
# Attaching to libraries opened at run time

Every `dlopen` of the application is queued, so that the controller can attach to the symbols of the
library later. To keep it loaded until then, an ownership thread opens it once more. An application
which closes the library before leaves its own reference to the queue instead.

The steps are the sections of `src/dlopen_interceptor.c` that hold its mutex, the atomic accesses of
the `dlclose` guard, and the calls to the loader. The numbers of the references which PEAK acquires,
and the lists of those acquired and closed, are not part of the source.
-/

namespace Peak

inductive ControllerState where
  | closed
  | opened
  | shuttingDown
deriving DecidableEq

inductive AttachScope where
  | all
  | fftwOnly
  | nonFftwOnly
deriving DecidableEq

/-- `RTLD_LAZY` and `RTLD_NOW`. -/
structure BindingFlags where
  lazy : Bool
  now : Bool
deriving DecidableEq

inductive RequestState where
  | borrowed
  | pinning
  | ready
  | pinFailed
deriving DecidableEq

inductive AttachResult where
  | done
  | retry
deriving DecidableEq

/-- `PeakDlcloseGuardRouteState`. -/
inductive GuardRoute where
  | routed
  | reverting
  | reverted
deriving DecidableEq

/-- `PeakDlopenDynamicAttachRequest`. `reference` is the number of the reference it owns. -/
structure AttachRequest (Handle : Type) where
  handle : Option Handle
  bindingFlags : BindingFlags
  scope : AttachScope
  moduleToken : Option Handle
  sourceHandleToken : Handle
  ownershipTicket : ℕ
  state : RequestState
  handleOwned : Bool
  referenceTransferred : Bool
  handleRetained : Bool
  reference : ℕ
deriving DecidableEq

/-- A call of `dlopen` or `dlclose` by the application. -/
inductive CallPc (Handle : Type) where
  | idle
  /-- In `dlopen_interceptor_begin_callback`. -/
  | arriving
  /-- Before the loader opens the library. -/
  | entered (admitted : Bool)
  /-- The loader has returned. -/
  | loaded (admitted : Bool) (handle : Option Handle)
  /-- Before `dlopen_interceptor_end_callback`. -/
  | leaving (handle : Option Handle)
  /-- In the guard, before it reads the owner. -/
  | guarded (handle : Handle)
  /-- Before the guard reads the number of pending requests. -/
  | owned (handle : Handle)
  /-- Before the guard takes the mutex. -/
  | locking (handle : Handle)
  /-- Before the loader closes the library. -/
  | closing (handle : Handle)

inductive OwnerPc (Handle : Type) where
  | waiting
  | pinning (ticket : ℕ) (handle : Option Handle)
  /-- The loader has returned another library. -/
  | mismatched (ticket : ℕ) (reference : Handle × ℕ)
  | pinned (ticket : ℕ) (pin : Option ((Handle × ℕ) × Handle))
  | redundant (ticket : ℕ) (reference : Handle × ℕ)
  | stray (reference : Handle × ℕ)
  | exited
deriving DecidableEq

/-- A drain, with the number of requests drained, their limit and the handles to close. -/
inductive DrainPc (Handle : Type) where
  | idle
  | looping (drained limit : ℕ) (handles : List (Handle × ℕ))
  | popped (drained limit : ℕ) (handles : List (Handle × ℕ)) (request : AttachRequest Handle)
  | attached (drained limit : ℕ) (handles : List (Handle × ℕ)) (request : AttachRequest Handle)
      (result : AttachResult)
  | ending (handles : List (Handle × ℕ))
  | closing (handles : List (Handle × ℕ))
deriving DecidableEq

/-- `dlopen_interceptor_shutdown_dynamic_attach`, followed by the release of the retained
handles. -/
inductive ShutdownPc (Handle : Type) where
  | idle
  | awaitAttach
  | awaitCallbacks
  | awaitPending
  | clearOwner
  | stopThread
  | joinThread
  | discarding
  | discardClosing (reference : Handle × ℕ)
  | finished
  | releasing (handles : List (Handle × ℕ))
  | released
deriving DecidableEq

structure Loader (Handle Call Drain : Type) where
  /-- The references which the loader counts. -/
  counted : Multiset Handle
  /-- The references which the application has received and is not closing. -/
  received : Multiset Handle
  calls : Call → CallPc Handle
  controller : ControllerState
  /-- `dlopen_listener_owner_pid` and `dlclose_guard_owner_pid` are set. -/
  listenerOwner : Bool
  guardOwner : Bool
  route : GuardRoute
  threadRunning : Bool
  queue : List (AttachRequest Handle)
  drainActive : Bool
  activeDrains : ℕ
  activeCallbacks : ℕ
  pendingOwnership : ℕ
  /-- The source wraps after `2 ^ 64 - 1` tickets, and skips `0`. The requests here are fewer. -/
  nextTicket : ℕ
  retained : List (Handle × ℕ)
  owner : OwnerPc Handle
  drains : Drain → DrainPc Handle
  shutdown : ShutdownPc Handle
  acquired : Multiset (Handle × ℕ)
  closed : Multiset (Handle × ℕ)
  nextReference : ℕ

def attachQueueCapacity : ℕ := 256

namespace AttachRequest

variable {Handle : Type} (request : AttachRequest Handle)

def pending : Bool :=
  request.state = .borrowed || request.state = .pinning

def drainable : Bool :=
  request.state = .ready || request.state = .pinFailed

/-- `dlopen_interceptor_release_dynamic_attach_request_metadata`: the handle to close. -/
def handleToClose : Option (Handle × ℕ) :=
  if request.handleOwned && !request.handleRetained then
    request.handle.map (·, request.reference)
  else
    none

/-- `dlopen_interceptor_merge_queued_request_unlocked`. -/
def merge (bindingFlags : BindingFlags) (scope : AttachScope) : AttachRequest Handle :=
  { request with
    scope := if request.scope ≠ scope then .all else request.scope
    bindingFlags := if bindingFlags.now then ⟨false, true⟩ else request.bindingFlags }

/-- The application leaves its reference to the request. One that is being pinned waits for the
ownership thread. -/
def transfer (handle : Handle) (reference : ℕ) : AttachRequest Handle :=
  { request with
    state := if request.state = .borrowed then .ready else request.state
    referenceTransferred := if request.state = .borrowed then request.referenceTransferred else true
    handle := some handle
    moduleToken := some request.sourceHandleToken
    handleOwned := true
    reference := reference }

def own (reference : Handle × ℕ) (token : Handle) : AttachRequest Handle :=
  { request with
    handle := some reference.1
    moduleToken := some token
    state := .ready
    handleOwned := true
    reference := reference.2 }

def resolveUnpinned : AttachRequest Handle :=
  if request.referenceTransferred then
    { request with state := .ready, handleOwned := true }
  else
    { request with handle := none, moduleToken := none, state := .pinFailed, handleOwned := false }

/-- `dlopen_interceptor_find_queued_request_unlocked` for a handle. -/
def matchesHandle [DecidableEq Handle] (handle : Handle) : Bool :=
  request.state ≠ .pinFailed ∧
    (request.sourceHandleToken = handle ∨ request.moduleToken = some handle)

/-- `dlopen_interceptor_find_pending_handle_unlocked`. -/
def transferable [DecidableEq Handle] (handle : Handle) : Bool :=
  (request.state = .borrowed ∨ request.state = .pinning ∧ !request.referenceTransferred) ∧
    request.sourceHandleToken = handle

end AttachRequest

namespace Loader

variable {Handle Call Drain : Type} [DecidableEq Handle] [DecidableEq Call] [DecidableEq Drain]

/-- The state after `dlopen_interceptor_attach`. The application may have opened libraries
before. -/
def start (received : Multiset Handle) : Loader Handle Call Drain where
  counted := received
  received := received
  calls := fun _ => .idle
  controller := .closed
  listenerOwner := false
  guardOwner := false
  route := .routed
  threadRunning := true
  queue := []
  drainActive := false
  activeDrains := 0
  activeCallbacks := 0
  pendingOwnership := 0
  nextTicket := 1
  retained := []
  owner := .waiting
  drains := fun _ => .idle
  shutdown := .idle
  acquired := 0
  closed := 0
  nextReference := 0

variable (state : Loader Handle Call Drain)

def goto (call : Call) (pc : CallPc Handle) : Loader Handle Call Drain :=
  { state with calls := Function.update state.calls call pc }

def setDrain (drain : Drain) (pc : DrainPc Handle) : Loader Handle Call Drain :=
  { state with drains := Function.update state.drains drain pc }

def setOwner (pc : OwnerPc Handle) : Loader Handle Call Drain :=
  { state with owner := pc }

def setShutdown (pc : ShutdownPc Handle) : Loader Handle Call Drain :=
  { state with shutdown := pc }

def receive (handle : Option Handle) : Loader Handle Call Drain :=
  { state with received := handle.elim state.received (· ::ₘ state.received) }

def loaderOpen (handle : Handle) : Loader Handle Call Drain :=
  { state with counted := handle ::ₘ state.counted }

def loaderClose (handle : Handle) : Loader Handle Call Drain :=
  { state with counted := state.counted.erase handle }

def record (handle : Handle) : Loader Handle Call Drain :=
  { state with
    acquired := (handle, state.nextReference) ::ₘ state.acquired
    nextReference := state.nextReference + 1 }

/-- `dlopen_interceptor_internal_dlclose`. -/
def internalClose (reference : Handle × ℕ) : Loader Handle Call Drain :=
  { state.loaderClose reference.1 with closed := reference ::ₘ state.closed }

/-- `dlopen_interceptor_on_enter` up to the mutex. Changing the cancel state may fail. -/
def enter (call : Call) (refused : Bool) : Option (Loader Handle Call Drain) :=
  match state.calls call with
  | .idle =>
    if state.listenerOwner && !refused then
      some (state.goto call .arriving)
    else
      some (state.goto call (.entered false))
  | _ => none

/-- `dlopen_interceptor_begin_callback`, which waits for the end of a drain. -/
def beginCallback (call : Call) : Option (Loader Handle Call Drain) :=
  match state.calls call with
  | .arriving =>
    if state.controller = .opened ∧ state.listenerOwner then
      if state.drainActive then
        none
      else
        some { state.goto call (.entered true) with activeCallbacks := state.activeCallbacks + 1 }
    else
      some (state.goto call (.entered false))
  | _ => none

def load (call : Call) (handle : Option Handle) : Option (Loader Handle Call Drain) :=
  match state.calls call with
  | .entered admitted =>
    some ((handle.elim state state.loaderOpen).goto call (.loaded admitted handle))
  | _ => none

/-- `dlopen_interceptor_on_leave` without a request: not admitted, failed, no unresolved target, or
no memory. -/
def skip (call : Call) : Option (Loader Handle Call Drain) :=
  match state.calls call with
  | .loaded true handle => some (state.goto call (.leaving handle))
  | .loaded false handle => some ((state.receive handle).goto call .idle)
  | _ => none

def queueCanAccept : Bool :=
  state.controller = .opened ∧ state.queue.length < attachQueueCapacity

def newRequest (handle : Handle) (bindingFlags : BindingFlags) (scope : AttachScope) :
    AttachRequest Handle where
  handle := some handle
  bindingFlags := bindingFlags
  scope := scope
  moduleToken := none
  sourceHandleToken := handle
  ownershipTicket := state.nextTicket
  state := .borrowed
  handleOwned := false
  -- a slot of the queue is cleared when its request is taken out
  referenceTransferred := false
  handleRetained := false
  reference := 0

/-- `dlopen_interceptor_enqueue_dynamic_attach_request`. -/
def enqueueRequest (handle : Handle) (bindingFlags : BindingFlags) (scope : AttachScope) :
    Loader Handle Call Drain :=
  if state.controller ≠ .opened then
    state
  else if !state.threadRunning then
    state
  else if (state.queue.find? (·.matchesHandle handle)).isSome then
    { state with
      queue := FirstMatch.modifyFirst (·.matchesHandle handle) (·.merge bindingFlags scope)
        state.queue }
  else if !state.queueCanAccept then
    state
  else
    { state with
      queue := state.queue ++ [state.newRequest handle bindingFlags scope]
      nextTicket := state.nextTicket + 1
      pendingOwnership := state.pendingOwnership + 1 }

def enqueue (call : Call) (bindingFlags : BindingFlags) (scope : AttachScope) :
    Option (Loader Handle Call Drain) :=
  match state.calls call with
  | .loaded true (some handle) =>
    some ((state.enqueueRequest handle bindingFlags scope).goto call (.leaving (some handle)))
  | _ => none

def endCallback (call : Call) : Option (Loader Handle Call Drain) :=
  match state.calls call with
  | .leaving handle =>
    some { (state.receive handle).goto call .idle with
      activeCallbacks := state.activeCallbacks - 1 }
  | _ => none

/-- The application calls `dlclose` with a reference it received. In a destructor run by a close of
PEAK `internal` is set. -/
def close (call : Call) (handle : Handle) (internal : Bool) : Option (Loader Handle Call Drain) :=
  match state.calls call with
  | .idle =>
    if handle ∈ state.received then
      let taken := { state with received := state.received.erase handle }
      if state.route = .routed ∧ !internal then
        some (taken.goto call (.guarded handle))
      else
        some (taken.goto call (.closing handle))
    else
      none
  | _ => none

def readOwner (call : Call) : Option (Loader Handle Call Drain) :=
  match state.calls call with
  | .guarded handle =>
    some (state.goto call (if state.guardOwner then .owned handle else .closing handle))
  | _ => none

def readPending (call : Call) : Option (Loader Handle Call Drain) :=
  match state.calls call with
  | .owned handle =>
    some (state.goto call (if state.pendingOwnership = 0 then .closing handle else .locking handle))
  | _ => none

/-- The section of `dlopen_interceptor_guarded_dlclose` with the mutex. A request not yet being
pinned is resolved. -/
def guardedDlclose (call : Call) : Option (Loader Handle Call Drain) :=
  match state.calls call with
  | .locking handle =>
    match state.queue.find? (·.transferable handle) with
    | none => some (state.goto call (.closing handle))
    | some request =>
      some { (state.record handle).goto call .idle with
        queue := FirstMatch.modifyFirst (·.transferable handle)
          (·.transfer handle state.nextReference) state.queue
        pendingOwnership :=
          if request.state = .borrowed then state.pendingOwnership - 1
          else state.pendingOwnership }
  | _ => none

def unload (call : Call) : Option (Loader Handle Call Drain) :=
  match state.calls call with
  | .closing handle => some ((state.loaderClose handle).goto call .idle)
  | _ => none

/-- The first borrowed request is selected. Without one, the thread waits. -/
def select : Option (Loader Handle Call Drain) :=
  match state.owner with
  | .waiting =>
    if state.threadRunning then
      match state.queue.find? (·.state = .borrowed) with
      | none => none
      | some request =>
        some { state with
          queue := FirstMatch.modifyFirst (·.state = .borrowed)
            ({ · with state := .pinning }) state.queue
          owner := .pinning request.ownershipTicket request.handle }
    else
      some (state.setOwner .exited)
  | _ => none

/-- `dlopen_interceptor_pin_dynamic_handle_reference` with the exact library. The loader opens it
only if it is loaded. -/
def pin (token : Handle) : Option (Loader Handle Call Drain) :=
  match state.owner with
  | .pinning ticket (some handle) =>
    if handle ∈ state.counted then
      some (((state.loaderOpen handle).record handle).setOwner
        (.pinned ticket (some ((handle, state.nextReference), token))))
    else
      none
  | _ => none

def pinOther (other : Handle) : Option (Loader Handle Call Drain) :=
  match state.owner with
  | .pinning ticket _ =>
    some (((state.loaderOpen other).record other).setOwner
      (.mismatched ticket (other, state.nextReference)))
  | _ => none

def pinFails : Option (Loader Handle Call Drain) :=
  match state.owner with
  | .pinning ticket _ => some (state.setOwner (.pinned ticket none))
  | _ => none

def resolve (ticket : ℕ) (change : AttachRequest Handle → AttachRequest Handle) :
    Loader Handle Call Drain :=
  { state with
    queue := FirstMatch.modifyFirst (·.ownershipTicket = ticket) change state.queue
    pendingOwnership := state.pendingOwnership - 1 }

/-- The pin is committed. It is closed first if the application has left its reference meanwhile,
and afterwards if the request is gone. -/
def commit : Option (Loader Handle Call Drain) :=
  match state.owner with
  | .pinned ticket pin =>
    match state.queue.find? (·.ownershipTicket = ticket), pin with
    | some request, some (reference, token) =>
      if request.state = .pinning then
        if request.referenceTransferred then
          some (state.setOwner (.redundant ticket reference))
        else
          some ((state.resolve ticket (·.own reference token)).setOwner .waiting)
      else
        some (state.setOwner (.stray reference))
    | some request, none =>
      if request.state = .pinning then
        some ((state.resolve ticket (·.resolveUnpinned)).setOwner .waiting)
      else
        some (state.setOwner .waiting)
    | none, some (reference, _) => some (state.setOwner (.stray reference))
    | none, none => some (state.setOwner .waiting)
  | _ => none

/-- `dlopen_interceptor_close_ownership_reference`, and the close of another library. -/
def closeOwned : Option (Loader Handle Call Drain) :=
  match state.owner with
  | .mismatched ticket reference =>
    some ((state.internalClose reference).setOwner (.pinned ticket none))
  | .redundant ticket reference =>
    some ((state.internalClose reference).setOwner (.pinned ticket none))
  | .stray reference => some ((state.internalClose reference).setOwner .waiting)
  | _ => none

/-- `dlopen_interceptor_pop_dynamic_attach_request`. -/
def popRequest : Option (AttachRequest Handle × Loader Handle Call Drain) :=
  match state.queue with
  | [] => none
  | request :: rest =>
    if request.drainable then some (request, { state with queue := rest }) else none

/-- `dlopen_interceptor_begin_dynamic_attach_drain`, with the largest number of requests or zero. -/
def beginDrain (drain : Drain) (maxRequests : ℕ) : Option (Loader Handle Call Drain) :=
  match state.drains drain with
  | .idle =>
    if state.controller = .opened ∧ !state.drainActive ∧ state.activeCallbacks = 0 ∧
        state.popRequest.isSome then
      let limit := if maxRequests ≠ 0 ∧ maxRequests < state.queue.length then maxRequests
        else state.queue.length
      some { state.setDrain drain (.looping 0 limit []) with
        drainActive := true
        activeDrains := state.activeDrains + 1 }
    else
      none
  | _ => none

def drainPop (drain : Drain) : Option (Loader Handle Call Drain) :=
  match state.drains drain with
  | .looping drained limit handles =>
    if drained < limit then
      match state.popRequest with
      | some (request, popped) =>
        some (popped.setDrain drain (.popped drained limit handles request))
      | none => some (state.setDrain drain (.ending handles))
    else
      some (state.setDrain drain (.ending handles))
  | _ => none

/-- `dlopen_interceptor_retain_dynamic_handle`: the request, and what is added to the retained
handles. -/
def retain (request : AttachRequest Handle) : AttachRequest Handle × List (Handle × ℕ) :=
  match request.handle with
  | none => (request, [])
  | some handle =>
    if request.handleOwned && !request.handleRetained then
      ({ request with handleRetained := true }, [(handle, request.reference)])
    else
      (request, [])

/-- `dlopen_interceptor_attach_from_request`. It may change the scope and retain the handle. -/
def attach (drain : Drain) (scope : AttachScope) (retains : Bool) (result : AttachResult) :
    Option (Loader Handle Call Drain) :=
  match state.drains drain with
  | .popped drained limit handles request =>
    if request.handle = none then
      some (state.setDrain drain (.attached drained limit handles request .done))
    else if retains then
      let kept := retain { request with scope := scope }
      some { state.setDrain drain (.attached drained limit handles kept.1 result) with
        retained := state.retained ++ kept.2 }
    else
      some (state.setDrain drain
        (.attached drained limit handles { request with scope := scope } result))
  | _ => none

/-- The conditions of `dlopen_interceptor_requeue_dynamic_attach_request`. -/
def requeues (request : AttachRequest Handle) (result : AttachResult) : Bool :=
  result = .retry ∧ request.handle ≠ none ∧ request.handleOwned ∧ request.state = .ready ∧
    state.queueCanAccept

def drainFinish (drain : Drain) : Option (Loader Handle Call Drain) :=
  match state.drains drain with
  | .attached drained limit handles request result =>
    if state.requeues request result then
      some { state.setDrain drain (.looping (drained + 1) limit handles) with
        queue := state.queue ++ [request] }
    else
      some (state.setDrain drain
        (.looping (drained + 1) limit (handles ++ request.handleToClose.toList)))
  | _ => none

/-- `dlopen_interceptor_end_dynamic_attach_drain`. -/
def endDrain (drain : Drain) : Option (Loader Handle Call Drain) :=
  match state.drains drain with
  | .ending handles =>
    some { state.setDrain drain (.closing handles) with
      drainActive := false
      activeDrains := state.activeDrains - 1 }
  | _ => none

def drainClose (drain : Drain) : Option (Loader Handle Call Drain) :=
  match state.drains drain with
  | .closing (reference :: handles) =>
    some ((state.internalClose reference).setDrain drain (.closing handles))
  | .closing [] => some (state.setDrain drain .idle)
  | _ => none

/-- `dlopen_interceptor_enable_dynamic_attach`. -/
def enable : Option (Loader Handle Call Drain) :=
  if state.controller ≠ .shuttingDown ∧ state.threadRunning then
    some { state with listenerOwner := true, guardOwner := true, controller := .opened }
  else
    none

/-- `dlopen_interceptor_dettach` withdraws the listener before it shuts down. -/
def withdraw : Option (Loader Handle Call Drain) :=
  some { state with listenerOwner := false }

/-- `dlopen_interceptor_shutdown_dynamic_attach`. The waits end when their condition holds. -/
def proceed : Option (Loader Handle Call Drain) :=
  match state.shutdown with
  | .idle =>
    some { state.setShutdown .awaitAttach with
      listenerOwner := false
      controller := .shuttingDown }
  | .awaitAttach =>
    if state.activeDrains = 0 then some (state.setShutdown .awaitCallbacks) else none
  | .awaitCallbacks =>
    if state.activeCallbacks = 0 then some (state.setShutdown .awaitPending) else none
  | .awaitPending =>
    if state.pendingOwnership = 0 then some (state.setShutdown .clearOwner) else none
  | .clearOwner => some { state.setShutdown .stopThread with guardOwner := false }
  | .stopThread => some { state.setShutdown .joinThread with threadRunning := false }
  | .joinThread => if state.owner = .exited then some (state.setShutdown .discarding) else none
  | .discarding =>
    match state.popRequest with
    | none => some (state.setShutdown .finished)
    | some (request, popped) =>
      match request.handleToClose with
      | none => some popped
      | some reference => some (popped.setShutdown (.discardClosing reference))
  | .discardClosing reference => some ((state.internalClose reference).setShutdown .discarding)
  | .finished => some { state.setShutdown (.releasing state.retained) with retained := [] }
  | .releasing (reference :: handles) =>
    some ((state.internalClose reference).setShutdown (.releasing handles))
  | .releasing [] => some (state.setShutdown .released)
  | .released => none

/-- A wait of the shutdown has timed out. The controller stays shut down. -/
def timeOut : Option (Loader Handle Call Drain) :=
  match state.shutdown with
  | .awaitAttach | .awaitCallbacks | .awaitPending => some (state.setShutdown .idle)
  | _ => none

/-- `dlopen_interceptor_revert_dlclose_guard`, once the shutdown is complete. -/
def setRoute (route : GuardRoute) : Option (Loader Handle Call Drain) :=
  match state.shutdown with
  | .finished | .releasing _ | .released => some { state with route := route }
  | _ => none

end Loader

inductive LoaderEvent (Handle Call Drain : Type) where
  | enter (call : Call) (refused : Bool)
  | beginCallback (call : Call)
  | load (call : Call) (handle : Option Handle)
  | skip (call : Call)
  | enqueue (call : Call) (bindingFlags : BindingFlags) (scope : AttachScope)
  | endCallback (call : Call)
  | close (call : Call) (handle : Handle) (internal : Bool)
  | readOwner (call : Call)
  | readPending (call : Call)
  | guardedDlclose (call : Call)
  | unload (call : Call)
  | select
  | pin (token : Handle)
  | pinOther (other : Handle)
  | pinFails
  | commit
  | closeOwned
  | beginDrain (drain : Drain) (maxRequests : ℕ)
  | drainPop (drain : Drain)
  | attach (drain : Drain) (scope : AttachScope) (retains : Bool) (result : AttachResult)
  | drainFinish (drain : Drain)
  | endDrain (drain : Drain)
  | drainClose (drain : Drain)
  | enable
  | withdraw
  | proceed
  | timeOut
  | setRoute (route : GuardRoute)

namespace Loader

variable {Handle Call Drain : Type} [DecidableEq Handle] [DecidableEq Call] [DecidableEq Drain]

def step (state : Loader Handle Call Drain) :
    LoaderEvent Handle Call Drain → Option (Loader Handle Call Drain)
  | .enter call refused => state.enter call refused
  | .beginCallback call => state.beginCallback call
  | .load call handle => state.load call handle
  | .skip call => state.skip call
  | .enqueue call bindingFlags scope => state.enqueue call bindingFlags scope
  | .endCallback call => state.endCallback call
  | .close call handle internal => state.close call handle internal
  | .readOwner call => state.readOwner call
  | .readPending call => state.readPending call
  | .guardedDlclose call => state.guardedDlclose call
  | .unload call => state.unload call
  | .select => state.select
  | .pin token => state.pin token
  | .pinOther other => state.pinOther other
  | .pinFails => state.pinFails
  | .commit => state.commit
  | .closeOwned => state.closeOwned
  | .beginDrain drain maxRequests => state.beginDrain drain maxRequests
  | .drainPop drain => state.drainPop drain
  | .attach drain scope retains result => state.attach drain scope retains result
  | .drainFinish drain => state.drainFinish drain
  | .endDrain drain => state.endDrain drain
  | .drainClose drain => state.drainClose drain
  | .enable => state.enable
  | .withdraw => state.withdraw
  | .proceed => state.proceed
  | .timeOut => state.timeOut
  | .setRoute route => state.setRoute route

end Loader

namespace CallPc

variable {Handle : Type}

/-- A reference which the application has opened but not received, or is closing. -/
def reference : CallPc Handle → Option Handle
  | .idle | .arriving | .entered _ => none
  | .loaded _ handle | .leaving handle => handle
  | .guarded handle | .owned handle | .locking handle | .closing handle => some handle

end CallPc

def present {α : Type} (reference : Option α) : Multiset α :=
  (reference.toList : Multiset α)

namespace OwnerPc

variable {Handle : Type}

/-- The pin, not yet committed or closed. -/
def reference : OwnerPc Handle → Option (Handle × ℕ)
  | .waiting | .pinning _ _ | .exited => none
  | .mismatched _ reference | .redundant _ reference | .stray reference => some reference
  | .pinned _ pin => pin.map Prod.fst

end OwnerPc

namespace DrainPc

variable {Handle : Type}

/-- The reference of the request taken out, and the handles collected for closing. -/
def references : DrainPc Handle → Multiset (Handle × ℕ)
  | .idle => 0
  | .looping _ _ handles | .ending handles | .closing handles => (handles : Multiset _)
  | .popped _ _ handles request | .attached _ _ handles request _ =>
    (handles : Multiset _) + present request.handleToClose

end DrainPc

namespace ShutdownPc

variable {Handle : Type}

/-- The handles taken for closing. -/
def references : ShutdownPc Handle → Multiset (Handle × ℕ)
  | .discardClosing reference => {reference}
  | .releasing handles => (handles : Multiset _)
  | _ => 0

end ShutdownPc

namespace Loader

variable {Handle Call Drain : Type} [Fintype Call] [Fintype Drain]

def application (state : Loader Handle Call Drain) : Multiset Handle :=
  state.received + ∑ call, present (state.calls call).reference

/-- The references of PEAK. -/
def references (state : Loader Handle Call Drain) : Multiset (Handle × ℕ) :=
  (state.queue.map fun request => present request.handleToClose).sum +
    ∑ drain, (state.drains drain).references + (state.retained : Multiset _) +
    present state.owner.reference + state.shutdown.references

end Loader

end Peak
