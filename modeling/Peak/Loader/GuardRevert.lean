import Mathlib.Data.Fintype.Basic
import Peak.Common.Machine
import Peak.Loader.Ledger

/-!
# Reverting the guard of `dlclose`

A call in the guard is counted while it may use the trampoline of Gum. A revert publishes that it is
in progress and waits until no call is counted; a call that reads this withdraws and waits for the
outcome. The steps are the accesses to the count and to the route, and the sections between them.

After a failed revert, a call that has withdrawn uses the trampoline without being counted again.
These are the only calls that a later revert can miss.
-/

namespace Peak

open Function Machine

/-- `original_dlclose` is the trampoline, `restored_dlclose` the function itself. -/
inductive CloseTarget where
  | original
  | restored
deriving DecidableEq

/-- A call of `dlopen_interceptor_guarded_dlclose`. -/
inductive GuardPc (Handle : Type) where
  | idle
  /-- Before the route is read. -/
  | entered (handle : Handle)
  /-- `REVERTED` has been read. -/
  | restoring (handle : Handle)
  /-- `REVERTING` has been read. -/
  | withdrawing (handle : Handle)
  | waiting (handle : Handle)
  /-- Before the guard decides whether it looks for a request. -/
  | routed (handle : Handle)
  | locking (handle : Handle)
  | closing (handle : Handle) (target : CloseTarget) (counted : Bool)
  | inside (handle : Handle) (target : CloseTarget) (counted : Bool)
  /-- Before a counted call leaves. -/
  | finishing (handle : Handle)
  | returned (handle : Handle)

inductive CloseEffect (Handle : Type) where
  | closed (handle : Handle)
  | transferred (handle : Handle) (request : AttachRequest Handle)

/-- The latest call of a thread, with what it has done. -/
structure GuardCall (Handle : Type) where
  pc : GuardPc Handle
  effects : List (CloseEffect Handle)

/-- `dlopen_interceptor_revert_dlclose_guard`. -/
inductive RevertPc where
  | idle
  | awaitIdle
  | preparing
  /-- Before `ROUTED` is published again. -/
  | failing
  /-- Before Gum reverts the replacement. -/
  | prepared
  | reverted
deriving DecidableEq

structure DlcloseGuard (Thread Handle : Type) where
  route : GuardRoute
  active : ℕ
  replaced : Bool
  revert : RevertPc
  threads : Thread → GuardCall Handle
  queue : List (AttachRequest Handle)

inductive CloseEvent (Thread Handle : Type) where
  | call (thread : Thread) (handle : Handle)
  /-- `lookup`: the close is not internal, and there are an owner and pending requests. -/
  | act (thread : Thread) (lookup : Bool)
  | beginRevert
  /-- `outcome`: the deadline has passed, or the mutation could be prepared. -/
  | revert (outcome : Bool)
  /-- The other functions that hold the mutex. -/
  | changeQueue (queue : List (AttachRequest Handle))

variable {Thread Handle : Type}

/-- The function that a call which has waited uses. -/
def GuardRoute.target (route : GuardRoute) : CloseTarget :=
  if route = .reverted then .restored else .original

namespace GuardPc

def isFree : GuardPc Handle → Bool
  | idle | returned _ => true
  | _ => false

def counted : GuardPc Handle → ℕ
  | idle | waiting _ | returned _ => 0
  | closing _ _ counted | inside _ _ counted => counted.toNat
  | _ => 1

def leaves : GuardPc Handle → Bool
  | restoring _ | withdrawing _ | finishing _ => true
  | _ => false

def usesOriginal : GuardPc Handle → Bool
  | routed _ | locking _ => true
  | closing _ target _ | inside _ target _ => target = .original
  | _ => false

def inOriginal : GuardPc Handle → Bool
  | inside _ target _ => target = .original
  | _ => false

/-- A failed revert has resumed the call, which uses the trampoline without being counted. -/
def resumed (pc : GuardPc Handle) : Bool :=
  pc.usesOriginal && pc.counted = 0

variable [DecidableEq Handle]

def advance (route : GuardRoute) (queue : List (AttachRequest Handle)) (lookup : Bool) :
    GuardPc Handle → GuardPc Handle × List (CloseEffect Handle)
  | entered handle =>
    match route with
    | .reverted => (restoring handle, [])
    | .reverting => (withdrawing handle, [])
    | .routed => (routed handle, [])
  | restoring handle => (closing handle .restored false, [])
  | withdrawing handle => (waiting handle, [])
  | waiting handle =>
    (if route = .reverting then waiting handle else closing handle route.target false, [])
  | routed handle => (if lookup then locking handle else closing handle .original true, [])
  | locking handle =>
    match queue.find? (·.transferable handle) with
    | some request => (finishing handle, [.transferred handle request])
    | none => (closing handle .original true, [])
  | closing handle target counted => (inside handle target counted, [])
  | inside handle _ counted =>
    (if counted then finishing handle else returned handle, [.closed handle])
  | finishing handle => (returned handle, [])
  | free => (free, [])

/-- The queue after the section with the mutex. References are not numbered here. -/
def transfer (queue : List (AttachRequest Handle)) : GuardPc Handle → List (AttachRequest Handle)
  | locking handle => FirstMatch.modifyFirst (·.transferable handle) (·.transfer handle 0) queue
  | _ => queue

end GuardPc

/-- The steps after `REVERTING` has been published. The process ends if the mutation cannot be
finished. -/
def RevertPc.advance (unused outcome : Bool) : RevertPc → RevertPc
  | awaitIdle => if unused then preparing else if outcome then failing else awaitIdle
  | preparing => if outcome then prepared else failing
  | prepared => reverted
  | _ => idle

namespace DlcloseGuard

/-- The state after `dlopen_interceptor_attach`. -/
def start : DlcloseGuard Thread Handle where
  route := .routed
  active := 0
  replaced := true
  revert := .idle
  threads := fun _ => ⟨.idle, []⟩
  queue := []

variable [DecidableEq Thread] [DecidableEq Handle] (guard : DlcloseGuard Thread Handle)

/-- An event that is not possible has no effect. -/
def step : CloseEvent Thread Handle → DlcloseGuard Thread Handle
  | .call thread handle =>
    if (guard.threads thread).pc.isFree then
      { guard with
        active := guard.active + 1
        threads := update guard.threads thread ⟨.entered handle, []⟩ }
    else
      guard
  | .act thread lookup =>
    let call := guard.threads thread
    let next := call.pc.advance guard.route guard.queue lookup
    { guard with
      active := if call.pc.leaves then guard.active - 1 else guard.active
      threads := update guard.threads thread ⟨next.1, call.effects ++ next.2⟩
      queue := call.pc.transfer guard.queue }
  | .beginRevert =>
    if guard.revert = .idle ∧ guard.replaced then
      { guard with route := .reverting, revert := .awaitIdle }
    else
      guard
  | .revert outcome =>
    { guard with
      revert := guard.revert.advance (guard.active = 0) outcome
      replaced := guard.replaced && guard.revert ≠ .prepared
      route :=
        match guard.revert with
        | .failing => .routed
        | .reverted => .reverted
        | _ => guard.route }
  | .changeQueue queue => { guard with queue := queue }

def machine : Machine (DlcloseGuard Thread Handle) (CloseEvent Thread Handle) Unit :=
  ⟨fun guard event => ((), guard.step event)⟩

end DlcloseGuard

def CloseEffect.Of [DecidableEq Handle] (handle : Handle) : CloseEffect Handle → Prop
  | closed other => other = handle
  | transferred other request => other = handle ∧ request.transferable handle

namespace GuardPc

variable {pc : GuardPc Handle}

theorem usesOriginal_of_inOriginal (isInside : pc.inOriginal) : pc.usesOriginal := by
  cases pc with
  | inside => exact isInside
  | _ => cases isInside

variable [DecidableEq Handle]

def Performed (effects : List (CloseEffect Handle)) : GuardPc Handle → Prop
  | finishing handle | returned handle => ∃ effect, effects = [effect] ∧ effect.Of handle
  | _ => effects = []

theorem Performed.advance {effects : List (CloseEffect Handle)}
    (performed : pc.Performed effects) (route : GuardRoute) (queue : List (AttachRequest Handle))
    (lookup : Bool) :
    (pc.advance route queue lookup).1.counted + pc.leaves.toNat = pc.counted ∧
      (route ≠ .routed → (pc.advance route queue lookup).1.usesOriginal →
        pc.usesOriginal ∧ pc.counted = (pc.advance route queue lookup).1.counted) ∧
      (pc.advance route queue lookup).1.Performed
        (effects ++ (pc.advance route queue lookup).2) := by
  fun_cases GuardPc.advance route queue lookup pc <;>
    grind [cases GuardRoute, GuardRoute.target, Performed, counted, leaves, usesOriginal,
      CloseEffect.Of]

theorem inOriginal_of_resumed (isResumed : pc.resumed) (route : GuardRoute)
    (queue : List (AttachRequest Handle)) (lookup : Bool) :
    pc.inOriginal ∨ (pc.advance route queue lookup).1.inOriginal := by
  cases pc <;> simp_all [resumed, usesOriginal, counted, inOriginal, GuardPc.advance]

end GuardPc

namespace DlcloseGuard

section

variable [Fintype Thread] [DecidableEq Handle]

/-- `preparing` is the first phase of an attempt which has read that no call is counted. -/
structure Sound (guard : DlcloseGuard Thread Handle) : Prop where
  counts : ∑ thread, (guard.threads thread).pc.counted = guard.active
  reverting : guard.revert = .idle ↔ guard.route ≠ .reverting
  reverted : guard.replaced = false → guard.route = .reverted ∨ guard.revert = .reverted
  uncounted : guard.revert ∈ [.preparing, .prepared, .reverted] ∨ guard.route = .reverted →
    ∀ thread, (guard.threads thread).pc.usesOriginal → (guard.threads thread).pc.counted = 0
  performed : ∀ thread, (guard.threads thread).pc.Performed (guard.threads thread).effects

variable {guard : DlcloseGuard Thread Handle} [DecidableEq Thread]

theorem Sound.goto (sound : guard.Sound) {thread : Thread} {call : GuardCall Handle} {active : ℕ}
    {queue : List (AttachRequest Handle)}
    (counted : (guard.threads thread).pc.counted ≤ guard.active →
      active + (guard.threads thread).pc.counted = guard.active + call.pc.counted)
    (uses : guard.route ≠ .routed → call.pc.usesOriginal →
      (guard.threads thread).pc.usesOriginal ∧ (guard.threads thread).pc.counted = call.pc.counted)
    (performed : call.pc.Performed call.effects) :
    ({ guard with
      active := active
      threads := update guard.threads thread call
      queue := queue }).Sound := by
  rcases sound with ⟨_, reverting, reverted, _, _⟩
  refine ⟨?_, reverting, reverted, ?_, ?_⟩
  · rcases Loader.sum_update (fun call : GuardCall Handle => call.pc.counted) guard.threads thread
      call with ⟨rest, _, after⟩
    refine after.trans (?_ : rest + call.pc.counted = active)
    omega
  · intro passed other
    grind
  · grind

theorem Sound.step (sound : guard.Sound) (event : CloseEvent Thread Handle) :
    (guard.step event).Sound := by
  cases event with
  | call thread =>
    simp only [DlcloseGuard.step]
    split
    next free =>
      refine sound.goto (fun _ => ?_) nofun rfl
      cases pc : (guard.threads thread).pc <;> simp_all [GuardPc.isFree, GuardPc.counted]
    · exact sound
  | act thread lookup =>
    rcases (sound.performed thread).advance guard.route guard.queue lookup with
      ⟨_, uses, performed⟩
    refine sound.goto (fun positive => ?_) uses performed
    grind
  | beginRevert =>
    simp only [DlcloseGuard.step]
    split
    next possible =>
      refine { sound with reverting := by simp, reverted := ?_, uncounted := by simp }
      simp [possible.2]
    · exact sound
  | revert =>
    have reverting := sound.reverting
    have reverted := sound.reverted
    refine { sound with reverting := ?_, reverted := ?_, uncounted := ?_ }
    · cases phase : guard.revert <;> grind [DlcloseGuard.step, RevertPc.advance]
    · grind [DlcloseGuard.step, RevertPc.advance]
    · intro passed
      by_cases unused : guard.active = 0
      · intro thread _
        have none := sound.counts.trans unused
        exact Finset.sum_eq_zero_iff.mp none thread (Finset.mem_univ thread)
      · apply sound.uncounted
        grind [DlcloseGuard.step, RevertPc.advance]
  | changeQueue => exact { sound with }

theorem sound_run (history : List (CloseEvent Thread Handle)) :
    (machine.run start history).Sound := by
  refine run_preserves (fun _ event _ sound => sound.step event) ?_
  exact ⟨by simp [start, GuardPc.counted], by simp [start], nofun, by simp [start], fun _ => rfl⟩

/-- Gum has reverted the replacement, and no call uses the trampoline. -/
structure Unused (guard : DlcloseGuard Thread Handle) : Prop extends guard.Sound where
  isReverted : guard.replaced = false
  unused : ∀ thread, ¬(guard.threads thread).pc.usesOriginal

theorem Unused.step (unused : guard.Unused) (event : CloseEvent Thread Handle) :
    (guard.step event).Unused := by
  rcases unused with ⟨sound, isReverted, kept⟩
  refine { sound.step event with isReverted := ?_, unused := fun other => ?_ }
  · cases event <;> grind [DlcloseGuard.step]
  · cases event with
    | call =>
      simp only [DlcloseGuard.step]
      split
      · grind [GuardPc.usesOriginal]
      · exact kept other
    | act thread lookup =>
      have unrouted : guard.route ≠ .routed := by
        have reverting := sound.reverting
        have routed := sound.reverted isReverted
        grind
      have uses := ((sound.performed thread).advance guard.route guard.queue lookup).2.1 unrouted
      simp only [DlcloseGuard.step]
      grind
    | beginRevert =>
      simp only [DlcloseGuard.step]
      split <;> exact kept other
    | _ => exact kept other

theorem Sound.unused_iff (sound : guard.Sound) (prepared : guard.revert = .prepared) :
    (∀ later thread,
      ¬((machine.run (guard.step (.revert true)) later).threads thread).pc.inOriginal) ↔
      ∀ thread, ¬(guard.threads thread).pc.resumed := by
  constructor
  · intro never thread isResumed
    rcases GuardPc.inOriginal_of_resumed isResumed guard.route guard.queue false with now | next
    · exact never [] thread now
    · refine never [.act thread false] thread ?_
      simpa [machine, Machine.next, DlcloseGuard.step, prepared] using next
  · intro noneResumed later thread isInside
    have unused : (guard.step (.revert true)).Unused := by
      refine { sound.step _ with isReverted := by simp [DlcloseGuard.step, prepared], unused := ?_ }
      intro thread (uses : (guard.threads thread).pc.usesOriginal)
      have uncounted := sound.uncounted (by simp [prepared]) thread uses
      exact noneResumed thread (by simp [GuardPc.resumed, uses, uncounted])
    have final : (machine.run (guard.step (.revert true)) later).Unused :=
      run_preserves (fun _ event _ unused => unused.step event) unused
    exact final.unused thread (GuardPc.usesOriginal_of_inOriginal isInside)

omit [Fintype Thread]

def actsFor (thread : Thread) : CloseEvent Thread Handle → Bool
  | .act other _ => other = thread
  | _ => false

/-- A call that has waited, after a number of its steps. -/
def resume (handle : Handle) (target : CloseTarget) : ℕ → GuardPc Handle
  | 0 => .waiting handle
  | 1 => .closing handle target false
  | 2 => .inside handle target false
  | _ => .returned handle

theorem waiting_run {thread : Thread} {handle : Handle} (settled : guard.revert = .idle)
    (decided : guard.route ≠ .reverting) (waits : (guard.threads thread).pc = .waiting handle)
    (later : List (CloseEvent Thread Handle)) :
    (∀ event ∈ later, event ≠ .beginRevert ∧ ∀ other, event ≠ .call thread other) →
      (machine.run guard later).revert = .idle ∧ (machine.run guard later).route = guard.route ∧
        ((machine.run guard later).threads thread).pc =
          resume handle guard.route.target (later.countP (actsFor thread)) := by
  induction later using List.reverseRecOn with
  | nil => exact fun _ => ⟨settled, rfl, waits⟩
  | append_singleton history event ih =>
    intro undisturbed
    simp only [List.forall_mem_append, List.forall_mem_singleton] at undisturbed
    rcases undisturbed with ⟨earlier, notBegun, _⟩
    rcases ih earlier with ⟨idle, route, pc⟩
    rw [run_append, run_cons, run_nil]
    generalize machine.run guard history = current at *
    cases event with
    | call other =>
      have different : thread ≠ other := by grind
      simp only [Machine.next, machine, step]
      split <;> simp [actsFor, different, idle, route, pc]
    | act other =>
      by_cases same : other = thread
      · subst same
        simp only [Machine.next, machine, step]
        simp [actsFor, idle, route, pc]
        rcases history.countP (actsFor other) with _ | _ | _ | _ <;>
          simp [resume, GuardPc.advance, decided]
      · simp [Machine.next, machine, step, actsFor, idle, route, pc, same, Ne.symm same]
    | beginRevert => exact absurd rfl notBegun
    | revert _ | changeQueue _ =>
      simp [Machine.next, machine, step, actsFor, idle, route, pc, RevertPc.advance]

end

/-- No use of the trampoline after a revert, what a returning call has done, and the return of a
waiting call after a failed revert. -/
theorem reverted_trampoline_unused_iff [Fintype Thread] [DecidableEq Thread] [DecidableEq Handle]
    (history : List (CloseEvent Thread Handle)) :
    let guard := machine.run start history
    (guard.revert = .prepared →
      ((∀ later thread,
        ¬((machine.run (guard.step (.revert true)) later).threads thread).pc.inOriginal) ↔
        ∀ thread, ¬(guard.threads thread).pc.resumed)) ∧
    (∀ thread handle, (guard.threads thread).pc = .returned handle →
      ∃ effect, (guard.threads thread).effects = [effect] ∧ effect.Of handle) ∧
    ∀ thread handle later, guard.revert = .idle → (guard.threads thread).pc = .waiting handle →
      (∀ event ∈ later, event ≠ .beginRevert ∧ ∀ other, event ≠ .call thread other) →
      3 ≤ later.countP (actsFor thread) →
      ((machine.run guard later).threads thread).pc = .returned handle := by
  intro guard
  have sound : guard.Sound := sound_run history
  refine ⟨sound.unused_iff, ?_, ?_⟩
  · intro thread handle returned
    have performed := sound.performed thread
    rw [returned] at performed
    exact performed
  · intro thread handle later idle waits undisturbed enough
    rw [(waiting_run idle (sound.reverting.mp idle) waits later undisturbed).2.2, resume]
    all_goals omega

/-- A call is in the trampoline when the revert begins, and is waited for. Another one reads the
route after that and withdraws. -/
theorem first_revert_unused :
    let guard : DlcloseGuard (Fin 2) (Fin 1) := machine.run start
      [.call 0 0, .act 0 false, .act 0 false, .act 0 false, .call 1 0, .beginRevert,
        .revert false, .act 1 false, .act 1 false, .act 0 false, .revert false, .act 0 false,
        .revert false, .revert true]
    (guard.threads 0).pc = .returned 0 ∧ (guard.threads 1).pc = .waiting 0 ∧
      guard.revert = .prepared ∧ ∀ later thread,
        ¬((machine.run (guard.step (.revert true)) later).threads thread).pc.inOriginal :=
  ⟨rfl, rfl, rfl, ((reverted_trampoline_unused_iff _).1 rfl).mpr (by decide)⟩

/-- The call withdraws during the first attempt, and is resumed when it fails. The second attempt
counts no call. -/
theorem resumed_call_enters_trampoline :
    let guard : DlcloseGuard (Fin 1) (Fin 1) := machine.run start
      [.call 0 0, .beginRevert, .act 0 false, .act 0 false, .revert false, .revert false,
        .revert false, .act 0 false, .beginRevert, .revert false, .revert true]
    guard.revert = .prepared ∧
      ((machine.run (guard.step (.revert true)) [.act 0 false]).threads 0).pc.inOriginal := by
  decide

end DlcloseGuard

end Peak
