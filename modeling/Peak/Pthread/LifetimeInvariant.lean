import Peak.Pthread.Lifetimes
import Peak.Registry.Kept

/-!
# Who holds a slot

A slot is held by a live thread that has published it or may still publish it, and by a
call that retires it. Each holder keeps the token under which it holds the slot, and no
two holders have the same slot.
-/

namespace Peak

open SlotRegistry

namespace Pthread

/-- A live thread that works under its token, or that may still publish it. -/
@[grind]
def Thread.Uses (thread : Thread) : Prop :=
  thread.status = .live ∧
    (thread.identity ≠ none ∨ (thread.stage = .waiting ∧ thread.handshake ≠ .abandoned) ∨
      thread.stage = .inserted)

def Call.retirement : Call → Option SlotToken
  | .retiring token => some token
  | .retired token _ => some token
  | .reclaiming token _ => some token
  | .reclaimed token _ => some token
  | .deferring token _ => some token
  | _ => none

def Call.candidates : Call → List DetachedCandidate
  | .scanning candidates => candidates
  | .absent _ candidates => candidates
  | .reclaiming _ candidates => candidates
  | .reclaimed _ candidates => candidates
  | .deferring _ candidates => candidates
  | _ => []

@[grind cases, grind intro]
structure Thread.Sound (thread : Thread) : Prop where
  identity : ∀ token, thread.identity = some token → thread.token = some token
  unborn : thread.status = .unborn → thread.token = none ∧ thread.leave ≠ .entered
  entered : thread.leave = .entered → thread.token = none
  waiting : thread.stage = .waiting ∨ thread.stage = .inserted → thread.identity = none
  inserting : thread.stage = .inserting → thread.token = none ∧ thread.leave ≠ .entered
  abandoned : thread.handshake = .abandoned → thread.stage = .running ∧ thread.identity = none
  ready : thread.handshake = .ready → thread.leave = .done
  removing : thread.leave = .removing → thread.handshake = .abandoned

variable {thread : Thread}

theorem Thread.Sound.identity_none (sound : thread.Sound) (empty : thread.token = none) :
    thread.identity = none := by
  cases published : thread.identity with
  | none => rfl
  | some token => exact absurd (empty.symm.trans (sound.identity token published)) nofun

theorem Thread.Sound.born {token : SlotToken} (sound : thread.Sound)
    (found : thread.token = some token) : thread.status ≠ .unborn := by
  grind

inductive Holder where
  | thread (number : ℕ)
  | call (number : ℕ)

namespace Process

variable (process : Process)

def Claims : Holder → SlotToken → Prop
  | .thread thread, token =>
    (process.threads thread).Uses ∧ (process.threads thread).token = some token
  | .call call, token => (process.calls call).retirement = some token

/-- Every thread with the token satisfies a property. There is at most one such thread. -/
def OwnerIs (token : SlotToken) (property : Thread → Prop) : Prop :=
  token.generation ≤ process.registry.nextGeneration ∧
    ∀ thread, (process.threads thread).token = some token → property (process.threads thread)

def CallKnows : Call → Prop
  | .joining handle (some token) => process.OwnerIs token fun owner => owner.handle = handle
  | .joined token => process.OwnerIs token fun owner => owner.status = .finished
  | .absent token _ => process.OwnerIs token fun owner => owner.status = .finished
  | _ => True

def HandlesApart : Prop :=
  ∀ thread other handle, process.Holds thread handle → process.Holds other handle →
    thread ≠ other → process.Gone thread ∨ process.Gone other

structure Sound : Prop where
  wellFormed : process.registry.WellFormed
  kept : ∀ holder token, process.Claims holder token → process.registry.Kept token
  withheld : ∀ call token, (process.calls call).retirement = some token →
    process.registry.Withheld token
  distinct : ∀ {holder other token otherToken}, process.Claims holder token →
    process.Claims other otherToken → token.slot = otherToken.slot → holder = other
  issued : ∀ thread token, (process.threads thread).token = some token →
    token.generation ≤ process.registry.nextGeneration
  injective : ∀ {thread other token otherToken}, (process.threads thread).token = some token →
    (process.threads other).token = some otherToken →
    token.generation = otherToken.generation → thread = other
  entryOwner : ∀ index thread, (process.registry.entries index).occupied →
    (process.threads thread).token = some (process.registry.entries index).token →
    (process.registry.entries index).tid = (process.threads thread).handle ∧
      ((process.registry.entries index).kernelTid = 0 ∨
        (process.registry.entries index).kernelTid = (process.threads thread).kernelTid)
  pendingTid : ∀ index, (process.registry.entries index).occupied →
    (process.registry.entries index).exitPending →
    0 < (process.registry.entries index).kernelTid
  handles : process.HandlesApart
  threads : ∀ thread, (process.threads thread).Sound
  knows : ∀ call, process.CallKnows (process.calls call)
  candidates : ∀ call, ∀ candidate ∈ (process.calls call).candidates,
    process.OwnerIs candidate.token fun owner => owner.kernelTid = candidate.kernelTid

end Process

namespace Thread

variable {before after : Thread}

@[grind cases, grind intro]
structure GoesOn (before after : Thread) : Prop where
  token : after.token = before.token
  handle : before.token ≠ none → after.handle = before.handle
  kernelTid : before.token ≠ none → after.kernelTid = before.kernelTid
  finished : before.status = .finished → after.status = .finished
  uses : before.token ≠ none → after.Uses → before.Uses
  sound : after.Sound

theorem GoesOn.refl (sound : before.Sound) : GoesOn before before := by
  grind

@[grind cases, grind intro]
structure Stays (before after : Thread) : Prop where
  handle : after.handle = before.handle
  born : after.status ≠ .unborn → before.status ≠ .unborn
  finished : before.status = .finished → after.status = .finished
  released : before.released → after.released

@[grind cases, grind intro]
structure Receives (before : Thread) (token : SlotToken) (after : Thread) : Prop where
  token : after.token = some token
  handle : after.handle = before.handle
  kernelTid : after.kernelTid = before.kernelTid
  status : after.status = before.status
  released : after.released = before.released
  sound : after.Sound

/-- A token that was issued before has the same owner, who is what it was. -/
@[grind cases, grind intro]
structure Follows (bound : ℕ) (before after : Thread) : Prop where
  token : ∀ token, after.token = some token → token.generation ≤ bound → before.token = some token
  handle : before.token ≠ none → after.handle = before.handle
  kernelTid : before.token ≠ none → after.kernelTid = before.kernelTid
  finished : before.status = .finished → after.status = .finished

theorem GoesOn.follows (goesOn : GoesOn before after) (bound : ℕ) :
    Follows bound before after := by
  grind

end Thread

namespace Process

variable {process next : Process}

structure Follows (process next : Process) : Prop where
  generation : process.registry.nextGeneration ≤ next.registry.nextGeneration
  threads : ∀ thread, Thread.Follows process.registry.nextGeneration (process.threads thread)
    (next.threads thread)

variable {token : SlotToken}

theorem OwnerIs.follows {property : Thread → Prop} (owner : process.OwnerIs token property)
    (follows : process.Follows next)
    (stable : ∀ thread, (process.threads thread).token = some token →
      property (process.threads thread) → property (next.threads thread)) :
    next.OwnerIs token property := by
  refine ⟨owner.1.trans follows.generation, ?_⟩
  intro thread found
  have before := (follows.threads thread).token token found owner.1
  exact stable thread before (owner.2 thread before)

theorem CallKnows.follows {call : Call} (knows : process.CallKnows call)
    (follows : process.Follows next) : next.CallKnows call := by
  have threads := follows.threads
  unfold CallKnows at knows ⊢
  split at knows
  all_goals first | trivial | exact knows.follows follows (by grind)

theorem OwnerIs.follows_kernelTid {candidate : DetachedCandidate}
    (owner : process.OwnerIs candidate.token fun owner =>
      owner.kernelTid = candidate.kernelTid) (follows : process.Follows next) :
    next.OwnerIs candidate.token fun owner => owner.kernelTid = candidate.kernelTid := by
  have threads := follows.threads
  exact owner.follows follows (by grind)

theorem HandlesApart.stay (apart : process.HandlesApart)
    (stay : ∀ thread, Thread.Stays (process.threads thread) (next.threads thread)) :
    next.HandlesApart := by
  intro thread other handle
  have before := apart thread other handle
  grind [Holds, Gone]

theorem Sound.threads_goOn (sound : process.Sound)
    (goOn : ∀ thread, Thread.GoesOn (process.threads thread) (next.threads thread))
    (handles : next.HandlesApart) (registry : next.registry = process.registry)
    (calls : next.calls = process.calls) : next.Sound := by
  have follows : process.Follows next :=
    ⟨by rw [registry], fun thread => (goOn thread).follows _⟩
  have claims {holder : Holder} {token : SlotToken} (claim : next.Claims holder token) :
      process.Claims holder token := by
    cases holder <;> grind [Claims]
  constructor
  case wellFormed => exact registry ▸ sound.wellFormed
  case withheld =>
    rw [calls, registry]
    exact sound.withheld
  case handles => exact handles
  case knows => exact fun call => calls ▸ (sound.knows call).follows follows
  case candidates =>
    intro call candidate isCandidate
    exact (sound.candidates call candidate (calls ▸ isCandidate)).follows_kernelTid follows
  all_goals grind [Process.Sound]

theorem forall_setThread (process : Process) (thread : ℕ) (state : Thread)
    {motive : ℕ → Thread → Prop} (new : motive thread state)
    (old : ∀ other, other ≠ thread → motive other (process.threads other)) (other : ℕ) :
    motive other ((process.setThread thread state).threads other) :=
  (Function.forall_update_iff process.threads motive).mpr ⟨new, old⟩ other

theorem Sound.setThread {thread : ℕ} {state : Thread} (sound : process.Sound)
    (goesOn : Thread.GoesOn (process.threads thread) state)
    (stays : Thread.Stays (process.threads thread) state) :
    (process.setThread thread state).Sound := by
  refine sound.threads_goOn ?_ (sound.handles.stay ?_) rfl rfl
  · exact forall_setThread process thread state
      (motive := fun other => Thread.GoesOn (process.threads other)) goesOn
      fun other _ => .refl (sound.threads other)
  · exact forall_setThread process thread state
      (motive := fun other => Thread.Stays (process.threads other)) stays
      fun other _ => ⟨rfl, id, id, id⟩

theorem forall_setCall (call : ℕ) (state : Call) {motive : ℕ → Call → Prop}
    (new : motive call state) (old : ∀ other, other ≠ call → motive other (process.calls other))
    (other : ℕ) : motive other ((process.setCall call state).calls other) :=
  (Function.forall_update_iff process.calls motive).mpr ⟨new, old⟩ other

theorem Sound.setCall {call : ℕ} {state : Call} (sound : process.Sound)
    (retirement : ∀ token, state.retirement = some token →
      (process.calls call).retirement = some token ∨ process.registry.Withheld token ∧
        ∀ holder held, process.Claims holder held → held.slot ≠ token.slot)
    (knows : process.CallKnows state)
    (candidates : ∀ candidate ∈ state.candidates,
      process.OwnerIs candidate.token fun owner => owner.kernelTid = candidate.kernelTid) :
    (process.setCall call state).Sound := by
  have calls : ∀ number, number ≠ call ∧
        (process.setCall call state).calls number = process.calls number ∨
      number = call ∧ (process.setCall call state).calls number = state :=
    forall_setCall call state (motive := fun number after =>
      number ≠ call ∧ after = process.calls number ∨ number = call ∧ after = state)
      (.inr ⟨rfl, rfl⟩) fun _ other => .inl ⟨other, rfl⟩
  have claims (holder : Holder) (token : SlotToken)
      (claim : (process.setCall call state).Claims holder token) :
      process.Claims holder token ∨ holder = .call call ∧ process.registry.Withheld token ∧
        ∀ holder held, process.Claims holder held → held.slot ≠ token.slot := by
    cases holder with
    | thread => exact .inl claim
    | call => grind [Claims]
  refine { sound with
    kept := ?_
    withheld := ?_
    distinct := ?_
    knows := forall_setCall call state (motive := fun _ => process.CallKnows) knows
      fun number _ => sound.knows number
    candidates := forall_setCall call state
      (motive := fun _ after => ∀ candidate ∈ after.candidates,
        process.OwnerIs candidate.token fun owner => owner.kernelTid = candidate.kernelTid)
      candidates fun number _ => sound.candidates number }
  · intro holder token claim
    exact (claims holder token claim).elim (sound.kept holder token) fun new => new.2.1.kept
  · intro number token retires
    exact (claims (.call number) token retires).elim (sound.withheld number token)
      fun new => new.2.1
  · intro holder other token otherToken claim otherClaim
    have distinct := @sound.distinct holder other token otherToken
    grind

theorem follows_withRegistry {registry : SlotRegistry ℕ}
    (generation : process.registry.nextGeneration ≤ registry.nextGeneration) :
    process.Follows (process.withRegistry registry) :=
  ⟨generation, fun _ => ⟨fun _ found _ => found, fun _ => rfl, fun _ => rfl, id⟩⟩

section

variable (sound : process.Sound)

include sound

theorem Sound.withRegistry (call : RegistryCall ℕ)
    (fits : ∀ tid, call = .reserveInsert tid → process.registry.nextGeneration + 1 < 2 ^ 64)
    (continues : SlotRegistry.AllContinue process.registry call
      (machine.next process.registry call))
    (ring : ∀ holder token, process.Claims holder token →
      token.slot ∉ (machine.next process.registry call).reusableWindow)
    (retirement : ∀ number token, (process.calls number).retirement = some token →
      call ≠ .completeRetire token true ∧ call ≠ .deferRetire token)
    (marks : ∀ slot generation kernelTid, call = .markKernelTid ⟨slot, generation⟩ kernelTid →
      ∀ thread token, (process.threads thread).token = some token →
        token.generation = generation → kernelTid = (process.threads thread).kernelTid) :
    (process.withRegistry (machine.next process.registry call)).Sound := by
  have effect := effect_next process.registry call
  have room := fun tid reserving (_ : process.registry.takeSlot.isSome) =>
    fits tid reserving
  have generation := (effect.held_before room).1
  have follows : process.Follows (process.withRegistry _) := follows_withRegistry generation
  refine { sound with
    wellFormed := sound.wellFormed.effect effect room
    kept := ?_
    withheld := ?_
    issued := ?_
    entryOwner := ?_
    pendingTid := ?_
    knows := fun number => (sound.knows number).follows follows
    candidates := fun number candidate isCandidate =>
      (sound.candidates number candidate isCandidate).follows_kernelTid follows }
  · intro holder token claim
    exact (sound.kept holder token claim).effect sound.wellFormed effect (ring holder token claim)
  · intro number token retires
    refine (sound.withheld number token retires).effect sound.wellFormed effect ?_ ?_
    · exact fun completes => absurd completes (retirement number token retires).1
    · exact fun defers => absurd defers (retirement number token retires).2
  · intro thread token found
    exact (sound.issued thread token found).trans generation
  · intro index thread held found
    have entry := continues index held
    have owner := sound.entryOwner index thread entry.occupied (entry.token ▸ found)
    refine ⟨entry.tid.trans owner.1, ?_⟩
    rcases entry.kernelTid with same | ⟨_, slot, isMark⟩
    · exact same ▸ owner.2
    · exact .inr (marks slot _ _ isMark thread _ (entry.token ▸ found) rfl)
  · intro index held pending
    have entry := continues index held
    have positive := sound.pendingTid index entry.occupied
    grind [SlotRegistry.Continues, withRegistry]

theorem Sound.withRegistry_of_ring (call : RegistryCall ℕ)
    (ring : keepsRing call) (defers : ∀ token, call ≠ .deferRetire token)
    (marks : ∀ token kernelTid, call ≠ .markKernelTid token kernelTid) :
    (process.withRegistry (machine.next process.registry call)).Sound := by
  have other : ∀ tid, call ≠ .reserveInsert tid := by
    rintro tid rfl
    cases ring
  apply sound.withRegistry call
  · exact fun tid reserving => absurd reserving (other tid)
  · exact allContinue_next call other
  · intro holder token claim
    rw [reusableWindow_next ring]
    exact (sound.kept holder token claim).notQueued sound.wellFormed
  · refine fun number token _ => ⟨?_, defers token⟩
    rintro rfl
    cases ring
  · exact fun slot generation kernelTid isMark => absurd isMark (marks _ kernelTid)

theorem Sound.compareRemove {tid generation : ℕ}
    (unused : ∀ thread token, (process.threads thread).Uses →
      (process.threads thread).token = some token → token.generation ≠ generation) :
    (process.withRegistry (process.registry.compareRemove tid generation true).2).Sound := by
  apply sound.withRegistry (.compareRemove tid generation true)
  · simp
  · exact allContinue_next _ (by simp)
  · intro holder token claim queued
    have kept := sound.kept holder token claim
    rcases mem_reusableWindow_compareRemove sound.wellFormed queued with
      before | ⟨holds, notRetiring⟩
    · exact kept.notQueued sound.wellFormed before
    · have same : token = ⟨token.slot, generation⟩ := kept.generation_eq holds rfl
      cases holder with
      | thread thread =>
        exact unused thread token claim.1 claim.2 (congrArg SlotToken.generation same)
      | call number =>
        -- the entry of a retirement is retiring, so that the removal is refused
        rcases sound.withheld number token claim with ⟨_, retiring⟩ | abandoned
        · exact absurd (notRetiring.symm.trans retiring) Bool.false_ne_true
        · exact absurd (abandoned.free.symm.trans holds.1) Bool.false_ne_true
  · simp
  · simp

theorem Sound.receive {thread handle : ℕ} {registry : SlotRegistry ℕ}
    {state : Thread} (fits : process.registry.nextGeneration + 1 < 2 ^ 64)
    (handleEq : (process.threads thread).handle = handle)
    (empty : (process.threads thread).token = none)
    (handed : process.registry.reserveInsert handle = (some token, registry))
    (receives : (process.threads thread).Receives token state) :
    ((process.withRegistry registry).setThread thread state).Sound := by
  have reserved : machine.reply process.registry (.reserveInsert handle) =
      .reserved (some token) := congrArg RegistryReply.reserved (congrArg Prod.fst handed)
  have after : machine.next process.registry (.reserveInsert handle) = registry :=
    congrArg Prod.snd handed
  have effect := effect_next process.registry (.reserveInsert handle)
  rcases reserveInsert_reply reserved with ⟨_, _, occupied, tokenEq⟩
  rw [after] at effect occupied tokenEq
  have wellFormed := sound.wellFormed.effect effect fun _ _ _ => fits
  rcases effect.held_before fun _ _ _ => fits with ⟨generation, entries⟩
  have free (holder : Holder) (held : SlotToken) (claim : process.Claims holder held) :
      held.slot ≠ token.slot :=
    ((sound.kept holder held claim).slot_ne sound.wellFormed reserved).symm
  have new : token.generation = process.registry.nextGeneration + 1 := by
    rcases entries token.slot occupied with ⟨before, same⟩ | fresh
    · have held : process.registry.Holds token := ⟨before, by rw [← same, tokenEq]⟩
      exact absurd rfl (SlotRegistry.Kept.slot_ne (.inl held) sound.wellFormed reserved)
    · exact congrArg SlotToken.generation (tokenEq.symm.trans fresh)
  have continues (index : ℕ) (held : (registry.entries index).occupied) :
      SlotRegistry.Continues (.reserveInsert handle) (process.registry.entries index)
          (registry.entries index) ∨
        token.slot = index ∧ registry.entries index =
          { (SlotEntry.zero : SlotEntry ℕ) with tid := handle, token, occupied := true } := by
    rw [← after] at held
    have entry := entries_reserveInsert (.reserveInsert handle) held
    grind
  have threads : ∀ other, _ ∨ _ := forall_setThread process thread state
    (motive := fun other after => other ≠ thread ∧ after = process.threads other ∨
      other = thread ∧ after = state) (.inr ⟨rfl, rfl⟩) fun _ other => .inl ⟨other, rfl⟩
  have registryEq : ((process.withRegistry registry).setThread thread state).registry = registry :=
    rfl
  have callsEq : ((process.withRegistry registry).setThread thread state).calls = process.calls :=
    rfl
  change ∀ other, other ≠ thread ∧
      ((process.withRegistry registry).setThread thread state).threads other = _ ∨
    other = thread ∧ ((process.withRegistry registry).setThread thread state).threads other = _
    at threads
  generalize (process.withRegistry registry).setThread thread state = next at *
  have claims (holder : Holder) (held : SlotToken) (claim : next.Claims holder held) :
      process.Claims holder held ∨ holder = .thread thread ∧ held = token := by
    cases holder <;> grind [Claims]
  have follows : process.Follows next := by
    refine ⟨registryEq ▸ generation, fun other => ?_⟩
    grind
  constructor
  case wellFormed => exact registryEq ▸ wellFormed
  case kept =>
    intro holder held claim
    rw [registryEq]
    rcases claims holder held claim with before | ⟨_, rfl⟩
    · have kept := sound.kept holder held before
      refine kept.effect sound.wellFormed effect fun queued => ?_
      rw [← after] at queued
      exact kept.notQueued sound.wellFormed
        (mem_reusableWindow_reserveInsert sound.wellFormed queued)
    · exact .inl ⟨occupied, congrArg SlotToken.generation tokenEq⟩
  case withheld =>
    intro number held retires
    rw [callsEq] at retires
    exact registryEq ▸
      (sound.withheld number held retires).effect sound.wellFormed effect
        (fun isCall => by cases isCall) (fun isCall => by cases isCall)
  case entryOwner =>
    intro index other held found
    have owner := sound.entryOwner index other
    have bounded := sound.wellFormed.generationLe index
    have issued := sound.issued other token
    rw [registryEq] at held found ⊢
    rcases continues index held with entry | ⟨_, _⟩
    · grind [SlotRegistry.Continues]
    · grind [SlotEntry.zero]
  case pendingTid =>
    intro index held pending
    have positive := sound.pendingTid index
    rw [registryEq] at held pending ⊢
    rcases continues index held with entry | ⟨_, _⟩
    · grind [SlotRegistry.Continues]
    · grind [SlotEntry.zero]
  case handles =>
    refine sound.handles.stay fun other => ?_
    constructor <;> grind
  case threads => grind [Process.Sound]
  case knows => exact fun number => callsEq ▸ (sound.knows number).follows follows
  case candidates =>
    intro number candidate isCandidate
    exact (sound.candidates number candidate (callsEq ▸ isCandidate)).follows_kernelTid follows
  case issued =>
    have bounded := wellFormed.generationLe token.slot occupied
    grind [Process.Sound]
  all_goals grind [Process.Sound]

theorem Sound.beginRetire {call : ℕ} {begun refused : Call}
    (ended : process.OwnerIs token fun owner => owner.status = .finished)
    (retirement : begun.retirement = some token) (knows : ∀ later, CallKnows later begun)
    (refusedRetirement : refused.retirement = none)
    (refusedKnows : ∀ later, CallKnows later refused)
    (begunCandidates : begun.candidates = (process.calls call).candidates)
    (refusedCandidates : refused.candidates = (process.calls call).candidates) :
    (process.beginRetire call token begun refused).Sound := by
  have after : (process.withRegistry (process.registry.beginRetire token).2).Sound :=
    sound.withRegistry_of_ring (.beginRetire token) rfl (by simp) (by simp)
  unfold Process.beginRetire
  dsimp only
  cases accepted : (process.registry.beginRetire token).1 with
  | false =>
    refine after.setCall ?_ (refusedKnows _) ?_
    · intro later retires
      rw [if_neg Bool.false_ne_true, refusedRetirement] at retires
      cases retires
    · rw [if_neg Bool.false_ne_true, refusedCandidates]
      exact after.candidates call
  | true =>
    rcases beginRetire_accepted accepted with ⟨holds, notRetiring⟩
    refine after.setCall (fun later retires => .inr ?_) (knows _) ?_
    · cases retirement.symm.trans retires
      refine ⟨beginRetire_withheld accepted, fun holder held claim sameSlot => ?_⟩
      have same := (sound.kept holder held claim).generation_eq holds sameSlot
      subst same
      cases holder with
      | thread thread =>
        have alive : (process.threads thread).status = .live := claim.1.1
        rw [ended.2 thread claim.2] at alive
        cases alive
      | call number =>
        rcases sound.withheld number held claim with ⟨_, retiring⟩ | abandoned
        · exact absurd (notRetiring.symm.trans retiring) Bool.false_ne_true
        · exact absurd (abandoned.free.symm.trans holds.1) Bool.false_ne_true
    · rw [if_pos rfl, begunCandidates]
      exact after.candidates call

end

end Process

end Pthread

end Peak
