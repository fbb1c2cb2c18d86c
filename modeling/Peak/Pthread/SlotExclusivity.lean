import Peak.Pthread.LifetimeInvariant

/-!
# Slots are exclusive

As long as the generations of the registry do not overflow, no two live threads work under one slot,
a slot enters the ring only when its thread has ended, and no metrics of a live thread are retired.
After `2 ^ 64` reservations a generation is issued again, and a join that is late by so many retires
the slot of a live thread.
-/

namespace Peak

open SlotRegistry List Function

namespace Pthread

namespace Process

open Thread

variable {process next : Process} {event : Event} {thread call : ℕ} {history : List Event}

theorem Sound.reserve {found : SlotToken → Thread} {refused : Thread} (sound : process.Sound)
    (fits : process.registry.nextGeneration + 1 < 2 ^ 64)
    (empty : (process.threads thread).token = none)
    (receives : ∀ token, (process.threads thread).Receives token (found token))
    (goesOn : Thread.GoesOn (process.threads thread) refused)
    (stays : Thread.Stays (process.threads thread) refused) :
    (process.reserve thread found refused).Sound := by
  unfold Process.reserve
  rcases eq : process.registry.reserveInsert (process.threads thread).handle with
    ⟨_ | token, registry⟩
  · have after : (process.withRegistry registry).Sound := by
      have same : machine.next process.registry
          (.reserveInsert (process.threads thread).handle) = registry := congrArg Prod.snd eq
      rw [← same]
      apply sound.withRegistry (.reserveInsert (process.threads thread).handle)
      · exact fun _ _ => fits
      · intro index held
        rcases entries_reserveInsert
          (.reserveInsert (process.threads thread).handle) held with entry | ⟨_, handed, _⟩
        · exact entry
        · rw [eq] at handed
          cases handed
      · intro holder token claim queued
        exact (sound.kept holder token claim).notQueued sound.wellFormed
          (mem_reusableWindow_reserveInsert sound.wellFormed queued)
      · simp
      · simp
    exact after.setThread goesOn stays
  · exact sound.receive fits rfl empty eq (receives token)

variable {token : SlotToken}

section

variable (sound : process.Sound)

include sound

theorem Sound.giveUp {later : Call}
    (retires : (process.calls call).retirement = some token) (ends : later.retirement = none)
    (knows : process.CallKnows later)
    (candidates : later.candidates = (process.calls call).candidates ∨ later.candidates = []) :
    (process.setCall call later).Sound ∧ ∀ holder held,
      (process.setCall call later).Claims holder held → held.slot ≠ token.slot := by
  refine ⟨sound.setCall ?_ knows ?_, ?_⟩
  · rw [ends]
    nofun
  · rcases candidates with same | empty
    · rw [same]
      exact sound.candidates call
    · rw [empty]
      nofun
  · intro holder held claim sameSlot
    have old : process.Claims holder held ∧ holder ≠ .call call := by
      cases holder with
      | thread => exact ⟨claim, nofun⟩
      | call number =>
        refine forall_setCall call later
          (motive := fun number after => after.retirement = some held →
            process.Claims (.call number) held ∧ Holder.call number ≠ .call call)
          ?_ ?_ number claim
        · rw [ends]
          nofun
        · exact fun other different retires => ⟨retires, by simpa using different⟩
    exact old.2 (sound.distinct old.1 retires sameSlot)

theorem Sound.endRetire {later : Call} (last : RegistryCall ℕ)
    (isLast : (∃ reusable, last = .completeRetire token reusable) ∨ last = .deferRetire token)
    (retires : (process.calls call).retirement = some token) (ends : later.retirement = none)
    (knows : process.CallKnows later)
    (candidates : later.candidates = (process.calls call).candidates ∨ later.candidates = []) :
    ((process.withRegistry (machine.next process.registry last)).setCall call later).Sound := by
  rcases sound.giveUp retires ends knows candidates with ⟨after, free⟩
  have other : ∀ tid, last ≠ .reserveInsert tid := by
    rcases isLast with ⟨reusable, rfl⟩ | rfl <;> nofun
  refine after.withRegistry last (fun tid reserving => absurd reserving (other tid))
    (allContinue_next last other) ?_ ?_ ?_
  · intro holder held claim queued
    have notQueued := (after.kept holder held claim).notQueued after.wellFormed
    rcases isLast with ⟨_, rfl⟩ | rfl
    · rcases mem_reusableWindow_completeRetire after.wellFormed queued with
        before | same
      · exact notQueued before
      · exact free holder held claim same
    · rw [reusableWindow_next rfl] at queued
      exact notQueued queued
  · intro number held retiring
    have different := free (.call number) held retiring
    rcases isLast with ⟨reusable, rfl⟩ | rfl <;> grind
  · rcases isLast with ⟨reusable, rfl⟩ | rfl <;> nofun

theorem Sound.capture {handle : ℕ} :
    process.CallKnows (.joining handle (process.registry.capture handle)) := by
  unfold SlotRegistry.capture
  split
  · trivial
  · cases found : process.registry.findUnlocked handle with
    | none => trivial
    | some index =>
      rcases findUnlocked_some found with ⟨_, occupied, tid⟩
      dsimp only
      split
      · trivial
      · refine ⟨sound.wellFormed.generationLe index occupied, fun owner found => ?_⟩
        exact (sound.entryOwner index owner occupied found).1.symm.trans tid

theorem Sound.scanned {budget : ℕ} {candidate : DetachedCandidate}
    (isCandidate : candidate ∈ (process.registry.snapshotExitPending budget).1.1) :
    process.OwnerIs candidate.token fun owner => owner.kernelTid = candidate.kernelTid := by
  unfold snapshotExitPending at isCandidate
  split at isCandidate
  · cases isCandidate
  · rcases mem_filterMap.mp isCandidate with ⟨_, _, found⟩
    dsimp only at found
    split at found
    next ready =>
      cases found
      simp only [Bool.and_eq_true] at ready
      rcases ready with ⟨⟨occupied, pending⟩, _⟩
      refine ⟨sound.wellFormed.generationLe _ occupied, fun owner found => ?_⟩
      have positive := sound.pendingTid _ occupied pending
      rcases (sound.entryOwner _ owner occupied found).2 with zero | same
      · omega
      · exact same.symm
    next => cases found

theorem Sound.joined {handle : ℕ}
    (knows : process.CallKnows (.joining handle (some token))) (holds : process.Holds thread handle)
    (finished : (process.threads thread).status = .finished)
    (unreleased : (process.threads thread).released = false) :
    process.CallKnows (.joined token) := by
  refine ⟨knows.1, fun owner found => ?_⟩
  by_cases same : owner = thread
  · exact same ▸ finished
  · have born := (sound.threads owner).born found
    rcases sound.handles owner thread handle ⟨born, knows.2 owner found⟩ holds same with
      gone | gone
    · exact gone.1
    · exact absurd (unreleased.symm.trans gone.2) Bool.false_ne_true

theorem Sound.absent {candidate : DetachedCandidate}
    (owner : process.OwnerIs candidate.token fun owner => owner.kernelTid = candidate.kernelTid)
    (absent : process.TidAbsent candidate.kernelTid) (candidates : List DetachedCandidate) :
    process.CallKnows (.absent candidate.token candidates) := by
  refine ⟨owner.1, fun number found => ?_⟩
  have born := (sound.threads number).born found
  have notLive := fun live => absent number live (owner.2 number found)
  cases status : (process.threads number).status with
  | unborn => exact absurd status born
  | live => exact absurd status notLive
  | finished => exact status

theorem Sound.create {handle : ℕ} {kernelTid : ℤ}
    {skipTracking detached : Bool} (unborn : (process.threads thread).status = .unborn)
    (free : ∀ other, process.Holds other handle → process.Gone other) :
    (process.setThread thread (.created handle kernelTid skipTracking detached)).Sound := by
  have noToken := ((sound.threads thread).unborn unborn).1
  refine sound.threads_goOn ?_ ?_ rfl rfl
  · refine forall_setThread process thread _
      (motive := fun other => Thread.GoesOn (process.threads other)) ?_
      fun other _ => .refl (sound.threads other)
    grind [created, unborn]
  · have cases := forall_setThread process thread (.created handle kernelTid skipTracking detached)
      (motive := fun other state => (other = thread ∧ state.handle = handle) ∨
        (other ≠ thread ∧ state = process.threads other)) (.inl ⟨rfl, rfl⟩)
      fun _ different => .inr ⟨different, rfl⟩
    intro first second shared held otherHeld different
    have handles := sound.handles first second shared
    grind [Holds, Gone]

theorem Sound.removeOwn {state : Thread} {tid : ℕ}
    (goesOn : Thread.GoesOn (process.threads thread) state)
    (stays : Thread.Stays (process.threads thread) state) (found : state.token = some token)
    (unused : ¬state.Uses) :
    ((process.withRegistry
      (process.registry.compareRemove tid token.generation true).2).setThread thread
        state).Sound := by
  have after := sound.setThread goesOn stays
  have self : (process.setThread thread state).threads thread = state := update_self ..
  refine after.compareRemove ?_
  intro other held uses otherFound same
  have ownFound : ((process.setThread thread state).threads thread).token = some token := by
    rw [self]
    exact found
  rw [after.injective otherFound ownFound same, self] at uses
  exact unused uses

theorem Sound.release {captured : Option SlotToken} {begun : SlotToken → Call}
    (knows : ∀ token, captured = some token → process.CallKnows (begun token))
    (retirement : ∀ token, (begun token).retirement = none)
    (candidates : ∀ token, (begun token).candidates = []) :
    (process.release call thread captured begun).Sound := by
  have state := sound.threads thread
  have released {later : Call} (after : (process.setCall call later).Sound) :
      ((process.setCall call later).setThread thread
        { process.threads thread with released := true }).Sound := by
    apply after.setThread <;> constructor <;> grind [Process.setCall]
  cases captured with
  | none => exact released (sound.setCall nofun trivial nofun)
  | some token =>
    refine released (sound.setCall ?_ (knows token rfl) ?_)
    · simp [retirement]
    · simp [candidates]

theorem Sound.insertPublish {ok : Bool}
    (inserted : (process.threads thread).stage = .inserted)
    (found : (process.threads thread).token = some token) :
    (process.insertPublish thread token ok).Sound := by
  have state := sound.threads thread
  unfold Process.insertPublish
  split
  · exact sound.setThread (by grind) (by grind)
  · exact sound.removeOwn (by grind) (by grind) (by exact found) (by grind)

theorem Sound.markTid (published : (process.threads thread).stage = .published)
    (found : (process.threads thread).token = some token) :
    (process.markTid thread token).Sound := by
  have state := sound.threads thread
  have after : (process.setThread thread
      { process.threads thread with stage := .running }).Sound := by
    exact sound.setThread (by grind) (by grind)
  refine after.withRegistry (.markKernelTid token (process.threads thread).kernelTid) nofun
    (allContinue_next _ nofun) ?_ (fun _ _ _ => ⟨nofun, nofun⟩) ?_
  · intro holder held claim
    rw [reusableWindow_next rfl]
    exact (after.kept holder held claim).notQueued after.wellFormed
  · intro slot generation kernelTid isMark
    cases isMark
    refine forall_setThread process thread _ (motive := fun _ state => ∀ held,
      state.token = some held → held.generation = generation →
        (process.threads thread).kernelTid = state.kernelTid) (fun _ _ _ => rfl) ?_
    intro other different held otherFound same
    exact absurd (sound.injective otherFound found same) different

theorem Sound.leavePublish (settled : (process.threads thread).leave = .settled) :
    (process.leavePublish thread).Sound := by
  have state := sound.threads thread
  -- a handshake that is ready is not published again
  cases handshake : (process.threads thread).handshake <;>
    apply sound.setThread <;> constructor <;> grind

theorem Sound.step (fits : event.reserves → process.registry.nextGeneration + 1 < 2 ^ 64)
    (step : Step process event next) : next.Sound := by
  cases step with
  | create unborn free => exact sound.create unborn free
  | @exit thread | @abandon thread | @startUntracked thread | @publish thread =>
    have state := sound.threads thread
    exact sound.setThread (by grind) (by grind)
  | @insertReserve thread _ inserting =>
    have state := sound.threads thread
    have noToken := (state.inserting inserting).1
    have noIdentity := state.identity_none noToken
    apply sound.reserve (fits rfl) noToken
    all_goals grind
  | insertPublish _ inserted found => exact sound.insertPublish inserted found
  | markTid _ published found => exact sound.markTid published found
  | @destructor thread token =>
    have state := sound.threads thread
    have after : (process.setThread thread { process.threads thread with
        destructorPasses := (process.threads thread).destructorPasses + 1 }).Sound := by
      exact sound.setThread (by grind) (by grind)
    unfold destructor
    dsimp only
    split
    · exact after
    · exact after.withRegistry_of_ring (.markFinalDestructor token) rfl nofun nofun
  | @leaveReserve thread entered =>
    have state := sound.threads thread
    unfold leaveReserve
    dsimp only
    split
    · exact sound.setThread (by grind) (by grind)
    · apply sound.reserve (fits rfl) (state.entered entered)
      all_goals grind
  | @leaveMark thread token =>
    have state := sound.threads thread
    have after : (process.setThread thread
        { process.threads thread with leave := .settled }).Sound := by
      exact sound.setThread (by grind) (by grind)
    unfold leaveMark
    dsimp only
    split
    · exact after.withRegistry_of_ring (.markDetached _ token.generation) rfl nofun nofun
    · exact after
  | @leaveQuarantine thread =>
    have state := sound.threads thread
    have after : (process.setThread thread
        { process.threads thread with leave := .settled }).Sound := by
      exact sound.setThread (by grind) (by grind)
    exact after.withRegistry_of_ring (.quarantine _) rfl nofun nofun
  | leavePublish settled => exact sound.leavePublish settled
  | @leaveRemove thread _ _ found =>
    have state := sound.threads thread
    exact sound.removeOwn (by grind) (by grind) (by exact found) (by grind)
  | joinCapture => exact sound.setCall nofun sound.capture nofun
  | @joinReturn call _ _ _ joining holds finished unreleased =>
    have knows := sound.knows call
    rw [joining] at knows
    apply sound.release _ (fun _ => rfl) (fun _ => rfl)
    rintro token rfl
    exact sound.joined knows holds finished unreleased
  | joinFail | detachCapture | detachFail | scanEnd => exact sound.setCall nofun trivial nofun
  | @retireBegin call _ joined =>
    have knows := sound.knows call
    rw [joined] at knows
    exact sound.beginRetire knows rfl (fun _ => trivial) rfl (fun _ => trivial)
      (by rw [joined]; rfl) (by rw [joined]; rfl)
  | @retireMetrics call reusable retires =>
    have known := sound.candidates call
    unfold retireMetrics
    unfold retiredSlot at retires
    split at retires
    next token retiring =>
      exact sound.setCall (fun _ retires => .inl (retiring ▸ retires)) trivial nofun
    next token candidates reclaiming =>
      rw [reclaiming] at known
      cases reusable <;>
        exact sound.setCall (fun _ retires => .inl (reclaiming ▸ retires)) trivial known
    next => cases retires
  | @retireComplete _ token reusable retired =>
    exact sound.endRetire (.completeRetire token reusable) (.inl ⟨reusable, rfl⟩)
      (by rw [retired]; rfl) rfl trivial (.inr rfl)
  | detachReturn => exact sound.release (fun _ _ => trivial) (fun _ => rfl) (fun _ => rfl)
  | @detachMark _ handle token =>
    have after := sound.withRegistry_of_ring (.markDetached handle token.generation) rfl nofun nofun
    exact after.setCall nofun trivial nofun
  | @scan _ budget =>
    have after := sound.withRegistry_of_ring (.snapshotExitPending budget) rfl nofun nofun
    refine after.setCall nofun trivial fun candidate isCandidate => ?_
    have generation := (effect_next process.registry
      (.snapshotExitPending budget)).nextGeneration_eq nofun
    exact (sound.scanned isCandidate).follows_kernelTid (follows_withRegistry generation.ge)
  | @checkAbsent call candidate candidates scanning absent =>
    have known := sound.candidates call
    rw [scanning] at known
    exact sound.setCall nofun
      (sound.absent (known candidate mem_cons_self) absent candidates)
      fun other isCandidate => known other (mem_cons_of_mem _ isCandidate)
  | @checkSkip call _ _ scanning =>
    have known := sound.candidates call
    rw [scanning] at known
    exact sound.setCall nofun trivial
      fun other isCandidate => known other (mem_cons_of_mem _ isCandidate)
  | @reclaimBegin call _ _ absent =>
    have knows := sound.knows call
    rw [absent] at knows
    exact sound.beginRetire knows rfl (fun _ => trivial) rfl (fun _ => trivial)
      (by rw [absent]; rfl) (by rw [absent]; rfl)
  | @reclaimComplete _ token _ reclaimed =>
    exact sound.endRetire (.completeRetire token true) (.inl ⟨true, rfl⟩)
      (by rw [reclaimed]; rfl) rfl trivial (.inl (by rw [reclaimed]; rfl))
  | @reclaimDefer _ token _ deferring =>
    exact sound.endRetire (.deferRetire token) (.inr rfl)
      (by rw [deferring]; rfl) rfl trivial (.inl (by rw [deferring]; rfl))

end

theorem registry_reserve {found : SlotToken → Thread} {refused : Thread} :
    (process.reserve thread found refused).registry =
      machine.next process.registry (.reserveInsert (process.threads thread).handle) := by
  unfold reserve
  split
  next eq => exact (congrArg Prod.snd eq).symm
  next eq => exact (congrArg Prod.snd eq).symm

theorem Step.registry (step : Step process event next) :
    next.registry = process.registry ∨ ∃ call,
      next.registry = machine.next process.registry call ∧
        ∀ tid, call = .reserveInsert tid → event.reserves := by
  cases step with
  | insertReserve => exact .inr ⟨_, registry_reserve, fun _ _ => rfl⟩
  | leaveReserve =>
    unfold Process.leaveReserve
    dsimp only
    split
    · exact .inl rfl
    · exact .inr ⟨_, registry_reserve, fun _ _ => rfl⟩
  | insertPublish =>
    unfold Process.insertPublish
    split
    · exact .inl rfl
    · exact .inr ⟨.compareRemove _ _ true, rfl, nofun⟩
  | destructor =>
    unfold Process.destructor
    dsimp only
    split
    · exact .inl rfl
    · exact .inr ⟨.markFinalDestructor _, rfl, nofun⟩
  | leaveMark =>
    unfold Process.leaveMark
    dsimp only
    split
    · exact .inr ⟨.markDetached _ _, rfl, nofun⟩
    · exact .inl rfl
  | markTid => exact .inr ⟨.markKernelTid _ _, rfl, nofun⟩
  | leaveQuarantine => exact .inr ⟨.quarantine _, rfl, nofun⟩
  | leaveRemove => exact .inr ⟨.compareRemove _ _ true, rfl, nofun⟩
  | retireBegin | reclaimBegin => exact .inr ⟨.beginRetire _, rfl, nofun⟩
  | retireComplete | reclaimComplete => exact .inr ⟨.completeRetire _ _, rfl, nofun⟩
  | detachMark => exact .inr ⟨.markDetached _ _, rfl, nofun⟩
  | scan => exact .inr ⟨.snapshotExitPending _, rfl, nofun⟩
  | reclaimDefer => exact .inr ⟨.deferRetire _, rfl, nofun⟩
  | _ => exact .inl rfl

theorem Step.identity (step : Step process event next)
    (live : (process.threads thread).status = .live)
    (published : (process.threads thread).identity = some token) :
    (next.threads thread).status = .live ∧ (next.threads thread).identity = some token ∨
      next.registry = process.registry := by
  have kept {before : Process} {number : ℕ} {state : Thread}
      (threads : before.threads = process.threads)
      (status : state.status = (process.threads number).status)
      (identity : state.identity = (process.threads number).identity) :
      ((before.setThread number state).threads thread).status = .live ∧
        ((before.setThread number state).threads thread).identity = some token := by
    refine forall_setThread before number state (motive := fun other after => other = thread →
      after.status = .live ∧ after.identity = some token) ?_ ?_ thread rfl
    · rintro rfl
      exact ⟨status.trans live, identity.trans published⟩
    · rintro other _ rfl
      rw [threads]
      exact ⟨live, published⟩
  cases step
  all_goals
    try simp only [Process.insertReserve, Process.leaveReserve, Process.reserve,
      Process.insertPublish, Process.destructor, Process.leaveMark]
    repeat' split
  all_goals
    first
    | exact .inr rfl
    | exact .inl ⟨live, published⟩
    | exact .inl (kept rfl rfl rfl)

theorem threads_initial (capacity handle : ℕ) (kernelTid : ℤ) (thread : ℕ) :
    (initial capacity handle kernelTid).threads thread = .unborn ∨ thread = 0 ∧
      (initial capacity handle kernelTid).threads thread = .attaching handle kernelTid := by
  simp only [initial, update_apply]
  split <;> simp_all

theorem sound_initial {capacity handle : ℕ} {kernelTid : ℤ} :
    (initial capacity handle kernelTid).Sound := by
  have threads := threads_initial capacity handle kernelTid
  have noToken (thread : ℕ) :
      ((initial capacity handle kernelTid).threads thread).token = none := by
    rcases threads thread with same | ⟨_, same⟩ <;> rw [same] <;> rfl
  have noClaim (holder : Holder) (token : SlotToken) :
      ¬(initial capacity handle kernelTid).Claims holder token := by
    cases holder with
    | thread thread => exact fun claim => absurd ((noToken thread).symm.trans claim.2) nofun
    | call => nofun
  constructor
  · exact SlotRegistry.WellFormed.empty capacity
  · exact fun holder token claim => absurd claim (noClaim holder token)
  · nofun
  · exact fun claim => absurd claim (noClaim _ _)
  · exact fun thread token found => absurd ((noToken thread).symm.trans found) nofun
  · exact fun found => absurd ((noToken _).symm.trans found) nofun
  · nofun
  · nofun
  · intro thread other shared held otherHeld different
    rcases threads thread with same | ⟨rfl, _⟩
    · exact absurd (congrArg status same) held.1
    · rcases threads other with same | ⟨rfl, _⟩
      · exact absurd (congrArg status same) otherHeld.1
      · exact absurd rfl different
  · intro thread
    rcases threads thread with same | ⟨_, same⟩ <;> rw [same] <;> constructor <;>
      simp [attaching, unborn]
  · exact fun _ => trivial
  · nofun

section Run

variable {capacity handle : ℕ} {kernelTid : ℤ} {history : List Event}

theorem sound_run (run : History capacity handle kernelTid history process)
    (few : history.countP Event.reserves < 2 ^ 64) :
    process.Sound ∧ process.registry.nextGeneration ≤ history.countP Event.reserves := by
  induction run with
  | start => exact ⟨sound_initial, Nat.zero_le _⟩
  | @snoc _ event before _ _ step ih =>
    rw [countP_append, countP_singleton] at few ⊢
    rcases ih (by omega) with ⟨sound, _⟩
    have fits : event.reserves → before.registry.nextGeneration + 1 < 2 ^ 64 := by
      intro reserves
      rw [if_pos reserves] at few
      omega
    refine ⟨sound.step fits step, ?_⟩
    rcases step.registry with same | ⟨call, same, reserves⟩
    · rw [same]
      omega
    · rw [same]
      by_cases reserving : ∃ tid, call = .reserveInsert tid
      · rcases reserving with ⟨tid, isReserve⟩
        have reserved := reserves tid isReserve
        rw [nextGeneration_next sound.wellFormed fun _ => fits reserved, if_pos reserved]
        have one := countP_le_length (l := [machine.reply before.registry call])
          (p := RegistryReply.isReservation)
        rw [length_singleton] at one
        omega
      · rw [(effect_next before.registry call).nextGeneration_eq
          fun tid isReserve => reserving ⟨tid, isReserve⟩]
        omega

/-- No two live threads have published one slot. -/
def Exclusive (process : Process) : Prop :=
  ∀ thread other token otherToken, (process.threads thread).status = .live →
    (process.threads other).status = .live →
    (process.threads thread).identity = some token →
    (process.threads other).identity = some otherToken → token.slot = otherToken.slot →
    thread = other

/-- What a step may do to the slots that were published. -/
structure SafeStep (before : Process) (event : Event) (after : Process) : Prop where
  /-- Every thread that has published a slot has ended when the slot enters the ring. -/
  recycled : ∀ slot ∈ after.registry.reusableWindow, slot ∉ before.registry.reusableWindow →
    ∀ thread token, (before.threads thread).identity = some token → token.slot = slot →
      (before.threads thread).status = .finished
  /-- The metrics of a slot are not retired while a live thread has published it. -/
  retired : ∀ call reusable slot, event = .retireMetrics call reusable →
    before.retiredSlot call = some slot → ∀ thread token,
      (before.threads thread).status = .live → (before.threads thread).identity = some token →
      token.slot ≠ slot

theorem Sound.claims_of_live {token : SlotToken} (sound : process.Sound)
    (live : (process.threads thread).status = .live)
    (published : (process.threads thread).identity = some token) :
    process.Claims (.thread thread) token :=
  ⟨⟨live, .inl (by simp [published])⟩, (sound.threads thread).identity token published⟩

theorem Sound.exclusive (sound : process.Sound) : process.Exclusive := by
  intro thread other token otherToken live otherLive published otherPublished sameSlot
  have same := sound.distinct (sound.claims_of_live live published)
    (sound.claims_of_live otherLive otherPublished) sameSlot
  exact Holder.thread.inj same

theorem claims_of_retiredSlot {slot : ℕ} (retired : process.retiredSlot call = some slot) :
    ∃ token, process.Claims (.call call) token ∧ token.slot = slot := by
  unfold retiredSlot at retired
  split at retired
  next token retiring =>
    refine ⟨token, ?_, Option.some.inj retired⟩
    change (process.calls call).retirement = some token
    rw [retiring]
    rfl
  next token candidates reclaiming =>
    refine ⟨token, ?_, Option.some.inj retired⟩
    change (process.calls call).retirement = some token
    rw [reclaiming]
    rfl
  next => cases retired

theorem Sound.safeStep (sound : process.Sound) (nextSound : next.Sound)
    (step : Step process event next) : SafeStep process event next := by
  constructor
  · intro slot queued notQueued thread token published sameSlot
    cases status : (process.threads thread).status with
    | finished => rfl
    | unborn =>
      have found := (sound.threads thread).identity token published
      exact absurd status ((sound.threads thread).born found)
    | live =>
      rcases step.identity status published with ⟨live, kept⟩ | same
      · have claim := nextSound.claims_of_live live kept
        have free := (nextSound.kept _ _ claim).notQueued nextSound.wellFormed
        exact absurd (sameSlot ▸ queued) free
      · exact absurd (same ▸ queued) notQueued
  · rintro call reusable slot rfl retired thread token live published sameSlot
    rcases claims_of_retiredSlot retired with ⟨_, claim, slotEq⟩
    have same := sound.distinct (sound.claims_of_live live published) claim
      (sameSlot.trans slotEq.symm)
    cases same

/-- Slots are exclusive across the lifetimes of threads, in every run that attempts fewer than
`2 ^ 64` reservations. -/
theorem slots_exclusive (run : History capacity handle kernelTid history process)
    (few : history.countP Event.reserves < 2 ^ 64) :
    process.Exclusive ∧ ∀ earlier event before, history = earlier ++ [event] →
      History capacity handle kernelTid earlier before → Step before event process →
      SafeStep before event process := by
  have sound := (sound_run run few).1
  refine ⟨sound.exclusive, ?_⟩
  rintro earlier event before rfl earlierRun step
  rw [countP_append] at few
  exact (sound_run earlierRun (by omega)).1.safeStep sound step

/-- The attaching thread takes a slot before the first child is created. -/
theorem run_create :
    History 2 0 0 [.insertReserve 0, .insertPublish 0 true, .create 1 1 1 false false]
      ((((initial 2 0 0).insertReserve 0).insertPublish 0 ⟨0, 1⟩ true).setThread 1
        (.created 1 1 false false)) := by
  have run : History 2 0 0 [] (initial 2 0 0) := .start
  have run := run.snoc (@Step.insertReserve _ 0 rfl rfl)
  have run := run.snoc (@Step.insertPublish _ 0 ⟨0, 1⟩ true rfl rfl rfl)
  refine run.snoc (.create rfl ?_ ?_)
  · rintro (_ | _ | _) ⟨born, isHandle⟩
    · cases isHandle
    · exact absurd rfl born
    · exact absurd rfl born
  · rintro (_ | _ | _) live
    · nofun
    · cases live
    · cases live

/-- The attaching thread has a slot. A child publishes the other one, ends and is joined. -/
def firstLife : List Event :=
  [.insertReserve 0, .insertPublish 0 true, .create 1 1 1 false false, .leaveReserve 1,
    .leaveMark 1, .leavePublish 1, .publish 1 true, .markTid 1, .joinCapture 0 1, .exit 1,
    .joinReturn 0 1, .retireBegin 0]

/-- A second child has the handle and the kernel thread identifier of the first one. -/
def secondLife : List Event :=
  [.create 2 1 1 false false, .leaveReserve 2, .leaveMark 2, .leavePublish 2, .publish 2 true]

theorem slots_exclusive_secondLife : ∃ joined retired recycled process,
    Step joined (.retireMetrics 0 true) retired ∧ SafeStep joined (.retireMetrics 0 true) retired ∧
    Step retired (.retireComplete 0) recycled ∧ SafeStep retired (.retireComplete 0) recycled ∧
    1 ∈ recycled.registry.reusableWindow ∧
    History 2 0 0 (firstLife ++ [.retireMetrics 0 true, .retireComplete 0] ++ secondLife) process ∧
    (process.threads 1).identity = some ⟨1, 2⟩ ∧ (process.threads 2).identity = some ⟨1, 3⟩ ∧
    process.Exclusive := by
  have run := run_create
  have run := run.snoc (@Step.leaveReserve _ 1 rfl)
  have run := run.snoc (@Step.leaveMark _ 1 ⟨1, 2⟩ rfl rfl)
  have run := run.snoc (@Step.leavePublish _ 1 rfl)
  have run := run.snoc (@Step.publish _ 1 ⟨1, 2⟩ true rfl rfl rfl rfl rfl rfl)
  have run := run.snoc (@Step.markTid _ 1 ⟨1, 2⟩ rfl rfl rfl)
  have run := run.snoc (@Step.joinCapture _ 0 1 rfl)
  have run := run.snoc (@Step.exit _ 1 rfl)
  have run := run.snoc (@Step.joinReturn _ 0 1 1 (some ⟨1, 2⟩) rfl ⟨nofun, rfl⟩ rfl rfl)
  have joinedRun := run.snoc (@Step.retireBegin _ 0 ⟨1, 2⟩ rfl)
  have retiredRun := joinedRun.snoc (@Step.retireMetrics _ 0 true (by rfl))
  have recycledRun := retiredRun.snoc (@Step.retireComplete _ 0 ⟨1, 2⟩ true rfl)
  have run := recycledRun.snoc (@Step.create _ 2 1 1 false false rfl
    (by
      rintro (_ | _ | _ | _) ⟨born, isHandle⟩
      · cases isHandle
      · exact ⟨rfl, rfl⟩
      · exact absurd rfl born
      · exact absurd rfl born)
    (by
      rintro (_ | _ | _ | _) live
      · nofun
      · cases live
      · cases live
      · cases live))
  have run := run.snoc (@Step.leaveReserve _ 2 rfl)
  have run := run.snoc (@Step.leaveMark _ 2 ⟨1, 3⟩ rfl rfl)
  have run := run.snoc (@Step.leavePublish _ 2 rfl)
  have run := run.snoc (@Step.publish _ 2 ⟨1, 3⟩ true rfl rfl rfl rfl rfl rfl)
  have retires := (slots_exclusive retiredRun (by decide)).2 _ _ _ rfl joinedRun
  have recycles := (slots_exclusive recycledRun (by decide)).2 _ _ _ rfl retiredRun
  refine ⟨_, _, _, _, ?_, retires ?_, ?_, recycles ?_, ?_, run, rfl, rfl,
    (slots_exclusive run (by decide)).1⟩
  · exact .retireMetrics rfl
  · exact .retireMetrics rfl
  · exact .retireComplete rfl
  · exact .retireComplete rfl
  · decide

end Run

section Wrap

variable {registry : SlotRegistry ℕ} {tid generation latest : ℕ}

/-- A registry with two slots, of which the attaching thread has the first. -/
structure Attached (registry : SlotRegistry ℕ) (generation : ℕ) : Prop where
  ready : registry.initialized ∧ registry.capacity = 2 ∧ registry.nextGeneration = generation
  first : registry.entries 0 =
    { (SlotEntry.zero : SlotEntry ℕ) with token := ⟨0, 1⟩, occupied := true }
  head : registry.reusableHead < 2

/-- The second slot is in the ring. -/
structure Returned (registry : SlotRegistry ℕ) (generation : ℕ) : Prop
    extends Attached registry generation where
  ring : registry.reusableCount = 1 ∧ registry.reusable registry.reusableHead = 1
  free : (registry.entries 1).occupied = false

/-- The second slot is reserved. -/
structure Lent (registry : SlotRegistry ℕ) (tid generation : ℕ) : Prop
    extends Attached registry generation where
  ring : registry.reusableCount = 0
  second : registry.entries 1 =
    { (SlotEntry.zero : SlotEntry ℕ) with tid, token := ⟨1, generation⟩, occupied := true }

theorem Returned.reserve (returned : Returned registry generation) (other : tid ≠ 0) :
    ∃ after, registry.reserveInsert tid =
        (some ⟨1, issueGeneration generation⟩, after) ∧
      Lent after tid (issueGeneration generation) := by
  rcases returned with ⟨⟨⟨ready, two, rfl⟩, first, head⟩, ⟨count, queued⟩, free⟩
  have other' : (0 : ℕ) ≠ tid := other.symm
  refine ⟨(registry.reserveInsert tid).2, ?_, ⟨?_, ?_, ?_⟩, ?_, ?_⟩ <;>
    simp [reserveInsert, ready, takeSlot, count, queued, two, findUnlocked, free, occupy,
      discardOld, setEntry, first, List.range_succ, SlotEntry.zero, other']
  omega

theorem Lent.remove (lent : Lent registry tid generation) (other : tid ≠ 0) :
    Returned (registry.compareRemove tid generation true).2 generation := by
  rcases lent with ⟨⟨⟨ready, two, rfl⟩, first, head⟩, count, second⟩
  have other' : (0 : ℕ) ≠ tid := other.symm
  refine ⟨⟨?_, ?_, ?_⟩, ?_, ?_⟩ <;>
    simp [compareRemove, ready, two, findUnlocked, first, second, List.range_succ,
      removeEntry, enqueueReusableUnlocked, discardUnlocked,
      setEntry, SlotEntry.zero, head, count, other', Nat.mod_eq_of_lt]

theorem Lent.beginRetire (lent : Lent registry tid generation) :
    (registry.beginRetire ⟨1, generation⟩).1 := by
  rcases lent with ⟨⟨⟨ready, two, rfl⟩, _, _⟩, _, second⟩
  simp [SlotRegistry.beginRetire, ready, findTokenUnlocked, two, second, SlotEntry.zero]

/-- A late join is all that goes on. -/
structure Waiting (latest generation : ℕ) (process : Process) : Prop where
  returned : Returned process.registry generation
  joining : process.calls 0 = .joining 1 (some ⟨1, 2⟩)
  started : 1 < latest
  ended : (process.threads 1).status = .finished ∧ (process.threads 1).released = false
  names : ∀ thread < latest, (process.threads thread).handle = thread ∧
    (process.threads thread).kernelTid = thread
  fresh : ∀ thread, latest ≤ thread → process.threads thread = .unborn

variable {state : Thread}

@[simp]
theorem setThread_self : (process.setThread thread state).threads thread = state :=
  update_self ..

@[simp]
theorem setThread_setThread {other : Thread} :
    (process.setThread thread state).setThread thread other = process.setThread thread other := by
  simp [setThread]

@[simp]
theorem setThread_registry : (process.setThread thread state).registry = process.registry := rfl

@[simp]
theorem setThread_withRegistry :
    (process.setThread thread state).withRegistry registry =
      (process.withRegistry registry).setThread thread state := rfl

section

variable (waiting : Waiting latest generation process)

include waiting

theorem Waiting.create :
    Step process (.create latest latest latest false false)
      (process.setThread latest (.created latest latest false false)) := by
  have named (other : ℕ) : process.threads other = .unborn ∨ other ≠ latest ∧
      (process.threads other).handle = other ∧ (process.threads other).kernelTid = other := by
    rcases Nat.lt_or_ge other latest with lower | upper
    · exact .inr ⟨lower.ne, waiting.names other lower⟩
    · exact .inl (waiting.fresh other upper)
  apply Step.create
  · rw [waiting.fresh latest le_rfl]
    rfl
  · intro other holds
    have := named other
    grind [Holds, unborn]
  · intro other live
    have := named other
    grind [unborn]

theorem Waiting.passed
    (returned : Returned registry (issueGeneration generation)) (handle : state.handle = latest)
    (kernelTid : state.kernelTid = latest) :
    Waiting (latest + 1) (issueGeneration generation)
      ((process.withRegistry registry).setThread latest state) := by
  have started := waiting.started
  refine ⟨returned, waiting.joining, by omega, ?_, ?_, ?_⟩
  · refine forall_setThread process latest state (motive := fun thread state => thread = 1 →
      state.status = .finished ∧ state.released = false) ?_ ?_ 1 rfl
    · omega
    · rintro _ _ rfl
      exact waiting.ended
  · refine forall_setThread process latest state (motive := fun thread state =>
      thread < latest + 1 → state.handle = thread ∧ state.kernelTid = thread) ?_ ?_
    · exact fun _ => ⟨handle, kernelTid⟩
    · exact fun thread different lower => waiting.names thread (by omega)
  · refine forall_setThread process latest state (motive := fun thread state =>
      latest + 1 ≤ thread → state = .unborn) ?_ ?_
    · omega
    · exact fun thread different upper => waiting.fresh thread (by omega)

theorem Waiting.visit (run : History 2 0 0 history process) :
    ∃ history next, History 2 0 0 history next ∧
      Waiting (latest + 1) (issueGeneration generation) next := by
  have other : latest ≠ 0 := (Nat.zero_lt_of_lt waiting.started).ne'
  rcases waiting.returned.reserve other with ⟨_, reserved, lent⟩
  have run := run.snoc waiting.create
  have run := run.snoc (@Step.abandon _ latest (by simp [created]) (by simp [created])
    (by simp [created, unborn]))
  have run := run.snoc (@Step.leaveReserve _ latest (by simp [created]))
  simp only [leaveReserve, reserve, reserved, created, setThread_self, setThread_registry] at run
  have run := run.snoc
    (@Step.leaveMark _ latest ⟨1, issueGeneration generation⟩ (by simp) (by simp))
  have run := run.snoc (@Step.leavePublish _ latest (by simp [leaveMark]))
  have run := run.snoc (@Step.leaveRemove _ latest ⟨1, issueGeneration generation⟩
    (by simp [leaveMark, leavePublish])
    (by simp [leaveMark, leavePublish]))
  simp only [leaveMark, leavePublish, leaveRemove, setThread_self,
    setThread_setThread, setThread_withRegistry, Bool.false_eq_true,
    if_false] at run
  exact ⟨_, _, run, waiting.passed (lent.remove other) rfl rfl⟩

theorem Waiting.reach
    (run : History 2 0 0 history process) (count : ℕ) (fits : generation + count < 2 ^ 64) :
    ∃ history next, History 2 0 0 history next ∧
      Waiting (latest + count) (generation + count) next := by
  induction count with
  | zero => exact ⟨history, process, run, waiting⟩
  | succ _ ih =>
    rcases ih (by omega) with ⟨_, _, run, waiting⟩
    have visited := waiting.visit run
    rwa [SlotRegistry.WellFormed.issueGeneration_eq (by omega)] at visited

end

theorem waiting_start : ∃ history process, History 2 0 0 history process ∧ Waiting 2 2 process := by
  have run := run_create
  have run := run.snoc (@Step.abandon _ 1 rfl rfl rfl)
  have run := run.snoc (@Step.leaveReserve _ 1 rfl)
  have run := run.snoc (@Step.joinCapture _ 0 1 rfl)
  have run := run.snoc (@Step.leaveMark _ 1 ⟨1, 2⟩ rfl rfl)
  have run := run.snoc (@Step.leavePublish _ 1 rfl)
  have run := run.snoc (@Step.leaveRemove _ 1 ⟨1, 2⟩ rfl rfl)
  have run := run.snoc (@Step.exit _ 1 rfl)
  refine ⟨_, _, run, ⟨⟨⟨rfl, rfl, rfl⟩, rfl, by decide⟩, ⟨rfl, rfl⟩, rfl⟩, rfl, by decide,
    ⟨rfl, rfl⟩, ?_, ?_⟩
  · intro thread lower
    rcases thread with _ | _ | _
    · exact ⟨rfl, rfl⟩
    · exact ⟨rfl, rfl⟩
    · omega
  · intro thread upper
    rcases thread with _ | _ | _
    · omega
    · omega
    · rfl

theorem retires_live {live : ℕ} (run : History 2 0 0 history process)
    (lent : Lent process.registry tid generation) (other : live ≠ 1)
    (isLive : (process.threads live).status = .live)
    (published : (process.threads live).identity = some ⟨1, generation⟩)
    (joining : process.calls 0 = .joining 1 (some ⟨1, generation⟩)) (holds : process.Holds 1 1)
    (ended : (process.threads 1).status = .finished ∧ (process.threads 1).released = false) :
    ∃ history process next, History 2 0 0 history process ∧
      Step process (.retireMetrics 0 true) next ∧
        ¬SafeStep process (.retireMetrics 0 true) next := by
  have run := run.snoc (.joinReturn joining holds ended.1 ended.2)
  have run := run.snoc (@Step.retireBegin _ 0 ⟨1, generation⟩ (by simp [release, setCall]))
  have retired : retiredSlot (beginRetire
      (process.release 0 1 (some ⟨1, generation⟩) .joined) 0 ⟨1, generation⟩
      (.retiring ⟨1, generation⟩) .idle) 0 = some 1 := by
    simp [beginRetire, release, setCall, retiredSlot, lent.beginRetire]
  refine ⟨_, _, _, run, .retireMetrics (by rw [retired]; rfl), fun safe => ?_⟩
  refine safe.retired 0 true 1 rfl retired live ⟨1, generation⟩ ?_ ?_ rfl
  · simpa [beginRetire, release, setCall, setThread, withRegistry, other] using isLive
  · simpa [beginRetire, release, setCall, setThread, withRegistry, other] using published

/-- A join that returns after `2 ^ 64` reservations takes the slot of a live thread for that of the
joined one. -/
theorem late_join_retires : ∃ history process next, History 2 0 0 history process ∧
    Step process (.retireMetrics 0 true) next ∧ ¬SafeStep process (.retireMetrics 0 true) next := by
  rcases waiting_start with ⟨_, _, run, waiting⟩
  rcases waiting.reach run (2 ^ 64 - 3) (by decide) with ⟨_, _, run, waiting⟩
  rcases waiting.visit run with ⟨_, process, run, waiting⟩
  have wraps : issueGeneration (issueGeneration (2 + (2 ^ 64 - 3))) = 2 := by decide
  generalize 2 + (2 ^ 64 - 3) + 1 = latest at waiting
  have started := waiting.started
  rcases waiting.returned.reserve (show latest ≠ 0 by omega) with ⟨registry, reserved, lent⟩
  rw [wraps] at reserved lent
  have run := run.snoc waiting.create
  have run := run.snoc (@Step.leaveReserve _ latest (by simp [created]))
  simp only [leaveReserve, reserve, reserved, created, unborn,
    setThread_self, setThread_registry, Bool.false_eq_true, if_false] at run
  have run := run.snoc (@Step.leaveMark _ latest ⟨1, 2⟩ (by simp) (by simp))
  have run := run.snoc (@Step.leavePublish _ latest (by simp [leaveMark]))
  have run := run.snoc (@Step.publish _ latest ⟨1, 2⟩ true
    (by simp [leaveMark, leavePublish])
    (by simp [leaveMark, leavePublish])
    (by simp [leaveMark, leavePublish])
    (by simp [leaveMark, leavePublish])
    (by simp [leaveMark, leavePublish])
    (by simp [leaveMark, leavePublish]))
  simp only [leaveMark, leavePublish, publish, setThread_self] at run
  have same (state : Thread) :
      ((process.withRegistry registry).setThread latest state).threads 1 = process.threads 1 :=
    update_of_ne (by omega) _ _
  refine retires_live run lent (show latest ≠ 1 by omega) ?_ ?_ (by exact waiting.joining) ?_ ?_
  · simp
  · simp
  · exact ⟨by simp [same, waiting.ended], by simp [same, waiting.names 1 started]⟩
  · simp [same, waiting.ended]

end Wrap

end Process

end Pthread

end Peak
