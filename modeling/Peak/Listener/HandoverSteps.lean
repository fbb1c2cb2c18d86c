import Peak.Common.Runs
import Peak.Listener.Handover

/-!
# The handover along a run

Every access of an abandoning thread and of the detaching thread preserves the
invariant of the handover. A call that returns has the effect of an abandoned frame
whose thread is not interrupted.
-/

namespace Peak.FastLifetime

open Finset Option Nat

variable {capacity thread : ℕ} {state : FastLifetime}

theorem Slots.registered_le (slots : state.Slots capacity)
    (inRange : thread < capacity) :
    (state.threads thread).pc.registered ≤ state.lifetimeAbandoners := by
  rw [slots.registered]
  exact single_le_sum (f := fun i => (state.threads i).pc.registered)
    (fun _ _ => zero_le _) (mem_range.mpr inRange)

section

variable (handover : state.Handover capacity) (inRange : thread < capacity)

include handover inRange

theorem Handover.goto_undecided {here pc : AbandonPc}
    (position : (state.threads thread).pc = here) {abandoners : ℕ}
    (registered : abandoners + here.registered = state.lifetimeAbandoners + pc.registered)
    (removed : pc.removed = here.removed) (occupied : (state.threads thread).frames ≠ [])
    (notEarly : pc.beforeSeed = false) (notLate : pc.afterSeed = false) :
    ({ state with lifetimeAbandoners := abandoners }.goto thread pc).Handover capacity := by
  subst position
  refine handover.goto inRange registered removed ⟨fun _ => occupied, ?_, ?_, ?_, ?_, ?_⟩
  · rintro (_ | _) seen rfl
    · cases notEarly
    · cases notLate
  · intro late
    rw [notLate] at late
    cases late
  · exact fun _ => notEarly
  · rintro slot rfl
    cases notLate
  · rintro rfl
    cases notLate

theorem Handover.goto_late {here pc : AbandonPc}
    (position : (state.threads thread).pc = here) (seeded : state.releaseRequired)
    (registered : here.registered = pc.registered) (removed : pc.removed = here.removed)
    (occupied : (state.threads thread).frames ≠ []) (notEarly : pc.beforeSeed = false)
    (loaded : ∀ afterSeed seen, pc = .storeActive afterSeed seen →
      seen = (state.threads thread).active)
    (scanned : ∀ slot, pc = .countActive slot 0 → ∀ j < slot, (state.threads j).active = 0)
    (zero : pc = .clearRedirect → state.activeSum capacity = 0) :
    (state.goto thread pc).Handover capacity := by
  subst position
  exact handover.goto inRange (by rw [registered]) removed
    ⟨fun _ => occupied, loaded, fun _ => seeded, fun _ => notEarly, scanned, zero⟩

theorem Handover.loadActive {afterSeed : Bool}
    (position : (state.threads thread).pc = .loadActive afterSeed) :
    (state.goto thread (.storeActive afterSeed (state.threads thread).active)).Handover
      capacity := by
  have consistent := handover.slots.consistent thread
  have occupied := consistent.occupied (by simp [position])
  refine handover.goto inRange ?_ ?_ ⟨fun _ => occupied, ?_, ?_, ?_, nofun, nofun⟩
  · rw [position]
    cases afterSeed <;> rfl
  · rw [position]
    rfl
  · rintro _ seen ⟨⟩
    rfl
  · intro late
    refine handover.gates.late thread ?_
    rw [position]
    cases afterSeed with
    | false => cases late
    | true => rfl
  · intro closed
    have decided := (handover.gates.closed closed).2.2 thread inRange
    rw [position] at decided
    cases afterSeed with
    | false => cases decided
    | true => rfl

theorem Handover.storeActive {afterSeed : Bool} {seen : ℕ}
    (position : (state.threads thread).pc = .storeActive afterSeed seen) :
    (state.removeActive thread seen (if afterSeed then .awaitRelease else .unregister)).Handover
      capacity := by
  have consistent := handover.slots.consistent thread
  have occupied := consistent.occupied (by simp [position])
  rw [consistent.loaded afterSeed seen position]
  cases afterSeed with
  | false =>
    have notClosed : state.atClose = none := by
      by_contra closed
      have decided := (handover.gates.closed closed).2.2 thread inRange
      rw [position] at decided
      cases decided
    refine handover.removeActive inRange ?_ ?_ rfl occupied
      ⟨fun _ => occupied, nofun, nofun, ?_, nofun, nofun⟩ ?_
    · rw [position]
      rfl
    · rw [position]
      rfl
    · exact fun closed => absurd notClosed closed
    · exact fun closed => absurd notClosed closed
  | true =>
    have seeded := handover.gates.late thread (by rw [position]; rfl)
    refine handover.removeActive inRange ?_ ?_ rfl occupied
      ⟨fun _ => occupied, nofun, fun _ => seeded, fun _ => rfl, nofun, nofun⟩
      (fun _ => seeded)
    · rw [position]
      rfl
    · rw [position]
      rfl

theorem Handover.countActive {slot total : ℕ}
    (position : (state.threads thread).pc = .countActive slot total) :
    (state.goto thread (
      if slot < capacity then .countActive (slot + 1) (total + (state.threads slot).active)
      else if total = 0 then .clearRedirect else .decrement)).Handover capacity := by
  have consistent := handover.slots.consistent thread
  have occupied := consistent.occupied (by simp [position])
  have seeded := handover.gates.late thread (by rw [position]; rfl)
  by_cases more : slot < capacity
  · rw [if_pos more]
    refine handover.goto_late inRange position seeded rfl rfl occupied rfl nofun ?_ nofun
    intro scanned atScan j earlier
    injection atScan with sameSlot sameTotal
    rw [Nat.add_eq_zero_iff] at sameTotal
    rw [← sameSlot, Nat.lt_succ_iff_lt_or_eq] at earlier
    rcases earlier with earlier | rfl
    · rw [sameTotal.1] at position
      exact handover.redirection.scanned thread slot position j earlier
    · exact sameTotal.2
  · rw [if_neg more]
    split
    case isTrue none =>
      refine handover.goto_late inRange position seeded rfl rfl occupied rfl nofun nofun ?_
      intro _
      rw [none] at position
      rw [activeSum_eq_zero_iff]
      intro j within
      exact handover.redirection.scanned thread slot position j
        (within.trans_le (Nat.le_of_not_lt more))
    case isFalse =>
      exact handover.goto_late inRange position seeded rfl rfl occupied rfl nofun nofun nofun

end

variable {next : FastLifetime}

theorem Handover.abandon (handover : state.Handover capacity)
    (stepped : state.abandon capacity thread = some next) : next.Handover capacity := by
  rw [FastLifetime.abandon] at stepped
  split at stepped
  case isFalse => cases stepped
  case isTrue inRange =>
    have consistent := handover.slots.consistent thread
    have registered := handover.slots.registered_le inRange
    by_cases idle : (state.threads thread).pc = .idle
    · rw [idle] at stepped
      cases stepped
    have occupied := consistent.occupied idle
    cases position : (state.threads thread).pc
    case idle => exact absurd position idle
    all_goals
      rw [position] at stepped registered
      injection stepped with stepped
      subst stepped
    case loadClosing =>
      split
      · exact handover.goto_undecided inRange position rfl rfl occupied rfl rfl
      · exact handover.goto_undecided inRange position rfl rfl occupied rfl rfl
    case awaitSeed =>
      split
      case isTrue seeded =>
        exact handover.goto_late inRange position seeded rfl rfl occupied rfl nofun nofun nofun
      case isFalse => exact handover
    case register =>
      exact handover.goto_undecided inRange position rfl rfl occupied rfl rfl
    case confirmOpen =>
      split
      case isTrue =>
        exact handover.goto_undecided inRange position rfl rfl occupied rfl rfl
      case isFalse notClosing =>
        refine handover.goto inRange ?_ ?_ ⟨fun _ => occupied, nofun, nofun, ?_, nofun, nofun⟩
        · rw [position]
          rfl
        · rw [position]
          rfl
        · intro closed
          exact absurd (handover.gates.closed closed).1 notClosing
    case retreat =>
      exact handover.goto_undecided inRange position (Nat.sub_add_cancel registered) rfl occupied
        rfl rfl
    case loadActive afterSeed =>
      exact handover.loadActive inRange position
    case storeActive afterSeed seen =>
      exact handover.storeActive inRange position
    case unregister =>
      refine handover.dropFrame inRange _ ?_ ?_ ?_
      · rw [position]
        exact Nat.sub_add_cancel registered
      · rw [position]
        rfl
      · by_contra closed
        have decided := (handover.gates.closed closed).2.2 thread inRange
        rw [position] at decided
        cases decided
    case awaitRelease =>
      split
      case isTrue seeded =>
        exact handover.goto_late inRange position seeded rfl rfl occupied rfl nofun nofun nofun
      case isFalse => exact handover
    case readDestroyed =>
      have seeded := handover.gates.late thread (by rw [position]; rfl)
      split
      · exact handover.goto_late inRange position seeded rfl rfl occupied rfl nofun nofun nofun
      · exact handover.goto_late inRange position seeded rfl rfl occupied rfl nofun nofun nofun
    case loadEnabled =>
      have seeded := handover.gates.late thread (by rw [position]; rfl)
      split
      · exact handover.goto_late inRange position seeded rfl rfl occupied rfl nofun nofun nofun
      · refine handover.goto_late inRange position seeded rfl rfl occupied rfl nofun ?_ nofun
        rintro slot ⟨⟩ j earlier
        exact absurd earlier (not_lt_zero j)
    case countActive slot total =>
      exact handover.countActive inRange position
    case clearRedirect =>
      have seeded := handover.gates.late thread (by rw [position]; rfl)
      have cleared := handover.clearRedirect seeded (handover.redirection.zero thread position)
      exact cleared.goto_late inRange position seeded rfl rfl occupied rfl nofun nofun nofun
    case decrement =>
      have seeded := handover.gates.late thread (by rw [position]; rfl)
      exact handover.releaseFrame inRange position rfl rfl seeded

theorem pushFrame_self (thread : ℕ) :
    (state.pushFrame thread).threads thread =
      { state.threads thread with
        frames := state.entered :: (state.threads thread).frames
        active := (state.threads thread).active + 1 } := by
  simp [pushFrame, setThread]

theorem pushFrame_other {thread other : ℕ} (different : other ≠ thread) :
    (state.pushFrame thread).threads other = state.threads other := by
  simp [pushFrame, setThread, different]

@[simp]
theorem pushFrame_pc (thread i : ℕ) :
    ((state.pushFrame thread).threads i).pc = (state.threads i).pc := by
  by_cases same : i = thread
  · rw [same, pushFrame_self]
  · rw [pushFrame_other same]

theorem live_pushFrame (state : FastLifetime) (inRange : thread < capacity) :
    (state.pushFrame thread).live capacity = state.entered ::ₘ state.live capacity := by
  have sums := live_setThread state inRange
    { state.threads thread with
      frames := state.entered :: (state.threads thread).frames
      active := (state.threads thread).active + 1 }
  rw [← Multiset.cons_coe, Multiset.add_cons, ← Multiset.cons_add] at sums
  exact add_right_cancel sums

theorem Phase.of_open (phase : state.Phase capacity) (notClosed : state.atClose = none)
    (prepare : next.prepare = state.prepare)
    (closing : next.lifetimeClosing = state.lifetimeClosing)
    (enabled : next.enabled = state.enabled) (unseeded : state.releaseRequired = false) :
    next.Phase capacity := by
  rw [Phase] at phase
  rw [Phase, prepare, closing, enabled]
  cases position : state.prepare with
  | idle | readRedirect | disable => trivial
  | close | awaitAbandoners => simpa only [position] using phase
  | sum slot total | readUsage active | loadRelease active current | seed active | publish active =>
    simp only [position] at phase
    exact absurd notClosed phase.1
  | clear =>
    simp only [position] at phase
    simp [unseeded] at phase

theorem Handover.enter (handover : state.Handover capacity)
    (stepped : state.enter capacity thread = some next) : next.Handover capacity := by
  rw [FastLifetime.enter] at stepped
  split at stepped
  case isFalse => cases stepped
  case isTrue guard =>
    cases stepped
    rcases guard with ⟨inRange, idle, redirected, enabled, _⟩
    have notClosed : state.atClose = none := by
      by_contra closed
      rw [(handover.gates.closed closed).2.1] at enabled
      cases enabled
    rcases handover.not_counted notClosed with ⟨unseeded, uncounted⟩
    have notLate : ∀ i, (state.threads i).pc.afterSeed = false := by
      intro i
      by_contra late
      rw [handover.gates.late i (Bool.eq_true_of_not_eq_false late)] at unseeded
      cases unseeded
    rcases handover with ⟨slots, gates, redirection, ledger, phase⟩
    constructor
    case slots =>
      refine ⟨?_, slots.registered_setThread inRange rfl, ?_, ?_⟩
      · intro i
        by_cases same : i = thread
        · subst same
          rw [pushFrame_self]
          refine ⟨?_, fun notIdle => absurd idle notIdle, ?_⟩
          · have counted := (slots.consistent i).counted
            simp only [List.length_cons]
            omega
          · intro afterSeed seen atStore
            rw [idle] at atStore
            cases atStore
        · rw [pushFrame_other same]
          exact slots.consistent i
      · intro frame frameMem
        rw [live_pushFrame state inRange, Multiset.mem_cons] at frameMem
        rcases frameMem with rfl | old
        · exact lt_succ_self _
        · exact lt_succ_of_lt (slots.older frame old)
      · rw [live_pushFrame state inRange, Multiset.nodup_cons]
        exact ⟨fun old => absurd (slots.older _ old) (lt_irrefl _), slots.distinct⟩
    case gates =>
      exact gates.move (idle_admits capacity state thread) ⟨by rw [pushFrame_pc, idle],
        fun i _ => pushFrame_pc thread i, rfl, rfl, rfl, rfl, rfl, rfl, rfl⟩
    case redirection =>
      refine ⟨?_, ?_, ?_⟩
      · intro i slot atScan
        have late := notLate i
        rw [← pushFrame_pc thread, atScan] at late
        cases late
      · intro i atClear
        have late := notLate i
        rw [← pushFrame_pc thread, atClear] at late
        cases late
      · intro cleared
        change state.redirect = false at cleared
        rw [cleared] at redirected
        cases redirected
    case ledger =>
      refine ⟨?_, ledger.untouched, ?_⟩
      · have usage := ledger.usage
        rw [uncounted] at usage
        change state.usage =
          ((state.generic + if state.counted then _ else 0 : ℕ) : ℤ).bmod (2 ^ 32)
        rw [uncounted]
        exact usage
      · intro frames closed
        change state.atClose = some frames at closed
        rw [notClosed] at closed
        cases closed
    case phase =>
      exact phase.of_open notClosed rfl rfl rfl unseeded

theorem Handover.startAbandon (handover : state.Handover capacity)
    (stepped : state.startAbandon capacity thread = some next) : next.Handover capacity := by
  rw [FastLifetime.startAbandon] at stepped
  split at stepped
  case isFalse => cases stepped
  case isTrue guard =>
    cases stepped
    rcases guard with ⟨inRange, idle, occupied⟩
    exact handover.goto_undecided inRange idle rfl rfl occupied rfl rfl

section Leave

variable (pc : AbandonPc) {other : AbandonPc} {thread seen : ℕ}

theorem dropFrame_removeActive :
    (state.removeActive thread seen other).dropFrame thread =
      (state.removeActive thread seen pc).dropFrame thread := by
  simp [dropFrame, removeActive, setThread]

theorem activeSum_removeActive :
    (state.removeActive thread seen other).activeSum capacity =
      (state.removeActive thread seen pc).activeSum capacity := by
  refine sum_congr rfl fun i _ => ?_
  by_cases same : i = thread
  · simp [removeActive, setThread, same]
  · rw [removeActive_other same, removeActive_other same]

theorem releaseFrame_removeActive :
    (((state.removeActive thread seen other).clearDisabled capacity).releaseFrame thread).dropFrame
        thread =
      (((state.removeActive thread seen pc).clearDisabled capacity).releaseFrame thread).dropFrame
        thread := by
  rw [clearDisabled, clearDisabled, activeSum_removeActive pc]
  simp [dropFrame, releaseFrame, addUsage, removeActive, setThread]

end Leave

theorem Handover.leave (handover : state.Handover capacity)
    (stepped : state.leave capacity thread = some next) : next.Handover capacity := by
  rw [FastLifetime.leave] at stepped
  split at stepped
  case isFalse => cases stepped
  case isTrue guard =>
    rcases guard with ⟨inRange, idle, occupied, _⟩
    split at stepped
    case isTrue closing =>
      split at stepped
      case isTrue seeded =>
        cases stepped
        -- the thread passes through the accesses of an abandoned frame without interruption
        have removed : (state.removeActive thread (state.threads thread).active
            .decrement).Handover capacity := by
          refine handover.removeActive inRange ?_ ?_ rfl occupied
            ⟨fun _ => occupied, nofun, fun _ => seeded, fun _ => rfl, nofun, nofun⟩
            (fun _ => seeded)
          · rw [idle]
            rfl
          · rw [idle]
            rfl
        have position : ((state.removeActive thread (state.threads thread).active
            .decrement).threads thread).pc = .decrement := removeActive_self _ _ _
        rw [releaseFrame_removeActive .decrement]
        exact (removed.clearDisabled seeded).releaseFrame inRange position rfl rfl seeded
      case isFalse => cases stepped
    case isFalse notClosing =>
      cases stepped
      have notClosed : state.atClose = none := by
        by_contra closed
        exact notClosing (handover.gates.closed closed).1
      have removed : ({ state with lifetimeAbandoners := state.lifetimeAbandoners + 1 }.removeActive
          thread (state.threads thread).active .unregister).Handover capacity := by
        refine handover.removeActive inRange ?_ ?_ rfl occupied
          ⟨fun _ => occupied, nofun, nofun, ?_, nofun, nofun⟩ ?_
        · rw [idle]
          rfl
        · rw [idle]
          rfl
        · exact fun closed => absurd notClosed closed
        · exact fun closed => absurd notClosed closed
      have dropped := removed.dropFrame inRange state.lifetimeAbandoners
        (by rw [removeActive_self]; rfl) (by rw [removeActive_self]; rfl) notClosed
      rw [dropFrame_removeActive .unregister]
      exact dropped

theorem clampTotal_eq {total : ℕ} (small : (clampTotal total : ℤ) ≤ 2 ^ 31 - 1) :
    clampTotal total = total := by
  by_cases fits : total ≤ 2 ^ 32 - 1
  · exact if_pos fits
  · rw [clampTotal, if_neg fits] at small
    omega

section

variable (handover : state.Handover capacity)

include handover

theorem Handover.prepareGoto {here pc : PreparePc}
    (position : state.prepare = here)
    (counted : pc.seeded = here.seeded ∨ (state.live capacity).card = 0)
    (phase : (state.prepareGoto pc).Phase capacity) :
    (state.prepareGoto pc).Handover capacity := by
  rcases handover with ⟨slots, gates, redirection, ledger, _⟩
  refine ⟨{ slots with }, { gates with }, { redirection with }, { ledger with usage := ?_ }, phase⟩
  have usage := ledger.usage
  change state.usage = ((state.generic + if state.releaseRequired || pc.seeded then
    (state.live capacity).card else 0 : ℕ) : ℤ).bmod (2 ^ 32)
  rw [FastLifetime.counted, position] at usage
  rcases counted with same | none
  · rw [same]
    exact usage
  · simp only [none, ite_self] at usage ⊢
    exact usage

theorem Handover.prepareReturn {here : PreparePc}
    (position : state.prepare = here) (unseeded : here.seeded = false) {result : Bool}
    (succeeded : result → state.releaseRequired) :
    (state.prepareReturn result).Handover capacity := by
  have idle : (state.prepareGoto .idle).Handover capacity :=
    handover.prepareGoto position (.inl unseeded.symm) trivial
  rcases idle with ⟨slots, gates, redirection, ledger, _⟩
  refine ⟨{ slots with }, { gates with succeeded := ?_ }, { redirection with }, { ledger with },
    trivial⟩
  intro returned
  rcases List.mem_cons.mp returned with now | earlier
  · exact succeeded now.symm
  · exact gates.succeeded earlier

theorem Handover.disable : { state with enabled := false }.Handover capacity := by
  rcases handover with ⟨slots, gates, redirection, ledger, phase⟩
  refine ⟨{ slots with }, { gates with closed := ?_ }, { redirection with }, { ledger with }, ?_⟩
  · intro closed
    exact ⟨(gates.closed closed).1, rfl, (gates.closed closed).2.2⟩
  · rw [Phase] at phase ⊢
    cases position : state.prepare with
    | close => rfl
    | awaitAbandoners =>
      simp only [position] at phase
      exact ⟨rfl, phase.2⟩
    | _ =>
      simp only [position] at phase
      exact phase

theorem Handover.close (disabled : state.enabled = false)
    (position : state.prepare = .close) :
    { state with lifetimeClosing := true, prepare := .awaitAbandoners }.Handover capacity := by
  have moved : (state.prepareGoto .idle).Handover capacity :=
    handover.prepareGoto position (.inl rfl) trivial
  rcases moved with ⟨slots, gates, redirection, ledger, _⟩
  exact ⟨{ slots with }, { gates with closed := fun closed => ⟨rfl, (gates.closed closed).2⟩ },
    { redirection with }, { ledger with }, disabled, rfl⟩

theorem Handover.seal
    (position : state.prepare = .awaitAbandoners) (disabled : state.enabled = false)
    (closing : state.lifetimeClosing) (none : state.lifetimeAbandoners = 0) :
    { state with
      atClose := state.atClose <|> some (state.live capacity)
      prepare := .sum 0 0 }.Handover capacity := by
  have moved : (state.prepareGoto .idle).Handover capacity :=
    handover.prepareGoto position (.inl rfl) trivial
  rcases moved with ⟨slots, gates, redirection, ledger, _⟩
  have decided : ∀ i < capacity, (state.threads i).pc.beforeSeed = false := by
    intro i inRange
    by_contra early
    have registered := handover.slots.registered_le inRange
    rw [none, AbandonPc.registered_of_beforeSeed (Bool.eq_true_of_not_eq_false early)] at registered
    cases registered
  have closed : (state.atClose <|> some (state.live capacity)) ≠ Option.none := by
    cases state.atClose <;> simp
  refine ⟨{ slots with },
    { gates with closed := fun _ => ⟨closing, disabled, decided⟩, seeded := fun _ => closed },
    { redirection with }, { ledger with balanced := ?_ }, closed, zero_le _, fun _ => rfl⟩
  intro frames recorded
  cases earlier : state.atClose with
  | none =>
    simp only [earlier, orElse_eq_orElse, orElse_none, some.injEq] at recorded
    subst recorded
    refine ⟨slots.distinct, ?_⟩
    have untouched := ledger.untouched (handover.not_counted earlier).1
    change state.released = 0 at untouched
    change state.released + state.live capacity = _
    rw [untouched, zero_add]
  | some =>
    simp only [earlier, orElse_eq_orElse, orElse_some, some.injEq] at recorded
    exact ledger.balanced frames (earlier.trans (congrArg some recorded))

theorem Handover.seed {active : ℕ}
    (position : state.prepare = .seed active) :
    ((state.addUsage active).prepareGoto (.publish active)).Handover capacity := by
  have phase := handover.phase
  simp only [Phase, position] at phase
  rcases phase with ⟨closed, unseeded, isSum⟩
  have isCard : active = (state.live capacity).card :=
    isSum.trans (handover.activeSum_eq_card closed unseeded)
  rcases handover with ⟨slots, gates, redirection, ledger, _⟩
  refine ⟨{ slots with }, { gates with }, { redirection with }, { ledger with usage := ?_ }, closed,
    unseeded, isSum⟩
  have usage := ledger.usage
  rw [counted, unseeded, position] at usage
  change (state.usage + active).bmod (2 ^ 32) = ((state.generic +
    if state.releaseRequired || true then (state.live capacity).card else 0 : ℕ) : ℤ).bmod (2 ^ 32)
  rw [usage, Int.bmod_add_bmod, Bool.or_true, if_pos rfl, isCard]
  congr 1

theorem Handover.publish {active : ℕ}
    (position : state.prepare = .publish active) {pc : PreparePc}
    (phase : ({ state with releaseRequired := true }.prepareGoto pc).Phase capacity) :
    ({ state with releaseRequired := true }.prepareGoto pc).Handover capacity := by
  have before := handover.phase
  simp only [Phase, position] at before
  rcases before with ⟨closed, unseeded, _⟩
  rcases handover with ⟨slots, gates, redirection, ledger, _⟩
  refine ⟨{ slots with }, ⟨fun _ _ => rfl, gates.closed, fun _ => closed, fun _ => rfl⟩,
    { redirection with cleared := fun cleared => ⟨rfl, (redirection.cleared cleared).2⟩ },
    { ledger with usage := ?_, untouched := fun unseeded => by cases unseeded }, phase⟩
  have usage := ledger.usage
  rw [counted, position, PreparePc.seeded, Bool.or_true] at usage
  exact usage

theorem Handover.prepareFastDetach : (state.prepareFastDetach capacity).Handover capacity := by
  have phase := handover.phase
  rw [Phase] at phase
  rw [FastLifetime.prepareFastDetach]
  cases position : state.prepare with
  | idle => exact handover.prepareGoto position (.inl rfl) trivial
  | readRedirect =>
    simp only
    split
    case isTrue => exact handover.prepareGoto position (.inl rfl) trivial
    case isFalse cleared =>
      refine handover.prepareReturn position rfl fun _ => ?_
      exact (handover.redirection.cleared (Bool.eq_false_of_not_eq_true cleared)).1
  | disable => exact handover.disable.prepareGoto position (.inl rfl) rfl
  | close =>
    simp only [position] at phase
    exact handover.close phase position
  | awaitAbandoners =>
    simp only [position] at phase ⊢
    split
    case isTrue none => exact handover.seal position phase.1 phase.2 none
    case isFalse => exact handover
  | sum slot =>
    simp only [position] at phase ⊢
    rcases phase with ⟨closed, within, summed⟩
    split
    case isTrue more =>
      refine handover.prepareGoto position (.inl rfl) ⟨closed, more, fun unseeded => ?_⟩
      change _ = ∑ i ∈ range (slot + 1), (state.threads i).active
      rw [sum_range_succ, ← summed unseeded]
    case isFalse done =>
      refine handover.prepareGoto position (.inl rfl) ⟨closed, fun unseeded => ?_⟩
      rw [summed unseeded, le_antisymm within (Nat.le_of_not_lt done)]
      rfl
  | readUsage =>
    simp only [position] at phase
    exact handover.prepareGoto position (.inl rfl) phase
  | loadRelease active =>
    simp only [position] at phase ⊢
    rcases phase with ⟨closed, isClamped⟩
    split
    case isTrue seeded => exact handover.prepareReturn position rfl fun _ => seeded
    case isFalse notSeeded =>
      have unseeded := Bool.eq_false_of_not_eq_true notSeeded
      split
      case isTrue room =>
        have isSum : active = state.activeSum capacity := by
          rw [isClamped unseeded]
          refine clampTotal_eq ?_
          rw [← isClamped unseeded]
          omega
        split
        case isTrue empty =>
          refine handover.prepareGoto position (.inr ?_) ⟨closed, unseeded, isSum⟩
          rw [← handover.activeSum_eq_card closed unseeded, ← isSum, empty]
        case isFalse => exact handover.prepareGoto position (.inl rfl) ⟨closed, unseeded, isSum⟩
      case isFalse => exact handover.prepareReturn position rfl fun failed => by cases failed
  | seed => exact handover.seed position
  | publish =>
    simp only [position] at phase ⊢
    split
    case isTrue empty =>
      exact handover.publish position ⟨rfl, phase.2.2.symm.trans empty⟩
    case isFalse =>
      have published : ({ state with releaseRequired := true }.prepareGoto .idle).Handover
          capacity := handover.publish position trivial
      exact published.prepareReturn rfl rfl fun _ => rfl
  | clear =>
    simp only [position] at phase
    exact (handover.clearRedirect phase.1 phase.2).prepareReturn position rfl fun _ => phase.1

end

theorem handover_enableFastListener : enableFastListener.Handover capacity := by
  have nothing : enableFastListener.live capacity = 0 := by
    simp [live, enableFastListener]
  refine ⟨⟨fun i => ?_, ?_, ?_, ?_⟩, ?_, ?_, ⟨?_, fun _ => rfl, ?_⟩, trivial⟩
  · constructor <;> simp [enableFastListener, AbandonPc.removed]
  · simp [enableFastListener, AbandonPc.registered]
  · rw [nothing]
    exact fun frame frameMem => absurd frameMem (Multiset.notMem_zero frame)
  · rw [nothing]
    exact Multiset.nodup_zero
  · constructor <;> simp [enableFastListener, AbandonPc.afterSeed]
  · constructor <;> simp [enableFastListener]
  · rw [nothing, Multiset.card_zero, ite_self]
    simp [enableFastListener]
  · simp [enableFastListener]

theorem Handover.addGeneric (handover : state.Handover capacity) {amount : ℤ} {generic : ℕ}
    (sum : (generic : ℤ) = state.generic + amount) :
    { state.addUsage amount with generic := generic }.Handover capacity := by
  rcases handover with ⟨slots, gates, redirection, ledger, phase⟩
  refine ⟨{ slots with }, { gates with }, { redirection with }, { ledger with usage := ?_ }, phase⟩
  change (state.usage + amount).bmod (2 ^ 32) = ((generic +
    if state.counted then (state.live capacity).card else 0 : ℕ) : ℤ).bmod (2 ^ 32)
  rw [ledger.usage, Int.bmod_add_bmod]
  congr 1
  omega

theorem Handover.step (handover : state.Handover capacity) {event : Event}
    (stepped : state.step capacity event = some next) : next.Handover capacity := by
  cases event with
  | enter => exact handover.enter stepped
  | leave => exact handover.leave stepped
  | startAbandon => exact handover.startAbandon stepped
  | abandon => exact handover.abandon stepped
  | prepareFastDetach =>
    cases stepped
    exact handover.prepareFastDetach
  | beginGeneric =>
    cases stepped
    exact handover.addGeneric (by simp)
  | endGeneric =>
    rw [FastLifetime.step] at stepped
    split at stepped
    case isTrue positive =>
      cases stepped
      exact handover.addGeneric (by omega)
    case isFalse => cases stepped
  | invalidate =>
    cases stepped
    exact handover.disable
  | destroy =>
    cases stepped
    rcases handover with ⟨slots, gates, redirection, ledger, phase⟩
    exact ⟨{ slots with }, { gates with }, { redirection with }, { ledger with }, phase⟩

theorem handover_run {history : List Event}
    (run : history.foldlM (step capacity) enableFastListener = some state) :
    state.Handover capacity :=
  (Runs.of_foldlM run).preserves handover_enableFastListener
    fun handover stepped => handover.step stepped

/-- Two threads call the function. One abandons its frame, then the hook is detached, and then the
other returns. -/
def detachedHistory : List Event :=
  [.enter 0, .enter 1, .startAbandon 1] ++ List.replicate 6 (.abandon 1) ++ [.beginGeneric] ++
    List.replicate 13 .prepareFastDetach ++ [.leave 0]

end Peak.FastLifetime
