import Mathlib.Algebra.Order.Floor.Div
import Mathlib.Order.Interval.Finset.Nat
import Mathlib.Order.Interval.Set.Defs

/-!
# Timeouts of the gather and the admission of its peers

The timeouts of a report depend on the number of ranks. The peers connect to the root in waves of
the same spacing. The arithmetic of `src/general_listener/runtime_config.c` and
`src/general_listener/socket_report_transport.c` is checked: a sum, product or difference which
wraps has no value.
-/

namespace Peak.Socket

open Finset Nat

def intMax : ℕ := 2 ^ 31 - 1

def uintMax : ℕ := 2 ^ 32 - 1

/-- A value computed with `width` bits. -/
def fits (width value : ℕ) : Option ℕ :=
  if value < 2 ^ width then some value else none

/-- A difference of unsigned values. -/
def minus (left right : ℕ) : Option ℕ :=
  if right ≤ left then some (left - right) else none

def gatherActiveMax : ℕ := 128

def gatherWaveBudgetMs : ℕ := 5000

def gatherAdaptiveMarginMaxMs : ℕ := 300000

def phaseTimeoutMsDefault : ℕ := 60000

def mpiReportReleaseTimeoutMsDefault : ℕ := 180000

def postGatherPhaseCount : ℕ := 2

def mpiReleaseMarginPhaseCount : ℕ := 2

def fdReserve : ℕ := 32

/-- The variables of the environment which are set to an accepted value. -/
structure TimeoutSettings where
  outputAggregationTimeoutMs : Option (Set.Icc 1 intMax)
  outputAggregationReleaseTimeoutMs : Option (Set.Icc 1 intMax)
  mpiReportReleaseTimeoutMs : Option (Set.Icc 1 uintMax)

def TimeoutSettings.phase (settings : TimeoutSettings) : ℕ :=
  settings.outputAggregationTimeoutMs.elim phaseTimeoutMsDefault (·.1)

/-- `PeakReportTimeoutBudget`. -/
structure TimeoutBudget where
  socketPhaseTimeoutMs : ℕ
  socketGatherWaveBudgetMs : ℕ
  socketGatherHardTimeoutMs : ℕ
  socketReleaseTimeoutMs : ℕ
  mpiReportReleaseTimeoutMs : ℕ
  socketGatherTimeoutWasScaled : Bool
  socketReleaseWasRaised : Bool
  socketCombinedReleaseMinimumMs : ℕ
deriving DecidableEq

def multiplySaturated (value multiplier maximum : ℕ) : Option ℕ :=
  if maximum / multiplier < value then some maximum else fits 32 (value * multiplier)

/-- The source limits a sum to `UINT_MAX`, and the hard timeout to `INT_MAX`. -/
def addSaturated (left right maximum : ℕ) : Option ℕ := do
  if (← minus maximum right) < left then return maximum
  fits 32 (left + right)

def peerCount (rankCount : ℕ) : Option ℕ :=
  if 0 < rankCount then minus rankCount 1 else some 0

def waveCount (width peers activeLimit : ℕ) : Option ℕ :=
  fits width (peers / activeLimit + if peers % activeLimit ≠ 0 then 1 else 0)

/-- `peak_general_listener_report_timeout_budget_for_rank_count`. -/
def reportTimeoutBudgetForRankCount (settings : TimeoutSettings) (rankCount : ℕ) :
    Option TimeoutBudget := do
  let waves ← waveCount 32 (← peerCount rankCount) gatherActiveMax
  let margin ← multiplySaturated waves gatherWaveBudgetMs gatherAdaptiveMarginMaxMs
  let hard ← addSaturated settings.phase margin intMax
  let phases ← multiplySaturated settings.phase postGatherPhaseCount intMax
  let sum ← addSaturated hard phases uintMax
  let minimum := if intMax < sum then intMax else sum
  let configured := settings.outputAggregationReleaseTimeoutMs.elim minimum (·.1)
  let release := if configured < minimum then minimum else configured
  let margin ← multiplySaturated settings.phase mpiReleaseMarginPhaseCount uintMax
  let combined ← addSaturated release margin uintMax
  return {
    socketPhaseTimeoutMs := settings.phase
    socketGatherWaveBudgetMs := gatherWaveBudgetMs
    socketGatherHardTimeoutMs := hard
    socketReleaseTimeoutMs := release
    mpiReportReleaseTimeoutMs :=
      settings.mpiReportReleaseTimeoutMs.elim mpiReportReleaseTimeoutMsDefault (·.1)
    socketGatherTimeoutWasScaled := settings.phase < hard
    socketReleaseWasRaised := configured < minimum
    socketCombinedReleaseMinimumMs := combined }

/-- `peak_socket_reduce_gather_active_limit`, for the limit of open files if there is one. -/
def gatherActiveLimit (peers : ℕ) (descriptorLimit : Option ℕ) : ℕ :=
  let activeLimit := if peers < gatherActiveMax then peers else gatherActiveMax
  let activeLimit := match descriptorLimit with
    | none => activeLimit
    | some current =>
      if current ≤ fdReserve + 1 then 1
      else if current - (fdReserve + 1) < activeLimit then current - (fdReserve + 1)
      else activeLimit
  if 0 < activeLimit then activeLimit else 1

def admissionSpacingMs (rankCount activeLimit waveBudget phase hard : ℕ) : Option ℕ := do
  let peers ← peerCount rankCount
  if peers = 0 ∨ activeLimit = 0 ∨ waveBudget = 0 ∨ phase ≤ 1 ∨ hard ≤ phase then return 0
  let waves ← waveCount 64 peers activeLimit
  let hardMargin ← minus hard phase
  let third := (← minus phase 1) / 3
  let spacing := if third < waveBudget then third else waveBudget
  fits 32 (if hardMargin / waves < spacing then hardMargin / waves else spacing)

def admissionDelayMs (rank : ℤ) (activeLimit spacing : ℕ) : Option ℕ := do
  if rank ≤ 0 ∨ activeLimit = 0 ∨ spacing = 0 then return 0
  let delay ← fits 64 ((← minus rank.toNat 1) / activeLimit * spacing)
  return if intMax < delay then intMax else delay

def admissionJitterWindowMs (spacing phase : ℕ) : Option ℕ := do
  if spacing = 0 ∨ phase ≤ 1 then return 0
  if (← minus phase 1) ≤ spacing then return 0
  let jitter ← minus (← minus phase spacing) 1
  let jitter := if spacing < jitter then spacing else jitter
  return if 1000 < jitter then 1000 else jitter

def exactHard (phase rankCount : ℕ) : ℕ :=
  min (phase +
    min ((rankCount - 1) ⌈/⌉ gatherActiveMax * gatherWaveBudgetMs) gatherAdaptiveMarginMaxMs) intMax

def exactRelease (settings : TimeoutSettings) (rankCount : ℕ) : ℕ :=
  max (min (exactHard settings.phase rankCount + postGatherPhaseCount * settings.phase) intMax)
    (settings.outputAggregationReleaseTimeoutMs.elim 0 (·.1))

variable {settings : TimeoutSettings} {rankCount activeLimit spacing jitter phase hard : ℕ}

theorem fits_of_le {width value bound : ℕ} (le : value ≤ bound) (small : bound < 2 ^ width) :
    fits width value = some value :=
  if_pos (le.trans_lt small)

theorem minus_of_le {left right : ℕ} (le : right ≤ left) : minus left right = some (left - right) :=
  if_pos le

theorem multiplySaturated_eq {value multiplier maximum : ℕ} (pos : 0 < multiplier)
    (small : maximum < 2 ^ 32) :
    multiplySaturated value multiplier maximum = some (min (value * multiplier) maximum) := by
  have le_iff : value ≤ maximum / multiplier ↔ value * multiplier ≤ maximum :=
    le_div_iff_mul_le pos
  unfold multiplySaturated
  split_ifs with exceeds
  · rw [min_eq_right (by omega)]
  · rw [fits_of_le (le_iff.mp (not_lt.mp exceeds)) small, min_eq_left (by omega)]

theorem addSaturated_eq {left right maximum : ℕ} (le : right ≤ maximum) (small : maximum < 2 ^ 32) :
    addSaturated left right maximum = some (min (left + right) maximum) := by
  simp only [addSaturated, minus_of_le le, Option.bind_eq_bind, Option.bind_some]
  split_ifs with exceeds
  · simp
    omega
  · rw [fits_of_le (by omega) small, min_eq_left (by omega)]

theorem peerCount_eq : peerCount rankCount = some (rankCount - 1) := by
  unfold peerCount
  split_ifs with pos
  · exact minus_of_le pos
  · rw [Nat.eq_zero_of_not_pos pos]

theorem waveCount_eq {width peers : ℕ} (pos : 0 < activeLimit) (small : peers < 2 ^ width) :
    waveCount width peers activeLimit = some (peers ⌈/⌉ activeLimit) := by
  have exact : peers / activeLimit + (if peers % activeLimit ≠ 0 then 1 else 0) =
      peers ⌈/⌉ activeLimit := by
    refine eq_of_forall_ge_iff fun count => ?_
    rw [ceilDiv_le_iff_le_mul pos]
    split_ifs with rest
    · have differs : peers ≠ activeLimit * count := by
        rintro rfl
        exact rest (mul_mod_right _ _)
      rw [succ_le_iff, div_lt_iff_lt_mul pos, mul_comm]
      omega
    · obtain ⟨full, rfl⟩ := dvd_of_mod_eq_zero (not_not.mp rest)
      rw [Nat.mul_div_cancel_left _ pos, add_zero, Nat.mul_le_mul_left_iff pos]
  have le_peers : peers ⌈/⌉ activeLimit ≤ peers :=
    (ceilDiv_le_iff_le_mul pos).mpr (Nat.le_mul_of_pos_left peers pos)
  rw [waveCount, exact, fits_of_le le_peers small]

theorem phase_le_intMax : settings.phase ≤ intMax := by
  unfold TimeoutSettings.phase
  cases settings.outputAggregationTimeoutMs with
  | none => decide
  | some configured => exact configured.2.2

theorem exists_budget (settings : TimeoutSettings) (small : rankCount < 2 ^ 32) :
    ∃ budget, reportTimeoutBudgetForRankCount settings rankCount = some budget ∧
      budget.socketPhaseTimeoutMs = settings.phase ∧
      budget.socketGatherWaveBudgetMs = gatherWaveBudgetMs ∧
      budget.socketGatherHardTimeoutMs = exactHard settings.phase rankCount ∧
      budget.socketReleaseTimeoutMs = exactRelease settings rankCount ∧
      budget.mpiReportReleaseTimeoutMs =
        settings.mpiReportReleaseTimeoutMs.elim mpiReportReleaseTimeoutMsDefault (·.1) ∧
      budget.socketCombinedReleaseMinimumMs =
        min (exactRelease settings rankCount + mpiReleaseMarginPhaseCount * settings.phase)
          uintMax := by
  have waves : waveCount 32 (rankCount - 1) gatherActiveMax =
      some ((rankCount - 1) ⌈/⌉ gatherActiveMax) :=
    waveCount_eq (by decide) (by omega)
  have min_le {value bound limit : ℕ} (le : bound ≤ limit) : min value bound ≤ limit :=
    (min_le_right _ _).trans le
  simp (disch := first | decide | apply min_le; decide) only
    [reportTimeoutBudgetForRankCount, peerCount_eq, waves, multiplySaturated_eq, addSaturated_eq,
    Option.bind_eq_bind, Option.bind_some, ← min_def_lt, ← max_def_lt]
  refine ⟨_, rfl, rfl, rfl, rfl, ?release, rfl, ?combined⟩
  all_goals
    simp only [exactRelease, exactHard, postGatherPhaseCount, mpiReleaseMarginPhaseCount, intMax,
      uintMax]
    cases settings.outputAggregationReleaseTimeoutMs with
    | none =>
      dsimp only [Option.elim]
      omega
    | some configured =>
      dsimp only [Option.elim]
      omega

theorem exactHard_mono {moreCount : ℕ} (le : rankCount ≤ moreCount) :
    exactHard phase rankCount ≤ exactHard phase moreCount := by
  have waves_le : (rankCount - 1) ⌈/⌉ gatherActiveMax ≤ (moreCount - 1) ⌈/⌉ gatherActiveMax :=
    (gc_mul_ceilDiv (by decide)).monotone_l (Nat.sub_le_sub_right le 1)
  have margin_le := mul_le_mul_right gatherWaveBudgetMs waves_le
  unfold exactHard
  omega

theorem exactRelease_mono {moreCount : ℕ} (le : rankCount ≤ moreCount) :
    exactRelease settings rankCount ≤ exactRelease settings moreCount := by
  have hard_le : exactHard settings.phase rankCount ≤ exactHard settings.phase moreCount :=
    exactHard_mono le
  unfold exactRelease
  omega

theorem gatherActiveLimit_bounds (peers : ℕ) (descriptorLimit : Option ℕ) :
    0 < gatherActiveLimit peers descriptorLimit ∧
      gatherActiveLimit peers descriptorLimit ≤ gatherActiveMax := by
  unfold gatherActiveLimit gatherActiveMax
  rcases descriptorLimit with _ | current <;> grind

theorem exists_jitter (spacing phase : ℕ) :
    ∃ jitter, admissionJitterWindowMs spacing phase = some jitter ∧ jitter ≤ spacing := by
  unfold admissionJitterWindowMs
  split_ifs with degenerate
  · exact ⟨0, rfl, zero_le _⟩
  · rw [minus_of_le (by omega)]
    simp only [Option.bind_eq_bind, Option.bind_some]
    split_ifs with wide
    · exact ⟨0, rfl, zero_le _⟩
    · rw [minus_of_le (by omega), Option.bind_some, minus_of_le (by omega)]
      refine ⟨_, rfl, ?_⟩
      split_ifs <;> omega

section Waves

variable (pos : 0 < activeLimit)
include pos

theorem exists_spacing (small : rankCount < 2 ^ 32) (hard_le : hard ≤ intMax) (waveBudget : ℕ) :
    ∃ spacing, admissionSpacingMs rankCount activeLimit waveBudget phase hard = some spacing ∧
      spacing ≤ hard - phase ∧ (rankCount - 1) ⌈/⌉ activeLimit * spacing ≤ hard - phase := by
  simp only [admissionSpacingMs, peerCount_eq, Option.bind_eq_bind, Option.bind_some]
  split_ifs with degenerate
  · exact ⟨0, rfl, zero_le _, zero_le _⟩
  · rw [waveCount_eq pos (by omega), minus_of_le (by omega), minus_of_le (by omega)]
    simp only [← min_def_lt]
    have spacing_le := (min_le_left _ (min ((phase - 1) / 3) waveBudget)).trans
      (div_le_self (hard - phase) ((rankCount - 1) ⌈/⌉ activeLimit))
    refine ⟨_, fits_of_le (spacing_le.trans ((sub_le _ _).trans hard_le)) (by decide),
      spacing_le, ?_⟩
    exact (mul_le_mul_left _ (min_le_left _ _)).trans (mul_div_le _ _)

theorem admissionDelayMs_eq {rank : ℕ} (rank_lt : 0 < spacing → rank < 2 ^ 31)
    (delay_le : (rank - 1) / activeLimit * spacing ≤ intMax) :
    admissionDelayMs (Int.bmod rank (2 ^ 32)) activeLimit spacing =
      some ((rank - 1) / activeLimit * spacing) := by
  unfold admissionDelayMs
  rcases Nat.eq_zero_or_pos spacing with rfl | spaced
  · simp
  · rw [Int.bmod_eq_of_le (by omega) (by omega)]
    split_ifs with degenerate
    · have isRoot : rank = 0 := by omega
      simp [isRoot]
    · rw [Int.toNat_natCast, minus_of_le (by omega), Option.bind_eq_bind, Option.bind_some,
        fits_of_le delay_le (by decide), Option.bind_some, if_neg (not_lt.mpr delay_le)]
      rfl

theorem card_wave_le (rankCount wave : ℕ) :
    ((Finset.Ioo 0 rankCount).filter fun rank => (rank - 1) / activeLimit = wave).card ≤
      activeLimit := by
  have within : ((Finset.Ioo 0 rankCount).filter fun rank => (rank - 1) / activeLimit = wave) ⊆
      Finset.Ioc (activeLimit * wave) (activeLimit * wave + activeLimit) := by
    intro rank isMember
    simp only [mem_filter, mem_Ioo] at isMember
    have split := div_add_mod (rank - 1) activeLimit
    have rest_lt := mod_lt (rank - 1) pos
    rw [isMember.2] at split
    rw [mem_Ioc]
    omega
  simpa using card_le_card within

theorem rankCount_le (limit_le : activeLimit ≤ gatherActiveMax) (spaced : 0 < spacing)
    (fit : (rankCount - 1) ⌈/⌉ activeLimit * spacing ≤ gatherAdaptiveMarginMaxMs) :
    rankCount ≤ 2 ^ 31 := by
  have peers_le : rankCount - 1 ≤ activeLimit * ((rankCount - 1) ⌈/⌉ activeLimit) :=
    le_smul_ceilDiv pos
  have product_le := peers_le.trans
    (Nat.mul_le_mul limit_le ((Nat.le_mul_of_pos_right _ spaced).trans fit))
  unfold gatherActiveMax gatherAdaptiveMarginMaxMs at product_le
  omega

theorem delay_add_le {rank : ℕ} (rank_lt : rank < rankCount) (spacing_le : spacing ≤ hard)
    (fit : (rankCount - 1) ⌈/⌉ activeLimit * spacing ≤ hard) :
    (rank - 1) / activeLimit * spacing + spacing ≤ hard := by
  rcases Nat.eq_zero_or_pos rank with rfl | rank_pos
  · simpa using spacing_le
  · have index_lt : (rank - 1) / activeLimit < (rankCount - 1) ⌈/⌉ activeLimit := by
      rw [← not_le, ceilDiv_le_iff_le_mul pos]
      have := mul_div_le (rank - 1) activeLimit
      omega
    rw [← succ_mul]
    exact (mul_le_mul_right spacing index_lt).trans fit

end Waves

/-- The admission of the ranks, where `delay` is the delay of every rank. -/
structure Admission (phase hard rankCount activeLimit spacing jitter : ℕ) (delay : ℕ → ℕ) :
    Prop where
  delays : ∀ rank < rankCount,
    admissionDelayMs (Int.bmod rank (2 ^ 32)) activeLimit spacing = some (delay rank)
  inTime : ∀ rank < rankCount, delay rank + jitter + phase ≤ hard
  ordered : ∀ rank later, rank ≤ later → later < rankCount → delay rank ≤ delay later
  shared : 0 < spacing → ∀ time,
    ((Finset.Ioo 0 rankCount).filter fun rank => delay rank = time).card ≤ activeLimit
  apart : ∀ rank < rankCount, ∀ later < rankCount, delay rank < delay later →
    delay rank + jitter ≤ delay later

theorem admission (pos : 0 < activeLimit) (limit_le : activeLimit ≤ gatherActiveMax)
    (phase_le : phase ≤ hard) (margin_le : hard - phase ≤ gatherAdaptiveMarginMaxMs)
    (spacing_le : spacing ≤ hard - phase)
    (fit : (rankCount - 1) ⌈/⌉ activeLimit * spacing ≤ hard - phase)
    (jitter_le : jitter ≤ spacing) :
    Admission phase hard rankCount activeLimit spacing jitter
      fun rank => (rank - 1) / activeLimit * spacing := by
  refine ⟨fun rank rank_lt => ?_, fun rank rank_lt => ?_, fun rank later le _ => ?_,
    fun spaced time => ?_, fun rank _ later _ lt => ?_⟩
  · have delay_le := (delay_add_le pos rank_lt spacing_le fit).trans margin_le
    exact admissionDelayMs_eq pos
      (fun spaced => rank_lt.trans_le (rankCount_le pos limit_le spaced (fit.trans margin_le)))
      ((le_of_add_right_le delay_le).trans (by decide))
  · have := delay_add_le pos rank_lt spacing_le fit
    omega
  · exact mul_le_mul_right _ (Nat.div_le_div_right (Nat.sub_le_sub_right le 1))
  · refine (card_le_card ?_).trans (card_wave_le pos rankCount (time / spacing))
    refine monotone_filter_right _ fun rank _ isTime => ?_
    rw [← isTime, Nat.mul_div_cancel _ spaced]
  · have next := mul_le_mul_right spacing (Nat.lt_of_mul_lt_mul_right lt)
    rw [succ_mul] at next
    omega

/-- The timeouts exist for every number of ranks and grow with it, and they leave every rank
the time to be admitted. -/
theorem timeouts_admit_ranks (settings : TimeoutSettings) (descriptorLimit : Option ℕ)
    (rankCount : ℕ) (small : rankCount < 2 ^ 32) :
    ∃ budget, reportTimeoutBudgetForRankCount settings rankCount = some budget ∧
      budget.socketPhaseTimeoutMs ≤ budget.socketGatherHardTimeoutMs ∧
      budget.socketGatherHardTimeoutMs ≤ intMax ∧
      min (budget.socketGatherHardTimeoutMs + postGatherPhaseCount * budget.socketPhaseTimeoutMs)
        intMax ≤ budget.socketReleaseTimeoutMs ∧
      (∀ fewerCount ≤ rankCount, ∃ fewer,
        reportTimeoutBudgetForRankCount settings fewerCount = some fewer ∧
        fewer.socketPhaseTimeoutMs ≤ budget.socketPhaseTimeoutMs ∧
        fewer.socketGatherWaveBudgetMs ≤ budget.socketGatherWaveBudgetMs ∧
        fewer.socketGatherHardTimeoutMs ≤ budget.socketGatherHardTimeoutMs ∧
        fewer.socketReleaseTimeoutMs ≤ budget.socketReleaseTimeoutMs ∧
        fewer.mpiReportReleaseTimeoutMs ≤ budget.mpiReportReleaseTimeoutMs ∧
        fewer.socketCombinedReleaseMinimumMs ≤ budget.socketCombinedReleaseMinimumMs) ∧
      ∃ spacing jitter delay,
        admissionSpacingMs rankCount (gatherActiveLimit (rankCount - 1) descriptorLimit)
          budget.socketGatherWaveBudgetMs budget.socketPhaseTimeoutMs
          budget.socketGatherHardTimeoutMs = some spacing ∧
        admissionJitterWindowMs spacing budget.socketPhaseTimeoutMs = some jitter ∧
        Admission budget.socketPhaseTimeoutMs budget.socketGatherHardTimeoutMs rankCount
          (gatherActiveLimit (rankCount - 1) descriptorLimit) spacing jitter delay := by
  obtain ⟨pos, limit_le⟩ := gatherActiveLimit_bounds (rankCount - 1) descriptorLimit
  obtain ⟨budget, isBudget, phase, waveBudget, hard, release, mpiRelease, combined⟩ :=
    exists_budget settings small
  have phase_le : settings.phase ≤ exactHard settings.phase rankCount :=
    le_min (le_add_right _ _) phase_le_intMax
  have hard_le : exactHard settings.phase rankCount ≤ intMax := min_le_right _ _
  have margin_le : exactHard settings.phase rankCount - settings.phase ≤
      gatherAdaptiveMarginMaxMs := by
    unfold exactHard
    omega
  obtain ⟨spacing, isSpacing, spacing_le, fit⟩ :=
    exists_spacing pos small hard_le gatherWaveBudgetMs
  obtain ⟨jitter, isJitter, jitter_le⟩ := exists_jitter spacing settings.phase
  refine ⟨budget, isBudget, ?_⟩
  rw [phase, waveBudget, hard, release, mpiRelease, combined]
  refine ⟨phase_le, hard_le, le_max_left _ _, fun fewerCount le => ?_, spacing, jitter, _,
    isSpacing, isJitter, admission pos limit_le phase_le margin_le spacing_le fit jitter_le⟩
  obtain ⟨fewer, isFewer, fewerEqs⟩ := exists_budget settings (le.trans_lt small)
  simp only [isFewer, fewerEqs, Option.some.injEq, exists_eq_left', le_refl, true_and]
  have release_le : exactRelease settings fewerCount ≤ exactRelease settings rankCount :=
    exactRelease_mono le
  exact ⟨exactHard_mono le, release_le, by omega⟩

/-- The 299 peers of the root are admitted in three waves. -/
theorem timeouts_admit_three_waves :
    reportTimeoutBudgetForRankCount ⟨none, none, none⟩ 300 =
        some ⟨60000, 5000, 75000, 195000, 180000, true, false, 315000⟩ ∧
      ∃ delay, Admission 60000 75000 300 128 5000 1000 delay ∧
        [1, 128, 129, 256, 257, 299].map delay = [0, 0, 5000, 5000, 10000, 10000] := by
  constructor
  · decide
  · rcases timeouts_admit_ranks ⟨none, none, none⟩ none 300 (by decide) with
      ⟨_, ⟨⟩, _, _, _, _, spacing, jitter, delay, isSpacing, isJitter, admission⟩
    cases isSpacing
    cases isJitter
    have delays : [1, 128, 129, 256, 257, 299].map (fun rank => some (delay rank)) =
        [0, 0, 5000, 5000, 10000, 10000].map some := by
      rw [List.map_congr_left fun rank isRank => (admission.delays rank (by decide +revert)).symm]
      decide
    exact ⟨delay, admission, by simpa using delays⟩

end Peak.Socket
