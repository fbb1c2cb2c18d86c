import Mathlib.Data.Rat.Floor

/-!
# The sleep between two heartbeats

The heartbeat sleeps for its base time divided by `1 + hb_k_err * err + hb_k_rate * rate`, where the
rate is the smoothed growth of the overhead. A falling overhead makes the sleep longer, but only
until the denominator is negative: then the quotient is clipped to the shortest sleep.
-/

namespace Peak.Heartbeat

structure PacingArgs where
  heartbeatTime : ℕ
  hbMinUs : ℕ
  hbMaxUs : ℕ
  hbKErr : ℚ
  hbKRate : ℚ
  hbEmaA : ℚ
  globalTargetRatio : ℚ
  heartbeatTime_pos : 0 < heartbeatTime
  hbMinUs_pos : 0 < hbMinUs
  hbMinUs_le : hbMinUs ≤ hbMaxUs
  hbKErr_nonneg : 0 ≤ hbKErr
  hbKRate_nonneg : 0 ≤ hbKRate
  hbEmaA_nonneg : 0 ≤ hbEmaA
  hbEmaA_le : hbEmaA ≤ 1
  globalTargetRatio_pos : 0 < globalTargetRatio

structure Pace where
  prevGlobalOverhead : ℚ
  prevGlobalTime : ℚ
  emaGlobalRate : ℚ

structure OverheadSample where
  now : ℚ
  overhead : ℚ

def clipd (x lo hi : ℚ) : ℚ :=
  if x < lo then lo else if x > hi then hi else x

variable (args : PacingArgs) (pace : Pace) (sample : OverheadSample)

def gdt (now : ℚ) : ℚ :=
  if now - pace.prevGlobalTime ≤ 1 / 10 ^ 12 then 1 / 10 ^ 12 else now - pace.prevGlobalTime

def emaGlobalRate : ℚ :=
  args.hbEmaA * ((sample.overhead - pace.prevGlobalOverhead) / gdt pace sample.now) +
    (1 - args.hbEmaA) * pace.emaGlobalRate

def err (overhead : ℚ) : ℚ :=
  let err := if 0 < args.globalTargetRatio then overhead / args.globalTargetRatio - 1 else 0
  if err < 0 then 0 else err

def denominator : ℚ :=
  1 + args.hbKErr * err args sample.overhead + args.hbKRate * emaGlobalRate args pace sample

/-- The sleep for a denominator. The quotient by zero is infinite and clipped to the longest
sleep. -/
def roundedSleep (denominator : ℚ) : ℤ :=
  ⌊(if denominator = 0 then (args.hbMaxUs : ℚ)
    else clipd (args.heartbeatTime * (1 / denominator)) args.hbMinUs args.hbMaxUs) + 1 / 2⌋

def sleepUs : ℤ :=
  roundedSleep args (denominator args pace sample)

def beat : Pace :=
  ⟨sample.overhead, sample.now, emaGlobalRate args pace sample⟩

/-- What is kept after a history of samples, where the heartbeat starts at `now0`. -/
def paceAfter (now0 : ℚ) (history : List OverheadSample) : Pace :=
  history.foldl (beat args) ⟨0, now0, 0⟩

/-- Every sleep is in the configured range, and a larger last sample never makes it longer. -/
structure Paced (now : ℚ) : Prop where
  inRange : ∀ overhead, 0 ≤ overhead →
    (args.hbMinUs : ℤ) ≤ sleepUs args pace ⟨now, overhead⟩ ∧
      sleepUs args pace ⟨now, overhead⟩ ≤ args.hbMaxUs
  antitone : ∀ smaller larger, 0 ≤ smaller → smaller ≤ larger →
    sleepUs args pace ⟨now, larger⟩ ≤ sleepUs args pace ⟨now, smaller⟩

variable {args pace}

theorem floor_add_half (count : ℕ) : ⌊(count : ℚ) + 1 / 2⌋ = count := by
  rw [Int.floor_eq_iff]
  constructor <;> push_cast <;> linarith

theorem clipd_mem {lo hi : ℚ} (ordered : lo ≤ hi) (x : ℚ) :
    lo ≤ clipd x lo hi ∧ clipd x lo hi ≤ hi := by
  unfold clipd
  grind

theorem clipd_mono {x y lo hi : ℚ} (ordered : lo ≤ hi) (below : x ≤ y) :
    clipd x lo hi ≤ clipd y lo hi := by
  unfold clipd
  grind

theorem min_le_max (args : PacingArgs) : (args.hbMinUs : ℚ) ≤ args.hbMaxUs :=
  Nat.cast_le.mpr args.hbMinUs_le

theorem roundedSleep_mem (args : PacingArgs) (denominator : ℚ) :
    (args.hbMinUs : ℤ) ≤ roundedSleep args denominator ∧
      roundedSleep args denominator ≤ args.hbMaxUs := by
  rw [← floor_add_half args.hbMinUs, ← floor_add_half args.hbMaxUs]
  unfold roundedSleep
  split
  · exact ⟨Int.floor_mono (by linarith [min_le_max args]), le_rfl⟩
  · rcases clipd_mem (min_le_max args) (args.heartbeatTime * (1 / denominator)) with
      ⟨_, _⟩
    exact ⟨Int.floor_mono (by linarith), Int.floor_mono (by linarith)⟩

theorem roundedSleep_zero : roundedSleep args 0 = args.hbMaxUs := by
  exact floor_add_half _

theorem roundedSleep_of_neg {denominator : ℚ} (negative : denominator < 0) :
    roundedSleep args denominator = args.hbMinUs := by
  have quotient : args.heartbeatTime * (1 / denominator) ≤ 0 :=
    mul_nonpos_of_nonneg_of_nonpos (Nat.cast_nonneg _) (one_div_neg.mpr negative).le
  have shortest : (0 : ℚ) < args.hbMinUs := Nat.cast_pos.mpr args.hbMinUs_pos
  rw [roundedSleep, if_neg negative.ne, clipd, if_pos (quotient.trans_lt shortest)]
  exact floor_add_half _

theorem roundedSleep_antitone {smaller larger : ℚ} (nonneg : 0 ≤ smaller)
    (below : smaller ≤ larger) : roundedSleep args larger ≤ roundedSleep args smaller := by
  rcases nonneg.eq_or_lt with rfl | positive
  · rw [roundedSleep_zero]
    exact (roundedSleep_mem args larger).2
  · rw [roundedSleep, if_neg (positive.trans_le below).ne', roundedSleep, if_neg positive.ne']
    have quotient : args.heartbeatTime * (1 / larger) ≤ args.heartbeatTime * (1 / smaller) :=
      mul_le_mul_of_nonneg_left (one_div_le_one_div_of_le positive below) (Nat.cast_nonneg _)
    exact Int.floor_mono (by linarith [clipd_mono (min_le_max args) quotient])

theorem gdt_pos (now : ℚ) : 0 < gdt pace now := by
  unfold gdt
  split <;> linarith

theorem err_eq {overhead : ℚ} :
    err args overhead = max (overhead / args.globalTargetRatio - 1) 0 := by
  simp only [err, if_pos args.globalTargetRatio_pos]
  grind

/-- The growth of the denominator with the overhead, apart from the error. -/
def slope (args : PacingArgs) (pace : Pace) (now : ℚ) : ℚ :=
  args.hbKRate * args.hbEmaA / gdt pace now

theorem slope_nonneg (args : PacingArgs) (pace : Pace) (now : ℚ) : 0 ≤ slope args pace now :=
  div_nonneg (mul_nonneg args.hbKRate_nonneg args.hbEmaA_nonneg) (gdt_pos now).le

theorem denominator_eq (now overhead : ℚ) :
    denominator args pace ⟨now, overhead⟩ =
      1 + args.hbKRate * emaGlobalRate args pace ⟨now, 0⟩ + slope args pace now * overhead +
        args.hbKErr * max (overhead / args.globalTargetRatio - 1) 0 := by
  rw [denominator, err_eq, emaGlobalRate, emaGlobalRate, slope]
  ring

theorem denominator_mono {now smaller larger : ℚ} (below : smaller ≤ larger) :
    denominator args pace ⟨now, smaller⟩ ≤ denominator args pace ⟨now, larger⟩ := by
  have error : max (smaller / args.globalTargetRatio - 1) 0 ≤
      max (larger / args.globalTargetRatio - 1) 0 :=
    max_le_max_right 0 (sub_le_sub_right
      (div_le_div_of_nonneg_right below args.globalTargetRatio_pos.le) 1)
  rw [denominator_eq, denominator_eq]
  linarith [mul_le_mul_of_nonneg_left error args.hbKErr_nonneg,
    mul_le_mul_of_nonneg_left below (slope_nonneg args pace now)]

theorem denominator_zero (now : ℚ) : denominator args pace ⟨now, 0⟩ =
    1 + args.hbKRate * emaGlobalRate args pace ⟨now, 0⟩ := by
  simp [denominator_eq]

theorem exists_denominator_zero {now : ℚ} (negative : denominator args pace ⟨now, 0⟩ < 0)
    (steep : 0 < slope args pace now) :
    ∃ overhead, 0 ≤ overhead ∧ denominator args pace ⟨now, overhead⟩ = 0 := by
  rw [denominator_zero] at negative
  have target := args.globalTargetRatio_pos
  generalize atZero : 1 + args.hbKRate * emaGlobalRate args pace ⟨now, 0⟩ = least at negative
  -- the error is zero up to the target and grows from there
  by_cases early : 0 ≤ least + slope args pace now * args.globalTargetRatio
  · refine ⟨-least / slope args pace now, div_nonneg (by linarith) steep.le, ?_⟩
    have small : -least / slope args pace now / args.globalTargetRatio ≤ 1 := by
      rw [div_div, div_le_one (by positivity)]
      linarith
    rw [denominator_eq, atZero, max_eq_right (by linarith)]
    field_simp
    ring
  · have growth : 0 < slope args pace now * args.globalTargetRatio + args.hbKErr :=
      add_pos_of_pos_of_nonneg (mul_pos steep target) args.hbKErr_nonneg
    refine ⟨args.globalTargetRatio * ((args.hbKErr - least) /
      (slope args pace now * args.globalTargetRatio + args.hbKErr)), ?_, ?_⟩
    · exact mul_nonneg target.le (div_nonneg (by linarith [args.hbKErr_nonneg]) growth.le)
    · have large : 1 ≤ (args.hbKErr - least) /
          (slope args pace now * args.globalTargetRatio + args.hbKErr) := by
        rw [one_le_div growth]
        linarith
      rw [denominator_eq, atZero, mul_div_cancel_left₀ _ target.ne', max_eq_left (by linarith)]
      field_simp
      ring

theorem foldl_beat_emaGlobalRate (unweighted : args.hbEmaA = 0) (history : List OverheadSample)
    (pace : Pace) : (history.foldl (beat args) pace).emaGlobalRate = pace.emaGlobalRate := by
  induction history generalizing pace with
  | nil => rfl
  | cons _ _ ih => simp [ih, beat, emaGlobalRate, unweighted]

/-- After any history the sleep is paced as intended iff there is only one sleep or the smoothed
rate for a vanished overhead leaves the denominator non-negative. -/
theorem paced_iff (args : PacingArgs) (now0 : ℚ) (history : List OverheadSample) (now : ℚ) :
    Paced args (paceAfter args now0 history) now ↔
      args.hbMinUs = args.hbMaxUs ∨
        -1 ≤ args.hbKRate * emaGlobalRate args (paceAfter args now0 history) ⟨now, 0⟩ := by
  have flat : args.hbEmaA = 0 → (paceAfter args now0 history).emaGlobalRate = 0 :=
    fun unweighted => foldl_beat_emaGlobalRate unweighted history _
  generalize paceAfter args now0 history = pace at *
  constructor
  · intro paced
    by_contra! unequal
    have negative : denominator args pace ⟨now, 0⟩ < 0 := by
      rw [denominator_zero]
      linarith
    have rate : args.hbKRate ≠ 0 := by
      intro zero
      simp [zero] at unequal
      linarith
    have weighted : args.hbEmaA ≠ 0 := by
      intro zero
      simp [emaGlobalRate, zero, flat zero] at unequal
      linarith
    have steep : 0 < slope args pace now :=
      div_pos (mul_pos (args.hbKRate_nonneg.lt_of_ne' rate) (args.hbEmaA_nonneg.lt_of_ne' weighted))
        (gdt_pos now)
    rcases exists_denominator_zero negative steep with ⟨overhead, nonneg, zero⟩
    have longer := paced.antitone 0 overhead le_rfl nonneg
    rw [sleepUs, sleepUs, zero, roundedSleep_zero, roundedSleep_of_neg negative] at longer
    have shorter := args.hbMinUs_le
    omega
  · intro condition
    refine ⟨fun overhead _ => roundedSleep_mem args _, ?_⟩
    intro smaller larger nonneg below
    rcases condition with equal | bounded
    · have below := (roundedSleep_mem args (denominator args pace ⟨now, larger⟩)).2
      have above := (roundedSleep_mem args (denominator args pace ⟨now, smaller⟩)).1
      rw [sleepUs, sleepUs]
      omega
    · apply roundedSleep_antitone _ (denominator_mono below)
      calc 0 ≤ denominator args pace ⟨now, 0⟩ := by
            rw [denominator_zero]
            linarith
        _ ≤ denominator args pace ⟨now, smaller⟩ := denominator_mono nonneg

/-- A base time of one second and a target of one, where only the last rate counts. -/
def exampleArgs : PacingArgs where
  heartbeatTime := 1000000
  hbMinUs := 1000
  hbMaxUs := 2000000
  hbKErr := 1
  hbKRate := 1
  hbEmaA := 1
  globalTargetRatio := 1
  heartbeatTime_pos := by decide
  hbMinUs_pos := by decide
  hbMinUs_le := by decide
  hbKErr_nonneg := by decide
  hbKRate_nonneg := by decide
  hbEmaA_nonneg := by decide
  hbEmaA_le := by decide
  globalTargetRatio_pos := by decide

/-- An overhead of two vanishes within a second. The heartbeat sleeps for the shortest time, instead
of half a second for the same overhead. -/
theorem falling_overhead_sleeps_shortest :
    sleepUs exampleArgs (paceAfter exampleArgs 0 [⟨1, 2⟩]) ⟨2, 0⟩ = 1000 ∧
    sleepUs exampleArgs (paceAfter exampleArgs 0 [⟨1, 2⟩]) ⟨2, 2⟩ = 500000 := by
  decide +kernel

end Peak.Heartbeat
