import Mathlib.Data.Nat.Notation

/-!
# The cookies of stop signals

A stop signal carries a word that `src/signal_policy.c` computes from a base, the epoch of the stop
and the thread, and the handler computes it once more to recognise the signal. As `0` stands for a
missing base, the one pair of an epoch and a thread whose cookie is `0` is not recognised.
-/

namespace Peak.StopCookie

open BitVec

/-- What `init_cookie_once` reads. `random` is the word that `getrandom` has filled. -/
structure CookieSeed where
  random : Option (BitVec 64)
  address : BitVec 64
  pid : BitVec 32
  time : BitVec 64

def initCookieOnce (seed : CookieSeed) : BitVec 64 :=
  let word := seed.random.getD
    (seed.address ^^^ (seed.pid.signExtend 64 <<< 17) ^^^ seed.time ^^^ 0x9e3779b97f4a7c15#64)
  if word = 0#64 then 0x6a09e667f3bcc909#64 else word

/-- The part of a cookie that does not depend on the base. -/
def cookieMask (epoch tid : BitVec 32) : BitVec 64 :=
  (epoch.setWidth 64 <<< 32) ^^^ (tid.setWidth 64 * 0x45d9f3b#64)

def cookieFromBase (base : BitVec 64) (epoch tid : BitVec 32) : BitVec 64 :=
  base ^^^ cookieMask epoch tid

def cookieForPreinitialized (cookieBase : BitVec 64) (epoch tid : BitVec 32) : BitVec 64 :=
  if cookieBase = 0#64 then 0#64 else cookieFromBase cookieBase epoch tid

structure SignalInfo where
  isQueued : Bool
  pid : ℕ
  uid : ℕ
  value : BitVec 64

/-- The packet of `send_thread_signal`. -/
def threadSignal (pid uid : ℕ) (cookie : BitVec 64) : SignalInfo :=
  ⟨true, pid, uid, cookie⟩

def cookieMatchesAsync (cookieBase : BitVec 64) (pid uid : ℕ) (info : Option SignalInfo)
    (epoch tid : BitVec 32) : Bool :=
  match info with
  | none => false
  | some info =>
    if info.isQueued = false ∨ info.pid ≠ pid ∨ info.uid ≠ uid then
      false
    else
      let cookie := cookieForPreinitialized cookieBase epoch tid
      if cookie = 0#64 then false else info.value == cookie

theorem initCookieOnce_ne_zero (seed : CookieSeed) : initCookieOnce seed ≠ 0#64 := by
  intro isZero
  simp only [initCookieOnce] at isZero
  split at isZero
  · simp at isZero
  · contradiction

variable {epoch tid epoch' tid' : BitVec 32}

/-- The factor is invertible modulo `2 ^ 32`, so that the low half of a mask gives the thread back,
and the high half the epoch. -/
theorem cookieMask_injective (same : cookieMask epoch tid = cookieMask epoch' tid') :
    epoch = epoch' ∧ tid = tid' := by
  have low (epoch tid : BitVec 32) :
      (cookieMask epoch tid).setWidth 32 * 0x119de1f3#32 = tid := by
    have gone : (epoch.setWidth 64 <<< 32).setWidth 32 = 0#32 := by
      apply eq_of_toNat_eq
      simp
    rw [cookieMask, setWidth_xor, gone, setWidth_mul _ _ (by decide)]
    simp [BitVec.mul_assoc]
  have sameTid : tid = tid' := by
    rw [← low epoch tid, same, low]
  subst sameTid
  have shifted : epoch.setWidth 64 <<< 32 = epoch'.setWidth 64 <<< 32 := by
    simpa [cookieMask] using same
  refine ⟨?_, rfl⟩
  have values := congrArg BitVec.toNat shifted
  apply eq_of_toNat_eq
  simp at values
  omega

/-- A packet is recognised for its own epoch and thread only, and always except for the pair
whose mask is the base. -/
theorem cookie_matches_iff (base : BitVec 64) (nonzero : base ≠ 0#64)
    (epoch tid epoch' tid' : BitVec 32) (pid uid : ℕ) :
    cookieMatchesAsync base pid uid
        (some (threadSignal pid uid (cookieForPreinitialized base epoch tid))) epoch' tid' = true ↔
      (epoch = epoch' ∧ tid = tid') ∧ base ≠ cookieMask epoch tid := by
  have recognised : cookieMatchesAsync base pid uid
        (some (threadSignal pid uid (cookieForPreinitialized base epoch tid))) epoch' tid' = true ↔
      ¬ base ^^^ cookieMask epoch' tid' = 0#64 ∧
        base ^^^ cookieMask epoch tid = base ^^^ cookieMask epoch' tid' := by
    simp [cookieMatchesAsync, threadSignal, cookieForPreinitialized, nonzero, cookieFromBase]
  rw [recognised, xor_eq_zero_iff, xor_right_inj]
  constructor
  · rintro ⟨different, same⟩
    refine ⟨cookieMask_injective same, ?_⟩
    rwa [same]
  · rintro ⟨⟨rfl, rfl⟩, different⟩
    exact ⟨different, rfl⟩

theorem cookie_matches_own : cookieMatchesAsync (initCookieOnce ⟨none, 64, 7, 0⟩) 7 0
    (some (threadSignal 7 0 (cookieForPreinitialized (initCookieOnce ⟨none, 64, 7, 0⟩) 2 3)))
    2 3 = true :=
  (cookie_matches_iff _ (initCookieOnce_ne_zero _) 2 3 2 3 7 0).mpr ⟨⟨rfl, rfl⟩, by decide⟩

/-- The base with which thread `1` does not recognise the packet sent to it in epoch `1`. -/
theorem cookie_zero_refused : initCookieOnce ⟨some 0x1045d9f3b, 0, 0, 0⟩ = 0x1045d9f3b ∧
    cookieMatchesAsync 0x1045d9f3b 7 0
      (some (threadSignal 7 0 (cookieForPreinitialized 0x1045d9f3b 1 1))) 1 1 = false := by
  decide

end Peak.StopCookie
