import Mathlib.Data.Nat.Notation
import Mathlib.Logic.Function.Basic

/-!
# Maps with a node for every digit of the key

A key has one index for every level. A node of the last level has the values, where `0` stands for
no value, and every other node refers to the nodes below it. Nodes are created on the way to a value
and are never removed.
-/

namespace Peak.RadixMap

open Function

/-- A subtree; leaves have level 0. -/
inductive Node : ℕ → Type where
  | absent {level : ℕ} : Node level
  | leaf (values : ℕ → ℕ) : Node 0
  | inner {level : ℕ} (children : ℕ → Node level) : Node (level + 1)

variable {Key : Type} (index : ℕ → Key → ℕ)

/-- The value in the leaf of the key, if there is one. -/
def slot (key : Key) : (level : ℕ) → Node level → Option ℕ
  | _, .absent => none
  | 0, .leaf values => some (values (index 0 key))
  | level + 1, .inner children => slot key level (children (index (level + 1) key))

/-- The place of a key is created. A node may not be available, in which case those above it
are kept. -/
def reach (available : ℕ → Bool) (key : Key) : (level : ℕ) → Node level → Node level × Bool
  | 0, .leaf values => (.leaf values, true)
  | 0, .absent => if available 0 then (.leaf fun _ => 0, true) else (.absent, false)
  | level + 1, .inner children =>
    let result := reach available key level (children (index (level + 1) key))
    (.inner (update children (index (level + 1) key) result.1), result.2)
  | level + 1, .absent =>
    if available (level + 1) then
      let result := reach available key level .absent
      (.inner (update (fun _ => .absent) (index (level + 1) key) result.1), result.2)
    else
      (.absent, false)

def store (new : ℕ) (key : Key) : (level : ℕ) → Node level → Node level
  | _, .absent => .absent
  | 0, .leaf values => .leaf (update values (index 0 key) new)
  | level + 1, .inner children =>
    .inner (update children (index (level + 1) key)
      (store new key level (children (index (level + 1) key))))

def value {level : ℕ} (node : Node level) (key : Key) : ℕ :=
  (slot index key level node).getD 0

/-- The keys have the same path. -/
def Agree (level : ℕ) (first second : Key) : Prop :=
  ∀ lower ≤ level, index lower first = index lower second

variable {index} {available : ℕ → Bool} {key other first second : Key} {level : ℕ}

theorem agree_zero : Agree index 0 first second ↔ index 0 first = index 0 second := by
  constructor
  · intro agree
    exact agree 0 (Nat.le_refl 0)
  · intro same lower le
    rw [Nat.le_zero.mp le, same]

theorem agree_succ : Agree index (level + 1) first second ↔
    index (level + 1) first = index (level + 1) second ∧ Agree index level first second := by
  constructor
  · intro agree
    exact ⟨agree _ (Nat.le_refl _), fun lower below => agree lower (Nat.le_succ_of_le below)⟩
  · rintro ⟨top, below⟩ lower le
    rcases Nat.le_succ_iff.mp le with smaller | rfl
    · exact below lower smaller
    · exact top

@[simp]
theorem value_absent (key : Key) : value index (.absent : Node level) key = 0 := by
  cases level <;> rfl

theorem value_inner (children : ℕ → Node level) (key : Key) :
    value index (.inner children) key = value index (children (index (level + 1) key)) key :=
  rfl

theorem value_update (children : ℕ → Node level) (place : ℕ) (child : Node level) :
    value index (.inner (update children place child)) key =
      if index (level + 1) key = place then value index child key
      else value index (.inner children) key := by
  rw [value_inner, value_inner]
  split
  next same => rw [same, update_self]
  next different => rw [update_of_ne different]

theorem value_reach (node : Node level) (key other : Key) :
    value index (reach index available key level node).1 other = value index node other := by
  induction level with
  | zero =>
    cases node with
    | leaf => rfl
    | absent =>
      rw [reach]
      split <;> rfl
  | succ _ below =>
    cases node with
    | inner =>
      simp only [reach, value_update, below]
      split
      next same => rw [value_inner, same]
      next => rfl
    | absent =>
      rw [reach]
      split
      · simp only [value_update, below]
        simp [value_inner]
      · rfl

theorem slot_reach (all : ∀ level, available level) (node : Node level) (key : Key) :
    (reach index available key level node).2 ∧
      slot index key level (reach index available key level node).1 =
        some (value index node key) := by
  induction level with
  | zero =>
    cases node with
    | leaf => exact ⟨rfl, rfl⟩
    | absent =>
      rw [reach, if_pos (all 0)]
      exact ⟨rfl, rfl⟩
  | succ _ below =>
    cases node with
    | inner =>
      simp only [reach, slot, update_self]
      exact below _
    | absent =>
      simp only [reach, all, if_true, slot]
      simpa using below .absent

theorem value_store {old : ℕ} (new : ℕ) (node : Node level)
    (isPlace : slot index key level node = some old) (other : Key)
    [∀ lower, Decidable (Agree index lower other key)] :
    value index (store index new key level node) other =
      if Agree index level other key then new else value index node other := by
  induction level with
  | zero =>
    cases node with
    | leaf =>
      simp only [agree_zero, store, value, slot, Option.getD_some, update_apply]
    | absent => cases isPlace
  | succ level below =>
    cases node with
    | inner =>
      simp only [store, value_update, below _ isPlace, agree_succ]
      by_cases same : index (level + 1) other = index (level + 1) key
      · rw [value_inner, same]
        simp
      · simp [same]
    | absent => cases isPlace

end Peak.RadixMap
