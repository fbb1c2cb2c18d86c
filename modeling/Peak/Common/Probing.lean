import Mathlib.Data.Nat.Notation
import Mathlib.Logic.Function.Basic

/-!
# Tables with open addressing

A key is stored in the first place of its own order which is empty or has the key already, and is
looked for up to the first empty place. Nothing is ever removed.
-/

namespace Peak.Probing

open Function

variable {Key : Type} [DecidableEq Key] (empty : Key)

/-- The place of a key. -/
def find (table : ℕ → Key) (key : Key) : List ℕ → Option ℕ
  | [] => none
  | place :: places =>
    if table place = key then some place
    else if table place = empty then none
    else find table key places

/-- The place where a key is to be stored. -/
def claim (table : ℕ → Key) (key : Key) : List ℕ → Option ℕ
  | [] => none
  | place :: places =>
    if table place = key then some place
    else if table place = empty then some place
    else claim table key places

variable {empty} {table : ℕ → Key} {key other : Key} {places : List ℕ} {place found : ℕ}

theorem eq_of_find (isFound : find empty table key places = some found) :
    found ∈ places ∧ table found = key := by
  induction places with
  | nil => cases isFound
  | cons _ _ ih =>
    rw [find] at isFound
    split at isFound
    next here =>
      cases isFound
      exact ⟨List.mem_cons_self, here⟩
    next =>
      split at isFound
      · cases isFound
      · exact ⟨List.mem_cons_of_mem _ (ih isFound).1, (ih isFound).2⟩

theorem eq_of_claim (isFound : claim empty table key places = some found) :
    found ∈ places ∧ (table found = key ∨ table found = empty) := by
  induction places with
  | nil => cases isFound
  | cons _ _ ih =>
    rw [claim] at isFound
    split at isFound
    next here =>
      cases isFound
      exact ⟨List.mem_cons_self, .inl here⟩
    next =>
      split at isFound
      next free =>
        cases isFound
        exact ⟨List.mem_cons_self, .inr free⟩
      · exact ⟨List.mem_cons_of_mem _ (ih isFound).1, (ih isFound).2⟩

theorem full_of_claim (isFull : claim empty table key places = none) :
    ∀ place ∈ places, table place ≠ key ∧ table place ≠ empty := by
  induction places with
  | nil => intro place isPlace; cases isPlace
  | cons _ _ ih =>
    rw [claim] at isFull
    split at isFull
    · cases isFull
    next different =>
      split at isFull
      · cases isFull
      next taken => exact List.forall_mem_cons.mpr ⟨⟨different, taken⟩, ih isFull⟩

theorem find_update_of_claim (isFound : claim empty table key places = some found) :
    find empty (update table found key) key places = some found := by
  induction places with
  | nil => cases isFound
  | cons place _ ih =>
    rw [claim] at isFound
    by_cases here : place = found
    · subst here
      simp [find]
    · split at isFound
      · exact absurd (Option.some.inj isFound) here
      next different =>
        split at isFound
        · exact absurd (Option.some.inj isFound) here
        next taken =>
          rw [find, update_of_ne here, if_neg different, if_neg taken]
          exact ih isFound

theorem find_update (free : table place = empty) (present : key ≠ empty)
    (isFound : find empty table key places = some found) :
    find empty (update table place other) key places = some found := by
  induction places with
  | nil => cases isFound
  | cons first _ ih =>
    rw [find] at isFound ⊢
    by_cases changed : first = place
    · subst changed
      rw [if_neg (fun same => present (same.symm.trans free)), if_pos free] at isFound
      cases isFound
    · rw [update_of_ne changed]
      split at isFound
      next here =>
        rw [if_pos here]
        exact isFound
      next different =>
        rw [if_neg different]
        split at isFound
        · cases isFound
        next taken =>
          rw [if_neg taken]
          exact ih isFound

end Peak.Probing
