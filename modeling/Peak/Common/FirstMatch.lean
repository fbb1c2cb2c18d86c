import Mathlib.Data.Nat.Notation

/-!
# First matches in a list

A list serves as a table that is searched for the first entry with a property. One
entry is replaced, and the search is repeated.
-/

namespace Peak

open List

universe u

namespace FirstMatch

variable {α : Type u} {test : α → Bool} {list : List α} {index : ℕ} {old new : α}

theorem find?_set_of_false (present : list[index]? = some old) (oldFalse : test old = false)
    (newFalse : test new = false) : (list.set index new).find? test = list.find? test := by
  induction list generalizing index with
  | nil => rfl
  | cons _ _ ih =>
    cases index with
    | zero =>
      cases present
      simp [oldFalse, newFalse]
    | succ =>
      have same := ih present
      simp [find?_cons, same]

theorem find?_modify_of_false {change : α → α} (present : list[index]? = some old)
    (oldFalse : test old = false) (newFalse : test (change old) = false) :
    (list.modify index change).find? test = list.find? test := by
  have inhabited : Inhabited α := ⟨old⟩
  rw [modify_eq_set, present]
  exact find?_set_of_false present oldFalse newFalse

theorem findIdx?_set_of_none (absent : list.findIdx? test = none) (bound : index < list.length)
    (newTrue : test new) : (list.set index new).findIdx? test = some index := by
  induction list generalizing index with
  | nil => cases bound
  | cons _ _ ih =>
    rw [findIdx?_cons] at absent
    split at absent
    · cases absent
    next firstFalse =>
      cases index with
      | zero => simp [findIdx?_cons, newTrue]
      | succ =>
        have found := ih (Option.map_eq_none_iff.mp absent) (Nat.lt_of_succ_lt_succ bound)
        simp [findIdx?_cons, firstFalse, found]

theorem find?_modify_of_found {change : α → α} (found : list.findIdx? test = some index)
    (keeps : ∀ entry, test (change entry) = test entry) :
    (list.modify index change).find? test = (list[index]?).map change := by
  induction list generalizing index with
  | nil => cases found
  | cons _ _ ih =>
    rw [findIdx?_cons] at found
    split at found
    next firstTrue =>
      cases found
      simp [keeps, firstTrue]
    next firstFalse =>
      rcases Option.map_eq_some_iff.mp found with ⟨later, laterFound, rfl⟩
      have same := ih laterFound
      simp [firstFalse, same]

def modifyFirst (test : α → Bool) (change : α → α) : List α → List α
  | [] => []
  | first :: rest =>
    if test first then change first :: rest else first :: modifyFirst test change rest

theorem modifyFirst_of_found (change : α → α) (found : list.find? test = some old) :
    ∃ before after, list = before ++ old :: after ∧ test old ∧
      modifyFirst test change list = before ++ change old :: after := by
  induction list with
  | nil => cases found
  | cons first rest ih =>
    rw [find?_cons] at found
    split at found
    next firstTrue =>
      cases found
      exact ⟨[], rest, rfl, firstTrue, by simp [modifyFirst, firstTrue]⟩
    next firstFalse =>
      rcases ih found with ⟨before, after, split, oldTrue, changed⟩
      refine ⟨first :: before, after, by simp [split], oldTrue, ?_⟩
      simp [modifyFirst, firstFalse, changed]

end FirstMatch

end Peak
