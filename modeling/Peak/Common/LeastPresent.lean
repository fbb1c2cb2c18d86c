import Mathlib.Order.Bounds.Basic
import Mathlib.Order.MinMax
import Mathlib.Data.List.Perm.Basic

/-!
# Extreme values over the members of a reduction

A reduction over members some of which carry no value keeps a default until the first
value arrives, and the least value afterwards.
-/

namespace Peak

open List

universe u v

variable {α : Type u} {β : Type v} [LinearOrder β]

/-- `least` is the least value of a present member, or `default` if none is present. -/
structure LeastPresent (present : α → Prop) (value : α → β) (default : β) (members : List α)
    (least : β) : Prop where
  isLeast : (∃ member ∈ members, present member) →
    IsLeast {found | ∃ member ∈ members, present member ∧ value member = found} least
  eq_default : (∀ member ∈ members, ¬ present member) → least = default

namespace LeastPresent

variable {present : α → Prop} {value : α → β} {default least : β} {members : List α}

theorem singleton (member : α) : LeastPresent present value (value member) [member]
    (value member) where
  isLeast := by
    rintro ⟨found, foundMem, isPresent⟩
    rw [mem_singleton] at foundMem
    subst foundMem
    refine ⟨⟨found, by simp, isPresent, rfl⟩, ?_⟩
    rintro other ⟨_, otherMem, _, rfl⟩
    rw [mem_singleton.mp otherMem]
  eq_default := fun _ => rfl

section

variable (holds : LeastPresent present value default members least)

include holds

theorem replace {member : α}
    (isPresent : present member)
    (improves : (∀ other ∈ members, ¬ present other) ∨ value member < least) :
    LeastPresent present value default (members ++ [member]) (value member) where
  isLeast := by
    intro _
    refine ⟨⟨member, by simp, isPresent, rfl⟩, ?_⟩
    rintro found ⟨other, otherMem, otherPresent, rfl⟩
    rcases mem_append.mp otherMem with before | last
    · rcases improves with absent | smaller
      · exact absurd otherPresent (absent other before)
      · have lower := (holds.isLeast ⟨other, before, otherPresent⟩).2
        exact smaller.le.trans (lower ⟨other, before, otherPresent, rfl⟩)
    · rw [mem_singleton.mp last]
  eq_default := fun absent => absurd isPresent (absent member (by simp))

theorem keep {member : α}
    (kept : present member → (∃ other ∈ members, present other) ∧ least ≤ value member) :
    LeastPresent present value default (members ++ [member]) least where
  isLeast := by
    rintro ⟨found, foundMem, foundPresent⟩
    have earlier : ∃ other ∈ members, present other := by
      rcases mem_append.mp foundMem with before | last
      · exact ⟨found, before, foundPresent⟩
      · rw [mem_singleton] at last
        subst last
        exact (kept foundPresent).1
    rcases holds.isLeast earlier with ⟨⟨least, leastMem, leastPresent, valueEq⟩, lower⟩
    refine ⟨⟨least, mem_append_left _ leastMem, leastPresent, valueEq⟩, ?_⟩
    rintro _ ⟨other, otherMem, otherPresent, rfl⟩
    rcases mem_append.mp otherMem with before | last
    · exact lower ⟨other, before, otherPresent, rfl⟩
    · rw [mem_singleton] at last
      subst last
      exact (kept otherPresent).2
  eq_default := by
    intro absent
    apply holds.eq_default
    intro other otherMem
    exact absent other (mem_append_left _ otherMem)

theorem perm {others : List α}
    (isPerm : members.Perm others) : LeastPresent present value default others least := by
  constructor
  · simpa only [isPerm.mem_iff] using holds.isLeast
  · simpa only [isPerm.mem_iff] using holds.eq_default

theorem unique {other : β}
    (also : LeastPresent present value default members other) : least = other := by
  by_cases absent : ∀ member ∈ members, ¬ present member
  · rw [holds.eq_default absent, also.eq_default absent]
  · push Not at absent
    exact (holds.isLeast absent).unique (also.isLeast absent)

end

theorem of_map {γ : Type*} {field : γ → α} {origins : List γ}
    (holds : LeastPresent present value default (origins.map field) least) :
    LeastPresent (fun origin => present (field origin)) (fun origin => value (field origin))
      default origins least := by
  refine ⟨?_, ?_⟩
  · intro found
    simpa using holds.isLeast (by simpa using found)
  · intro absent
    exact holds.eq_default (by simpa using absent)

/-- Members without a value are given the greatest possible value, and some of them the least one by
mistake. -/
theorem eq_least_iff {known : α → Prop} {bottom top fallback other : β} {first : α}
    {others : List α} (proper : bottom < top)
    (range : ∀ member ∈ first :: others, bottom ≤ value member ∧ value member ≤ top)
    (absentTop : ∀ member ∈ first :: others, known member → ¬ present member → value member = top)
    (unknownBottom : ∀ member ∈ first :: others, ¬ known member →
      value member = bottom ∧ ¬ present member)
    (holds : LeastPresent present value (value first) (first :: others) least)
    (all : LeastPresent (fun _ => True) value fallback (first :: others) other) :
    least = other ↔
      ((∀ member ∈ first :: others, known member) ∨
        (∀ member ∈ first :: others, ¬ present member) ∧ ¬ known first) ∨
      ∃ member ∈ first :: others, present member ∧ value member = bottom := by
  have firstMem : first ∈ first :: others := mem_cons_self
  rcases all.isLeast ⟨first, firstMem, trivial⟩ with ⟨⟨reached, reachedMem, _, rfl⟩, lower⟩
  have lowest : ∀ member ∈ first :: others, value reached ≤ value member :=
    fun member memberMem => lower ⟨member, memberMem, trivial, rfl⟩
  by_cases allKnown : ∀ member ∈ first :: others, known member
  · refine iff_of_true ?_ (.inl (.inl allKnown))
    by_cases absent : ∀ member ∈ first :: others, ¬ present member
    · rw [holds.eq_default absent, absentTop first firstMem (allKnown first firstMem)
        (absent first firstMem), absentTop reached reachedMem (allKnown reached reachedMem)
        (absent reached reachedMem)]
    · push Not at absent
      rcases holds.isLeast absent with ⟨⟨found, foundMem, _, rfl⟩, lowerPresent⟩
      refine le_antisymm ?_ (lowest found foundMem)
      by_cases reachedPresent : present reached
      · exact lowerPresent ⟨reached, reachedMem, reachedPresent, rfl⟩
      · rw [absentTop reached reachedMem (allKnown reached reachedMem) reachedPresent]
        exact (range found foundMem).2
  · have reachedBottom : value reached = bottom := by
      push Not at allKnown
      rcases allKnown with ⟨unknown, unknownMem, notKnown⟩
      apply le_antisymm _ (range reached reachedMem).1
      rw [← (unknownBottom unknown unknownMem notKnown).1]
      exact lowest unknown unknownMem
    rw [reachedBottom]
    constructor
    · intro leastBottom
      by_cases absent : ∀ member ∈ first :: others, ¬ present member
      · refine .inl (.inr ⟨absent, ?_⟩)
        intro firstKnown
        have firstTop := absentTop first firstMem firstKnown (absent first firstMem)
        rw [holds.eq_default absent, firstTop] at leastBottom
        exact absurd leastBottom.symm proper.ne
      · push Not at absent
        rcases (holds.isLeast absent).1 with ⟨found, foundMem, foundPresent, valueEq⟩
        exact .inr ⟨found, foundMem, foundPresent, valueEq.trans leastBottom⟩
    · rintro ((known | ⟨absent, firstUnknown⟩) | ⟨found, foundMem, foundPresent, valueEq⟩)
      · exact absurd known allKnown
      · rw [holds.eq_default absent]
        exact (unknownBottom first firstMem firstUnknown).1
      · rcases holds.isLeast ⟨found, foundMem, foundPresent⟩ with
          ⟨⟨taken, takenMem, _, rfl⟩, lowerPresent⟩
        apply le_antisymm _ (range taken takenMem).1
        rw [← valueEq]
        exact lowerPresent ⟨found, foundMem, foundPresent, rfl⟩

end LeastPresent

theorem isGreatest_singleton_member (value : α → β) (member : α) :
    IsGreatest {found | ∃ other ∈ [member], value other = found} (value member) := by
  refine ⟨⟨member, by simp, rfl⟩, ?_⟩
  rintro _ ⟨other, otherMem, rfl⟩
  rw [mem_singleton.mp otherMem]

theorem isGreatest_append_member {value : α → β} {members : List α} {greatest : β}
    (holds : IsGreatest {found | ∃ other ∈ members, value other = found} greatest)
    (member : α) :
    IsGreatest {found | ∃ other ∈ members ++ [member], value other = found}
      (max greatest (value member)) := by
  have sets : {found | ∃ other ∈ members ++ [member], value other = found} =
      {found | ∃ other ∈ members, value other = found} ∪ {value member} := by
    ext found
    simp [or_comm, eq_comm]
  rw [sets]
  exact holds.union isGreatest_singleton

theorem min?_append {xs ys : List β} {left right : β} (isLeft : xs.min? = some left)
    (isRight : ys.min? = some right) : (xs ++ ys).min? = some (min left right) := by
  rw [min?_eq_some_iff] at isLeft isRight ⊢
  refine ⟨?_, ?_⟩
  · rcases min_choice left right with isMin | isMin
    · rw [isMin]
      exact mem_append_left _ isLeft.1
    · rw [isMin]
      exact mem_append_right _ isRight.1
  · intro value valueMem
    rcases mem_append.mp valueMem with before | after
    · exact (min_le_left _ _).trans (isLeft.2 value before)
    · exact (min_le_right _ _).trans (isRight.2 value after)

theorem max?_append {xs ys : List β} {left right : β} (isLeft : xs.max? = some left)
    (isRight : ys.max? = some right) : (xs ++ ys).max? = some (max left right) :=
  @min?_append βᵒᵈ _ _ _ _ _ isLeft isRight

theorem min?_perm {values others : List β} (perm : values.Perm others) :
    values.min? = others.min? := by
  cases least : values.min? with
  | none =>
    rw [min?_eq_none_iff] at least
    rw [least] at perm
    rw [← perm.nil_eq, min?_nil]
  | some =>
    rw [min?_eq_some_iff] at least
    refine (min?_eq_some_iff.mpr ⟨perm.mem_iff.mp least.1, ?_⟩).symm
    exact fun value valueMem => least.2 value (perm.mem_iff.mpr valueMem)

theorem max?_perm {values others : List β} (perm : values.Perm others) :
    values.max? = others.max? :=
  @min?_perm βᵒᵈ _ _ _ perm

end Peak
