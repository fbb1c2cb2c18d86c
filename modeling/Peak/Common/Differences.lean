import Mathlib.Data.List.Perm.Basic

/-!
# Differences noticed by a reduction

A reduction compares every member with the conjunction of the members before it. A
difference is only noticed while some member up to this point is marked.
-/

namespace Peak

open List

universe u

variable {α : Type u} {value marked : α → Bool} {members : List α}

/-- The members do not share one value. -/
def Differ (value : α → Bool) (members : List α) : Prop :=
  (∃ member ∈ members, value member) ∧ ∃ member ∈ members, value member = false

/-- At some member there is a difference, and a member up to it is marked. -/
def Noticed (value marked : α → Bool) (members : List α) : Prop :=
  ∃ before member after, members = before ++ member :: after ∧ before ≠ [] ∧
    before.all value ≠ value member ∧ ∃ other ∈ before ++ [member], marked other = true

theorem noticed_concat (member : α) :
    Noticed value marked (members ++ [member]) ↔
      Noticed value marked members ∨
        members ≠ [] ∧ members.all value ≠ value member ∧
          ∃ other ∈ members ++ [member], marked other = true := by
  constructor
  · rintro ⟨before, found, after, split, nonempty, different, isMarked⟩
    rcases eq_nil_or_concat after with rfl | ⟨later, _, rfl⟩
    · rcases append_inj' split rfl with ⟨rfl, same⟩
      cases same
      exact .inr ⟨nonempty, different, isMarked⟩
    · rw [concat_eq_append, ← cons_append, ← append_assoc] at split
      rcases append_inj' split rfl with ⟨rfl, _⟩
      exact .inl ⟨before, found, later, rfl, nonempty, different, isMarked⟩
  · rintro (⟨before, found, after, rfl, rest⟩ | rest)
    · exact ⟨before, found, after ++ [member], by simp, rest⟩
    · exact ⟨members, member, [], rfl, rest⟩

theorem Noticed.differ (noticed : Noticed value marked members) : Differ value members := by
  rcases noticed with ⟨before, found, _, rfl, nonempty, different, _⟩
  rcases exists_mem_of_ne_nil _ nonempty with ⟨first, firstMem⟩
  cases found_value : value found with
  | false =>
    have all : before.all value := by
      rw [found_value] at different
      exact eq_true_of_ne_false different
    exact ⟨⟨first, by simp [firstMem], all_eq_true.mp all first firstMem⟩,
      found, by simp, found_value⟩
  | true =>
    have notAll : before.all value = false := by
      rw [found_value] at different
      exact eq_false_of_ne_true different
    rcases all_eq_false.mp notAll with ⟨other, otherMem, isFalse⟩
    exact ⟨⟨found, by simp, found_value⟩, other, by simp [otherMem], eq_false_of_ne_true isFalse⟩

theorem Noticed.exists_marked (noticed : Noticed value marked members) :
    ∃ member ∈ members, marked member := by
  rcases noticed with ⟨_, _, _, rfl, _, _, other, otherMem, isMarked⟩
  refine ⟨other, ?_, isMarked⟩
  rcases mem_append.mp otherMem with earlier | last
  · exact mem_append_left _ earlier
  · rw [mem_singleton.mp last]
    simp

theorem exists_first {wanted : Bool} (exists' : ∃ member ∈ members, value member = wanted) :
    ∃ before member after, members = before ++ member :: after ∧ value member = wanted ∧
      ∀ other ∈ before, value other ≠ wanted := by
  induction members with
  | nil => simp at exists'
  | cons head rest ih =>
    by_cases here : value head = wanted
    · exact ⟨[], head, rest, rfl, here, nofun⟩
    · have later : ∃ member ∈ rest, value member = wanted := by
        simpa [here] using exists'
      rcases ih later with ⟨before, member, after, rfl, found, earlier⟩
      refine ⟨head :: before, member, after, rfl, found, ?_⟩
      simpa [here] using earlier

theorem noticed_of_marked_true (differ : Differ value members) {member : α}
    (memberMem : member ∈ members) (isMarked : marked member)
    (isTrue : value member) : Noticed value marked members := by
  rcases append_of_mem memberMem with ⟨before, after, rfl⟩
  cases all : before.all value with
  | false =>
    have nonempty : before ≠ [] := by
      rintro rfl
      cases all
    exact ⟨before, member, after, rfl, nonempty, by simp [all, isTrue], member, by simp, isMarked⟩
  | true =>
    have falseAfter : ∃ other ∈ after, value other = false := by
      rcases differ.2 with ⟨other, otherMem, isFalse⟩
      rcases mem_append.mp otherMem with earlier | later
      · rw [all_eq_true.mp all other earlier] at isFalse
        cases isFalse
      · rcases mem_cons.mp later with rfl | later
        · rw [isTrue] at isFalse
          cases isFalse
        · exact ⟨other, later, isFalse⟩
    rcases exists_first falseAfter with ⟨between, other, rest, rfl, isFalse, allTrue⟩
    refine ⟨before ++ member :: between, other, rest, by simp, by simp, ?_,
      member, by simp, isMarked⟩
    have allBetween : between.all value :=
      all_eq_true.mpr fun one oneMem => eq_true_of_ne_false (allTrue one oneMem)
    rw [all_append, all, all_cons, isTrue, allBetween, isFalse]
    decide

theorem noticed_of_marked_iff (differ : Differ value members)
    (iff : ∀ member ∈ members, marked member ↔ value member = false) :
    Noticed value marked members := by
  cases members with
  | nil => simp [Differ] at differ
  | cons head rest =>
    cases head_value : value head with
    | true =>
      have later : ∃ other ∈ rest, value other = false := by
        simpa [head_value] using differ.2
      rcases exists_first later with ⟨between, other, after, rfl, isFalse, allTrue⟩
      refine ⟨head :: between, other, after, rfl, by simp, ?_, other, by simp, ?_⟩
      · have allBetween : between.all value :=
          all_eq_true.mpr fun one oneMem =>
            eq_true_of_ne_false (allTrue one oneMem)
        rw [all_cons, head_value, allBetween, isFalse]
        decide
      · exact (iff other (by simp)).mpr isFalse
    | false =>
      have later : ∃ other ∈ rest, value other := by
        simpa [head_value] using differ.1
      rcases exists_first later with ⟨between, other, after, rfl, isTrue, _⟩
      refine ⟨head :: between, other, after, rfl, by simp, ?_, head, by simp, ?_⟩
      · rw [all_cons, head_value, isTrue]
        simp
      · exact (iff head (by simp)).mpr head_value

/-- Members which differ without being marked, while no marked member has the value. -/
structure Overlooked (value marked : α → Bool) (members : List α) : Prop where
  markedFalse : ∀ member ∈ members, marked member → value member = false
  unmarkedTrue : ∃ member ∈ members, marked member = false ∧ value member
  unmarkedFalse : ∃ member ∈ members, marked member = false ∧ value member = false

theorem noticed_of_not_overlooked (differ : Differ value members)
    (notOverlooked : ¬Overlooked value marked members) : Noticed value marked members := by
  by_cases markedTrue : ∃ member ∈ members, marked member ∧ value member
  · rcases markedTrue with ⟨member, memberMem, isMarked, isTrue⟩
    exact noticed_of_marked_true differ memberMem isMarked isTrue
  · push Not at markedTrue
    have markedFalse : ∀ member ∈ members, marked member → value member = false :=
      fun member memberMem isMarked =>
        eq_false_of_ne_true (markedTrue member memberMem isMarked)
    refine noticed_of_marked_iff differ fun member memberMem =>
      ⟨markedFalse member memberMem, fun isFalse => ?_⟩
    by_contra unmarked
    rcases differ.1 with ⟨other, otherMem, isTrue⟩
    refine notOverlooked ⟨markedFalse, ⟨other, otherMem, ?_, isTrue⟩,
      ⟨member, memberMem, eq_false_of_ne_true unmarked, isFalse⟩⟩
    by_contra otherMarked
    exact markedTrue other otherMem (eq_true_of_ne_false otherMarked) isTrue

theorem Overlooked.not_noticed (overlooked : Overlooked value marked members) :
    ¬Noticed value marked (members.filter (!marked ·) ++ members.filter marked) := by
  rintro ⟨before, found, _, split, _, different, other, otherMem, isMarked⟩
  rcases overlooked.unmarkedFalse with ⟨hidden, hiddenMem, unmarked, isFalse⟩
  have hiddenFirst : hidden ∈ members.filter (!marked ·) := by
    simp [hiddenMem, unmarked]
  -- from the first marked member on, the conjunction and every value are false
  have noDifference : ∀ more, before = members.filter (!marked ·) ++ more →
      found ∈ members.filter marked → False := by
    rintro more rfl foundMem
    rcases mem_filter.mp foundMem with ⟨foundMem, foundMarked⟩
    rw [overlooked.markedFalse found foundMem foundMarked] at different
    refine different (all_eq_false.mpr ⟨hidden, mem_append_left _ hiddenFirst, ?_⟩)
    rw [isFalse]
    exact Bool.false_ne_true
  rcases append_eq_append_iff.mp split with ⟨more, isBefore, rest⟩ | ⟨more, isFirst, rest⟩
  · refine noDifference more isBefore ?_
    rw [rest]
    simp
  · cases more with
    | nil =>
      rw [append_nil] at isFirst
      rw [nil_append] at rest
      refine noDifference [] (by rw [append_nil, isFirst]) ?_
      rw [← rest]
      simp
    | cons =>
      cases rest
      have otherFirst : other ∈ members.filter (!marked ·) := by
        rw [isFirst]
        rcases mem_append.mp otherMem with earlier | last
        · exact mem_append_left _ earlier
        · rw [mem_singleton.mp last]
          simp
      simp [isMarked] at otherFirst

theorem noticed_every_order_iff (differ : Differ value members) :
    (∀ order, order.Perm members → Noticed value marked order) ↔
      ¬Overlooked value marked members := by
  constructor
  · intro every overlooked
    refine overlooked.not_noticed (every _ ?_)
    exact perm_append_comm.trans (filter_append_perm marked members)
  · intro notOverlooked order perm
    have sameMembers : ∀ member, member ∈ order ↔ member ∈ members := fun _ => perm.mem_iff
    refine noticed_of_not_overlooked ?_ ?_
    · simpa only [Differ, sameMembers] using differ
    · rintro ⟨markedFalse, unmarkedTrue, unmarkedFalse⟩
      simp only [sameMembers] at markedFalse unmarkedTrue unmarkedFalse
      exact notOverlooked ⟨markedFalse, unmarkedTrue, unmarkedFalse⟩

end Peak
