import Mathlib.Data.List.Nodup

/-!
# The first entry of every key

Entries are collected one after the other, and an entry is left out when there is
already one with its key.
-/

namespace Peak.FirstKept

open List

variable {Entry Key : Type} [DecidableEq Key] (key : Entry → Key)

def insertNew (kept : List Entry) (entry : Entry) : List Entry :=
  if kept.any fun other => key other = key entry then kept else kept ++ [entry]

variable {key} {kept events : List Entry} {entry other : Entry}

theorem insertNew_of_mem (present : key entry ∈ kept.map key) :
    insertNew key kept entry = kept := by
  unfold insertNew
  simpa using present

theorem insertNew_of_not_mem (absent : key entry ∉ kept.map key) :
    insertNew key kept entry = kept ++ [entry] := by
  unfold insertNew
  simpa using absent

theorem key_mem_insertNew (kept : List Entry) (entry : Entry) :
    key entry ∈ (insertNew key kept entry).map key := by
  by_cases present : key entry ∈ kept.map key
  · rwa [insertNew_of_mem present]
  · simp [insertNew_of_not_mem present]

theorem nodup_insertNew (distinct : (kept.map key).Nodup) :
    ((insertNew key kept entry).map key).Nodup := by
  by_cases present : key entry ∈ kept.map key
  · rwa [insertNew_of_mem present]
  · rw [insertNew_of_not_mem present, map_append, map_singleton, ← concat_eq_append]
    exact distinct.concat present

theorem nodup_foldl (distinct : (kept.map key).Nodup) :
    ((events.foldl (insertNew key) kept).map key).Nodup := by
  induction events generalizing kept with
  | nil => exact distinct
  | cons _ _ ih => exact ih (nodup_insertNew distinct)

theorem length_foldl_le (kept events : List Entry) :
    (events.foldl (insertNew key) kept).length ≤ kept.length + events.length := by
  induction events generalizing kept with
  | nil => exact Nat.le_refl _
  | cons event _ ih =>
    have first : (insertNew key kept event).length ≤ kept.length + 1 := by
      unfold insertNew
      split <;> simp
    have rest := ih (insertNew key kept event)
    rw [foldl_cons, length_cons]
    omega

theorem mem_foldl :
    entry ∈ events.foldl (insertNew key) kept ↔
      entry ∈ kept ∨ key entry ∉ kept.map key ∧
        ∃ before after, events = before ++ entry :: after ∧ key entry ∉ before.map key := by
  induction events generalizing kept with
  | nil => simp
  | cons event events ih =>
    rw [foldl_cons, ih]
    by_cases present : key event ∈ kept.map key
    · rw [insertNew_of_mem present]
      refine or_congr_right (and_congr_right fun absent => ?_)
      constructor
      · rintro ⟨before, after, rfl, first⟩
        refine ⟨event :: before, after, rfl, ?_⟩
        rw [map_cons, mem_cons]
        rintro (same | earlier)
        · exact absent (same ▸ present)
        · exact first earlier
      · rintro ⟨before, after, split, first⟩
        cases before with
        | nil =>
          cases split
          exact absurd present absent
        | cons _ before =>
          cases split
          exact ⟨before, after, rfl, fun earlier => first (mem_cons_of_mem _ earlier)⟩
    · rw [insertNew_of_not_mem present, mem_append, mem_singleton, map_append,
        mem_append, map_singleton, mem_singleton]
      constructor
      · rintro ((wasKept | rfl) | ⟨absent, before, after, rfl, first⟩)
        · exact .inl wasKept
        · exact .inr ⟨present, [], events, rfl, not_mem_nil⟩
        · refine .inr ⟨fun wasKept => absent (.inl wasKept), event :: before, after, rfl, ?_⟩
          rw [map_cons, mem_cons]
          rintro (same | earlier)
          · exact absent (.inr same)
          · exact first earlier
      · rintro (wasKept | ⟨absent, before, after, split, first⟩)
        · exact .inl (.inl wasKept)
        · cases before with
          | nil =>
            cases split
            exact .inl (.inr rfl)
          | cons _ before =>
            cases split
            refine .inr ⟨?_, before, after, rfl, fun earlier =>
              first (mem_cons_of_mem _ earlier)⟩
            rintro (wasKept | same)
            · exact absent wasKept
            · exact first (by simp [same])

theorem mem_of_mem_foldl (isKept : entry ∈ events.foldl (insertNew key) []) : entry ∈ events := by
  rcases mem_foldl.mp isKept with old | ⟨_, _, _, rfl, _⟩
  · cases old
  · simp

theorem exists_mem_foldl (isEvent : entry ∈ events) :
    ∃ kept ∈ events.foldl (insertNew key) [], key kept = key entry := by
  -- the induction is on the events before the first one with the key
  induction events generalizing entry with
  | nil => cases isEvent
  | cons event events ih =>
    by_cases same : key event = key entry
    · refine ⟨event, mem_foldl.mpr (.inr ⟨by simp, [], events, rfl, by simp⟩), same⟩
    · rcases mem_cons.mp isEvent with rfl | later
      · exact absurd rfl same
      · rcases ih later with ⟨kept, isKept, sameKey⟩
        refine ⟨kept, ?_, sameKey⟩
        rcases mem_foldl.mp isKept with old | ⟨absent, before, after, rfl, first⟩
        · cases old
        · refine mem_foldl.mpr (.inr ⟨absent, event :: before, after, rfl, ?_⟩)
          rw [map_cons, mem_cons]
          rintro (same' | earlier)
          · exact same (same'.symm.trans sameKey)
          · exact first earlier

end Peak.FirstKept
