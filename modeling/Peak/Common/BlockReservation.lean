import Mathlib.Algebra.Order.BigOperators.Group.Finset

/-!
# Numbers that are handed out in blocks

Owners take numbers below a limit from a shared counter, a block at a time, so that every owner
leaves less than one block unused.
-/

namespace Peak.BlockReservation

open Function List

structure Span where
  next : ℕ
  stop : ℕ

/-- Numbers which the owners reserve in blocks. -/
structure Blocks (Owner : Type) where
  reserved : ℕ
  spans : Owner → Span

variable {Owner : Type} {block limit : ℕ}

/-- The owner takes the next number of its block. -/
def take [DecidableEq Owner] (block limit : ℕ) (blocks : Blocks Owner) (owner : Owner) :
    Blocks Owner × Option ℕ :=
  let span := blocks.spans owner
  if span.next ≠ span.stop then
    ({ blocks with spans := update blocks.spans owner ⟨span.next + 1, span.stop⟩ }, some span.next)
  else if limit ≤ blocks.reserved then
    ({ blocks with reserved := blocks.reserved + block }, none)
  else
    ({ reserved := blocks.reserved + block
       spans := update blocks.spans owner
        ⟨blocks.reserved + 1, min (blocks.reserved + block) limit⟩ },
      some blocks.reserved)

def unused (blocks : Blocks Owner) (owner : Owner) : ℕ :=
  (blocks.spans owner).stop - (blocks.spans owner).next

/-- The owner has reserved the number. -/
def Keeps (blocks : Blocks Owner) (owner : Owner) (number : ℕ) : Prop :=
  (blocks.spans owner).next ≤ number ∧ number < (blocks.spans owner).stop

/-- No number is handed out or reserved twice. -/
structure Sound (block limit : ℕ) (owners : Finset Owner) (blocks : Blocks Owner)
    (handed : List ℕ) : Prop where
  distinct : handed.Nodup
  below : ∀ number ∈ handed, number < min blocks.reserved limit
  ordered : ∀ owner, (blocks.spans owner).next ≤ (blocks.spans owner).stop
  within : ∀ owner number, Keeps blocks owner number →
    number < min blocks.reserved limit ∧ number ∉ handed
  short : ∀ owner, unused blocks owner ≤ block - 1
  apart : ∀ first second number, Keeps blocks first number → Keeps blocks second number →
    first = second
  idle : ∀ owner, owner ∉ owners → unused blocks owner = 0
  total : min blocks.reserved limit = handed.length + ∑ owner ∈ owners, unused blocks owner

variable {blocks after : Blocks Owner} {owners : Finset Owner} {handed : List ℕ} {owner : Owner}
  {number : ℕ}

theorem sound_empty (owners : Finset Owner) : Sound block limit owners ⟨0, fun _ => ⟨0, 0⟩⟩ [] := by
  constructor <;> simp [Keeps, unused]

theorem Sound.mono {more : Finset Owner} (sound : Sound block limit owners blocks handed)
    (subset : owners ⊆ more) : Sound block limit more blocks handed := by
  refine ⟨sound.distinct, sound.below, sound.ordered, sound.within, sound.short, sound.apart, ?_,
    ?_⟩
  · exact fun owner notMore => sound.idle owner fun isOwner => notMore (subset isOwner)
  · rw [sound.total, Finset.sum_subset subset fun owner _ notOwner => sound.idle owner notOwner]

theorem unused_eq_zero (empty : (blocks.spans owner).next = (blocks.spans owner).stop) :
    unused blocks owner = 0 := by
  rw [unused, empty, Nat.sub_self]

theorem Sound.exhaust (sound : Sound block limit owners blocks handed)
    (full : limit ≤ blocks.reserved) (more : ℕ) :
    Sound block limit owners ⟨blocks.reserved + more, blocks.spans⟩ handed := by
  have bound : min (blocks.reserved + more) limit = min blocks.reserved limit := by omega
  refine ⟨sound.distinct, ?_, sound.ordered, ?_, sound.short, sound.apart, sound.idle, ?_⟩
  · rw [bound]
    exact sound.below
  · rw [bound]
    exact sound.within
  · rw [bound]
    exact sound.total

variable [DecidableEq Owner]

theorem unused_update_of_ne {other : Owner} (different : other ≠ owner) (span : Span) (count : ℕ) :
    unused ⟨count, update blocks.spans owner span⟩ other = unused blocks other := by
  simp [unused, different]

theorem sum_unused_update (blocks : Blocks Owner) (isOwner : owner ∈ owners) (span : Span)
    (count : ℕ) :
    ∑ other ∈ owners, unused ⟨count, update blocks.spans owner span⟩ other +
      unused blocks owner = ∑ other ∈ owners, unused blocks other + (span.stop - span.next) := by
  rw [← Finset.add_sum_erase owners (unused blocks) isOwner,
    ← Finset.add_sum_erase owners _ isOwner]
  have same : ∑ other ∈ owners.erase owner,
      unused ⟨count, update blocks.spans owner span⟩ other =
      ∑ other ∈ owners.erase owner, unused blocks other :=
    Finset.sum_congr rfl fun other isOther =>
      unused_update_of_ne (Finset.ne_of_mem_erase isOther) span count
  have self : unused ⟨count, update blocks.spans owner span⟩ owner =
      span.stop - span.next := by simp [unused]
  omega

section

variable (sound : Sound block limit owners blocks handed)

include sound

theorem Sound.hand {stop count : ℕ} (isOwner : owner ∈ owners) (grown : blocks.reserved ≤ count)
    (rest : number < stop) (bound : stop ≤ min count limit) (short : stop - number ≤ block)
    (free : ∀ kept, number ≤ kept → kept < stop →
      kept ∉ handed ∧ ∀ other, Keeps blocks other kept → other = owner)
    (total : min count limit + unused blocks owner = min blocks.reserved limit + (stop - number)) :
    Sound block limit owners ⟨count, update blocks.spans owner ⟨number + 1, stop⟩⟩
      (number :: handed) := by
  have later : ∀ other kept,
      Keeps ⟨count, update blocks.spans owner ⟨number + 1, stop⟩⟩ other kept →
      other = owner ∧ number < kept ∧ kept < stop ∨ other ≠ owner ∧ Keeps blocks other kept := by
    intro other kept isKept
    by_cases same : other = owner
    · subst same
      simp only [Keeps, update_self] at isKept
      exact .inl ⟨rfl, isKept⟩
    · exact .inr ⟨same, by simpa [Keeps, same] using isKept⟩
  constructor
  case distinct => exact nodup_cons.mpr ⟨(free number le_rfl rest).1, sound.distinct⟩
  case below =>
    rw [forall_mem_cons]
    refine ⟨by simp only; omega, fun old isHanded => ?_⟩
    have below := sound.below old isHanded
    simp only
    omega
  case ordered =>
    intro other
    by_cases same : other = owner
    · subst same
      simp only [update_self]
      omega
    · simpa [same] using sound.ordered other
  case within =>
    intro other kept isKept
    rw [mem_cons, not_or]
    rcases later other kept isKept with ⟨_, above, below⟩ | ⟨different, wasKept⟩
    · exact ⟨by simp only; omega, by omega, (free kept above.le below).1⟩
    · have within := sound.within other kept wasKept
      refine ⟨by simp only; omega, ?_, within.2⟩
      rintro rfl
      exact different ((free kept le_rfl rest).2 other wasKept)
  case short =>
    intro other
    by_cases same : other = owner
    · subst same
      simp only [unused, update_self]
      omega
    · rw [unused_update_of_ne same]
      exact sound.short other
  case apart =>
    intro first second kept firstKeeps secondKeeps
    rcases later _ _ firstKeeps with ⟨rfl, above, below⟩ | ⟨_, wasFirst⟩ <;>
      rcases later _ _ secondKeeps with ⟨rfl, above', below'⟩ | ⟨_, wasSecond⟩
    · rfl
    · exact ((free kept above.le below).2 second wasSecond).symm
    · exact (free kept above'.le below').2 first wasFirst
    · exact sound.apart first second kept wasFirst wasSecond
  case idle =>
    intro other notOwner
    have different : other ≠ owner := fun same => notOwner (same ▸ isOwner)
    rw [unused_update_of_ne different]
    exact sound.idle other notOwner
  case total =>
    have sum := sum_unused_update blocks isOwner ⟨number + 1, stop⟩ count
    have before := sound.total
    simp only [length_cons] at sum before ⊢
    omega

theorem Sound.use (isOwner : owner ∈ owners)
    (rest : (blocks.spans owner).next ≠ (blocks.spans owner).stop) :
    Sound block limit owners
      ⟨blocks.reserved, update blocks.spans owner
        ⟨(blocks.spans owner).next + 1, (blocks.spans owner).stop⟩⟩
      ((blocks.spans owner).next :: handed) := by
  have ordered := sound.ordered owner
  have short := sound.short owner
  have last := (sound.within owner ((blocks.spans owner).stop - 1) ⟨by omega, by omega⟩).1
  rw [unused] at short
  refine sound.hand isOwner le_rfl (by omega) (by omega) (by omega) (fun kept above below => ?_) rfl
  exact ⟨(sound.within owner kept ⟨above, below⟩).2,
    fun other isKept => sound.apart other owner kept isKept ⟨above, below⟩⟩

theorem Sound.reserve (isOwner : owner ∈ owners)
    (positive : 1 ≤ block) (empty : unused blocks owner = 0) (room : blocks.reserved < limit) :
    Sound block limit owners
      ⟨blocks.reserved + block, update blocks.spans owner
        ⟨blocks.reserved + 1, min (blocks.reserved + block) limit⟩⟩
      (blocks.reserved :: handed) := by
  refine sound.hand isOwner (by omega) (by omega) le_rfl (by omega) (fun kept above _ => ⟨?_, ?_⟩)
    (by omega)
  · intro isHanded
    have below := sound.below kept isHanded
    omega
  · intro other isKept
    have within := (sound.within other kept isKept).1
    omega

theorem Sound.take_some (positive : 1 ≤ block) (isOwner : owner ∈ owners)
    (taken : take block limit blocks owner = (after, some number)) :
    Sound block limit owners after (number :: handed) := by
  unfold take at taken
  simp only [ite_not] at taken
  split at taken
  next empty =>
    split at taken
    · cases taken
    next room =>
      cases taken
      exact sound.reserve isOwner positive (unused_eq_zero empty) (Nat.lt_of_not_le room)
  next rest =>
    cases taken
    exact sound.use isOwner rest

theorem Sound.take_none (isOwner : owner ∈ owners)
    (failed : take block limit blocks owner = (after, none)) :
    Sound block limit owners after handed ∧
      limit ≤ handed.length + (block - 1) * (owners.card - 1) := by
  unfold take at failed
  simp only [ite_not] at failed
  split at failed
  next empty =>
    split at failed
    next full =>
      cases failed
      refine ⟨sound.exhaust full block, ?_⟩
      have others : ∑ other ∈ owners, unused blocks other ≤ (owners.card - 1) * (block - 1) := by
        rw [← Finset.add_sum_erase owners (unused blocks) isOwner, unused_eq_zero empty,
          Nat.zero_add, ← Finset.card_erase_of_mem isOwner]
        exact Finset.sum_le_card_nsmul _ _ _ fun other _ => sound.short other
      have total := sound.total
      rw [Nat.mul_comm]
      omega
    · cases failed
  · cases failed

end

end Peak.BlockReservation
