import Mathlib.Data.List.Induction
import Peak.Common.Differences

/-!
# Capability manifests of several ranks

Every rank reports masks of the capabilities that were requested, compiled in, active and so on. The
socket transport merges the manifests as they arrive. The MPI transport reduces each mask over all
ranks and computes the partial capabilities from the results.
-/

namespace Peak

open List BitVec

abbrev Mask := BitVec 32

def capabilityCuda : Mask := 1#32 <<< 2

/-- The ranks found or installed different parts of the CUDA interface. -/
def noteCuda (partialMask foundDifference installedDifference : Mask) : Mask :=
  if foundDifference ≠ 0 ∨ installedDifference ≠ 0 then
    partialMask ||| capabilityCuda
  else
    partialMask

structure CapabilityManifest where
  requested : Mask
  compiled : Mask
  active : Mask
  partialMask : Mask
  retained : Mask
  failed : Mask
  cudaCompiledApis : Mask
  cudaFoundApis : Mask
  cudaInstalledApis : Mask
  cudaFailedApis : Mask

structure RankMasks where
  capabilities : CapabilityManifest
  degradedMask : Mask

def CapabilityManifest.merge (aggregate incoming : CapabilityManifest) : CapabilityManifest :=
  let activeDifference := aggregate.active ^^^ incoming.active
  let compiledDifference := aggregate.compiled ^^^ incoming.compiled
  let cudaFoundDifference := aggregate.cudaFoundApis ^^^ incoming.cudaFoundApis
  let cudaInstalledDifference := aggregate.cudaInstalledApis ^^^ incoming.cudaInstalledApis
  let requested := aggregate.requested ||| incoming.requested
  let partialMask := aggregate.partialMask ||| (incoming.partialMask ||| activeDifference)
  let partialMask := partialMask ||| (requested &&& compiledDifference)
  { requested := requested
    compiled := aggregate.compiled &&& incoming.compiled
    active := aggregate.active &&& incoming.active
    partialMask := noteCuda partialMask cudaFoundDifference cudaInstalledDifference
    retained := aggregate.retained ||| incoming.retained
    failed := aggregate.failed ||| incoming.failed
    cudaCompiledApis := aggregate.cudaCompiledApis &&& incoming.cudaCompiledApis
    cudaFoundApis := aggregate.cudaFoundApis &&& incoming.cudaFoundApis
    cudaInstalledApis := aggregate.cudaInstalledApis &&& incoming.cudaInstalledApis
    cudaFailedApis := aggregate.cudaFailedApis ||| incoming.cudaFailedApis }

def RankMasks.absorb (aggregate incoming : RankMasks) : RankMasks where
  capabilities := aggregate.capabilities.merge incoming.capabilities
  degradedMask := aggregate.degradedMask ||| incoming.degradedMask

def CapabilityManifest.none : CapabilityManifest := ⟨0, 0, 0, 0, 0, 0, 0, 0, 0, 0⟩

def mergeRanks : List RankMasks → RankMasks
  | [] => ⟨.none, 0⟩
  | first :: others => others.foldl RankMasks.absorb first

def anyOf (field : RankMasks → Mask) (ranks : List RankMasks) : Mask :=
  (ranks.map field).foldl (· ||| ·) 0

def allOf (field : RankMasks → Mask) (ranks : List RankMasks) : Mask :=
  (ranks.map field).foldl (· &&& ·) (allOnes 32)

def difference (field : RankMasks → Mask) (ranks : List RankMasks) : Mask :=
  anyOf field ranks ^^^ allOf field ranks

/-- The masks which `peak_mpi_report_transport_reduce` computes from the reductions. -/
def reduceRanks (ranks : List RankMasks) : RankMasks :=
  let partialMask := anyOf (·.capabilities.partialMask) ranks |||
    difference (·.capabilities.active) ranks
  let partialMask := partialMask |||
    (anyOf (·.capabilities.requested) ranks &&& difference (·.capabilities.compiled) ranks)
  { capabilities :=
      { requested := anyOf (·.capabilities.requested) ranks
        compiled := allOf (·.capabilities.compiled) ranks
        active := allOf (·.capabilities.active) ranks
        partialMask := noteCuda partialMask (difference (·.capabilities.cudaFoundApis) ranks)
          (difference (·.capabilities.cudaInstalledApis) ranks)
        retained := anyOf (·.capabilities.retained) ranks
        failed := anyOf (·.capabilities.failed) ranks
        cudaCompiledApis := allOf (·.capabilities.cudaCompiledApis) ranks
        cudaFoundApis := allOf (·.capabilities.cudaFoundApis) ranks
        cudaInstalledApis := allOf (·.capabilities.cudaInstalledApis) ranks
        cudaFailedApis := anyOf (·.capabilities.cudaFailedApis) ranks }
    degradedMask := anyOf (·.degradedMask) ranks }

variable {ranks : List RankMasks}

section Bits

variable {field : RankMasks → Mask} {bit : ℕ} (rank : RankMasks)

theorem anyOf_concat : anyOf field (ranks ++ [rank]) = anyOf field ranks ||| field rank := by
  simp [anyOf]

theorem allOf_concat : allOf field (ranks ++ [rank]) = allOf field ranks &&& field rank := by
  simp [allOf]

theorem anyOf_singleton : anyOf field [rank] = field rank :=
  zero_or

theorem allOf_singleton : allOf field [rank] = field rank :=
  allOnes_and

theorem difference_singleton : difference field [rank] = 0 := by
  rw [difference, anyOf_singleton, allOf_singleton]
  exact xor_self

theorem getLsbD_anyOf :
    (anyOf field ranks).getLsbD bit = ranks.any fun rank => (field rank).getLsbD bit := by
  induction ranks using reverseRecOn with
  | nil => simp [anyOf]
  | append_singleton _ _ ih =>
    rw [anyOf_concat, getLsbD_or, ih, any_append]
    simp

theorem getLsbD_allOf (inRange : bit < 32) :
    (allOf field ranks).getLsbD bit = ranks.all fun rank => (field rank).getLsbD bit := by
  induction ranks using reverseRecOn with
  | nil => exact getLsbD_allOnes.trans (by simp [inRange])
  | append_singleton _ _ ih =>
    rw [allOf_concat, getLsbD_and, ih, all_append]
    simp

theorem getLsbD_any_of_all (field : RankMasks → Mask) (nonempty : ranks ≠ []) (inRange : bit < 32)
    (all : (allOf field ranks).getLsbD bit) : (anyOf field ranks).getLsbD bit := by
  rw [getLsbD_allOf inRange, all_eq_true] at all
  rw [getLsbD_anyOf, any_eq_true]
  rcases exists_mem_of_ne_nil _ nonempty with ⟨rank, rankMem⟩
  exact ⟨rank, rankMem, all rank rankMem⟩

theorem getLsbD_difference (nonempty : ranks ≠ []) (inRange : bit < 32) :
    (difference field ranks).getLsbD bit ↔
      Differ (fun rank => (field rank).getLsbD bit) ranks := by
  have allAny := getLsbD_any_of_all field nonempty inRange
  rw [difference, getLsbD_xor]
  rw [getLsbD_anyOf, getLsbD_allOf inRange] at *
  constructor
  · intro unequal
    cases all : ranks.all fun rank => (field rank).getLsbD bit with
    | true =>
      rw [allAny all, all] at unequal
      cases unequal
    | false =>
      rw [all, Bool.xor_false, any_eq_true] at unequal
      rcases all_eq_false.mp all with ⟨rank, rankMem, isFalse⟩
      exact ⟨unequal, rank, rankMem, eq_false_of_ne_true isFalse⟩
  · rintro ⟨isTrue, rank, rankMem, isFalse⟩
    rw [any_eq_true.mpr isTrue, all_eq_false.mpr ⟨rank, rankMem, ne_true_of_eq_false isFalse⟩]
    rfl

theorem difference_concat (nonempty : ranks ≠ []) (rank : RankMasks) :
    difference field (ranks ++ [rank]) =
      difference field ranks ||| (allOf field ranks ^^^ field rank) := by
  refine eq_of_getLsbD_eq fun bit inRange => ?_
  have allAny := getLsbD_any_of_all field nonempty inRange
  rw [difference, anyOf_concat, allOf_concat, difference, getLsbD_xor, getLsbD_or,
    getLsbD_and, getLsbD_or, getLsbD_xor, getLsbD_xor]
  revert allAny
  cases (anyOf field ranks).getLsbD bit <;> cases (allOf field ranks).getLsbD bit <;> simp

theorem reductions_perm (field : RankMasks → Mask) {order : List RankMasks}
    (perm : order.Perm ranks) :
    anyOf field order = anyOf field ranks ∧ allOf field order = allOf field ranks := by
  constructor
  · refine eq_of_getLsbD_eq fun bit inRange => ?_
    rw [getLsbD_anyOf, getLsbD_anyOf]
    exact perm.any_eq
  · refine eq_of_getLsbD_eq fun bit inRange => ?_
    rw [getLsbD_allOf inRange, getLsbD_allOf inRange]
    exact perm.all_eq

end Bits

theorem reduceRanks_perm {order ranks : List RankMasks} (perm : order.Perm ranks) :
    reduceRanks order = reduceRanks ranks := by
  have any := fun field => (reductions_perm field perm).1
  have all := fun field => (reductions_perm field perm).2
  simp only [reduceRanks, difference, any, all]

theorem xor_eq_true_iff_ne (left right : Bool) : (left ^^ right) ↔ left ≠ right := by
  cases left <;> cases right <;> decide

theorem noteCuda_eq (partialMask found installed : Mask) :
    noteCuda partialMask found installed = partialMask ||| noteCuda 0 found installed := by
  rw [noteCuda, noteCuda]
  split <;> simp

theorem noteCuda_or (found installed moreFound moreInstalled : Mask) :
    noteCuda 0 (found ||| moreFound) (installed ||| moreInstalled) =
      noteCuda 0 found installed ||| noteCuda 0 moreFound moreInstalled := by
  simp only [noteCuda]
  split <;> split <;> split <;> simp_all

/-- The partial capabilities apart from those that only some ranks were compiled with. -/
def commonPartial (ranks : List RankMasks) : Mask :=
  anyOf (·.capabilities.partialMask) ranks ||| difference (·.capabilities.active) ranks |||
    noteCuda 0 (difference (·.capabilities.cudaFoundApis) ranks)
      (difference (·.capabilities.cudaInstalledApis) ranks)

theorem commonPartial_concat (nonempty : ranks ≠ []) (rank : RankMasks) :
    commonPartial (ranks ++ [rank]) = commonPartial ranks |||
      (rank.capabilities.partialMask |||
        (allOf (·.capabilities.active) ranks ^^^ rank.capabilities.active)) |||
      noteCuda 0 (allOf (·.capabilities.cudaFoundApis) ranks ^^^ rank.capabilities.cudaFoundApis)
        (allOf (·.capabilities.cudaInstalledApis) ranks ^^^
          rank.capabilities.cudaInstalledApis) := by
  simp only [commonPartial, anyOf_concat, difference_concat nonempty, noteCuda_or]
  ac_rfl

def requestedBit (bit : ℕ) (rank : RankMasks) : Bool :=
  rank.capabilities.requested.getLsbD bit

def compiledBit (bit : ℕ) (rank : RankMasks) : Bool :=
  rank.capabilities.compiled.getLsbD bit

def withPartial (masks : RankMasks) (partialMask : Mask) : RankMasks :=
  { masks with capabilities := { masks.capabilities with partialMask := partialMask } }

theorem reduceRanks_partialMask (ranks : List RankMasks) :
    (reduceRanks ranks).capabilities.partialMask = commonPartial ranks |||
      (anyOf (·.capabilities.requested) ranks &&& difference (·.capabilities.compiled) ranks) := by
  rw [reduceRanks, noteCuda_eq, commonPartial]
  ac_rfl

theorem mergeRanks_concat (nonempty : ranks ≠ []) (rank : RankMasks) :
    mergeRanks (ranks ++ [rank]) = (mergeRanks ranks).absorb rank := by
  cases ranks with
  | nil => exact absurd rfl nonempty
  | cons => exact foldl_concat _ _ _ _

theorem mergeRanks_eq (nonempty : ranks ≠ []) :
    ∃ noticed : Mask,
      mergeRanks ranks = withPartial (reduceRanks ranks) (commonPartial ranks ||| noticed) ∧
      ∀ bit < 32, noticed.getLsbD bit ↔
        Noticed (compiledBit bit) (requestedBit bit) ranks := by
  induction ranks using reverseRecOn with
  | nil => exact absurd rfl nonempty
  | append_singleton ranks rank ih =>
    by_cases first : ranks = []
    · subst first
      refine ⟨0, ?_, fun bit _ => ⟨fun set => ?_, fun noticed => ?_⟩⟩
      · simp only [nil_append, mergeRanks, withPartial, reduceRanks, commonPartial,
          anyOf_singleton, allOf_singleton, difference_singleton]
        simp [noteCuda]
      · simp at set
      · exact absurd noticed.differ (by simp [Differ])
    · rcases ih first with ⟨noticed, merged, isNoticed⟩
      refine ⟨noticed ||| (anyOf (·.capabilities.requested) (ranks ++ [rank]) &&&
        (allOf (·.capabilities.compiled) ranks ^^^ rank.capabilities.compiled)), ?_, ?_⟩
      · rw [mergeRanks_concat first, merged, commonPartial_concat first]
        simp only [RankMasks.absorb, withPartial, CapabilityManifest.merge, reduceRanks,
          anyOf_concat, allOf_concat]
        rw [noteCuda_eq]
        congr 2
        ac_rfl
      · intro bit inRange
        rw [noticed_concat, getLsbD_or, Bool.or_eq_true, isNoticed bit inRange,
          getLsbD_and, Bool.and_eq_true, getLsbD_xor, getLsbD_anyOf,
          getLsbD_allOf inRange, any_eq_true, xor_eq_true_iff_ne]
        refine or_congr_right ?_
        constructor
        · rintro ⟨isRequested, differs⟩
          exact ⟨first, differs, isRequested⟩
        · rintro ⟨_, differs, isRequested⟩
          exact ⟨isRequested, differs⟩

theorem withPartial_eq_iff (masks : RankMasks) (partialMask : Mask) :
    withPartial masks partialMask = masks ↔ partialMask = masks.capabilities.partialMask := by
  constructor
  · intro same
    rw [← same]
    rfl
  · rintro rfl
    rfl

theorem mergeRanks_eq_reduceRanks_iff {order ranks : List RankMasks} (nonempty : ranks ≠ [])
    (perm : order.Perm ranks) :
    mergeRanks order = reduceRanks ranks ↔
      ∀ bit < 32, (commonPartial ranks).getLsbD bit = false →
        (∃ rank ∈ ranks, requestedBit bit rank) → Differ (compiledBit bit) ranks →
        Noticed (compiledBit bit) (requestedBit bit) order := by
  have orderNonempty : order ≠ [] := by
    rintro rfl
    exact nonempty perm.nil_eq.symm
  have any := fun field => (reductions_perm field perm).1
  have all := fun field => (reductions_perm field perm).2
  have sameCommon : commonPartial order = commonPartial ranks := by
    simp only [commonPartial, difference, any, all]
  rcases mergeRanks_eq orderNonempty with ⟨noticed, merged, isNoticed⟩
  rw [merged, reduceRanks_perm perm, sameCommon, withPartial_eq_iff, reduceRanks_partialMask,
    eq_of_getLsbD_eq_iff]
  refine forall₂_congr fun bit inRange => ?_
  have requested : (anyOf (·.capabilities.requested) ranks).getLsbD bit ↔
      ∃ rank ∈ ranks, requestedBit bit rank := by
    rw [getLsbD_anyOf, any_eq_true]
    rfl
  have differ : (difference (·.capabilities.compiled) ranks).getLsbD bit ↔
      Differ (compiledBit bit) ranks :=
    getLsbD_difference nonempty inRange
  have implied : Noticed (compiledBit bit) (requestedBit bit) order →
      (∃ rank ∈ ranks, requestedBit bit rank) ∧ Differ (compiledBit bit) ranks := by
    intro isNoticed
    rcases isNoticed.exists_marked with ⟨rank, rankMem, isRequested⟩
    rcases isNoticed.differ with ⟨⟨one, oneMem, isTrue⟩, other, otherMem, isFalse⟩
    exact ⟨⟨rank, perm.mem_iff.mp rankMem, isRequested⟩,
      ⟨one, perm.mem_iff.mp oneMem, isTrue⟩, other, perm.mem_iff.mp otherMem, isFalse⟩
  rw [getLsbD_or, getLsbD_or, getLsbD_and, ← requested, ← differ,
    ← isNoticed bit inRange]
  rw [← requested, ← differ, ← isNoticed bit inRange] at implied
  revert implied
  cases (commonPartial ranks).getLsbD bit <;> cases noticed.getLsbD bit <;> simp

/-- A capability which only some ranks were compiled with is missing in the merged partial mask for
some order. -/
structure PartialOverlooked (ranks : List RankMasks) (bit : ℕ) : Prop where
  notCommon : (commonPartial ranks).getLsbD bit = false
  requested : ∃ rank ∈ ranks, requestedBit bit rank
  overlooked : Overlooked (compiledBit bit) (requestedBit bit) ranks

/-- The merged masks are those of the MPI reduction, in any order of the ranks, if and only if no
partial capability is overlooked. -/
theorem capability_merge_iff {ranks : List RankMasks} (nonempty : ranks ≠ []) :
    (∀ order, order.Perm ranks → mergeRanks order = reduceRanks ranks) ↔
      ∀ bit < 32, ¬PartialOverlooked ranks bit := by
  constructor
  · rintro same bit inRange ⟨notCommon, requested, overlooked⟩
    have differ : Differ (compiledBit bit) ranks := by
      rcases overlooked.unmarkedTrue with ⟨one, oneMem, _, isTrue⟩
      rcases overlooked.unmarkedFalse with ⟨other, otherMem, _, isFalse⟩
      exact ⟨⟨one, oneMem, isTrue⟩, other, otherMem, isFalse⟩
    refine (noticed_every_order_iff differ).mp (fun order perm => ?_) overlooked
    exact (mergeRanks_eq_reduceRanks_iff nonempty perm).mp (same order perm) bit inRange notCommon
      requested differ
  · intro none order perm
    rw [mergeRanks_eq_reduceRanks_iff nonempty perm]
    intro bit inRange notCommon requested differ
    refine (noticed_every_order_iff differ).mpr (fun overlooked => ?_) order perm
    exact none bit inRange ⟨notCommon, requested, overlooked⟩

def rankWith (requested compiled : Mask) : RankMasks :=
  ⟨{ CapabilityManifest.none with requested := requested, compiled := compiled }, 0⟩

theorem capability_merge_iff_pair :
    mergeRanks [rankWith 0 0, rankWith 4 4] = reduceRanks [rankWith 4 4, rankWith 0 0] := by
  refine (capability_merge_iff (cons_ne_nil _ _)).mpr ?_ _ (Perm.swap _ _ _)
  rintro bit inRange ⟨_, _, _, ⟨rank, rankMem, notRequested, isCompiled⟩, _⟩
  rcases mem_cons.mp rankMem with rfl | last
  · cases isCompiled.symm.trans notRequested
  · rw [mem_singleton.mp last] at isCompiled
    simp [compiledBit, rankWith] at isCompiled

/-- Two ranks which were compiled differently do not request a capability. If the third one, which
does, comes last, the partial mask lacks it. -/
theorem merge_depends_on_order :
    (mergeRanks [rankWith 0 4, rankWith 0 0, rankWith 4 0]).capabilities.partialMask = 0 ∧
    (mergeRanks [rankWith 4 0, rankWith 0 4, rankWith 0 0]).capabilities.partialMask = 4 ∧
    (reduceRanks [rankWith 0 4, rankWith 0 0, rankWith 4 0]).capabilities.partialMask = 4 := by
  decide

end Peak
