import Mathlib.Data.Finset.Card
import Peak.Target.Spelling

/-!
# Exhaustive matching

The purpose of the resolver is to find, for each selector, the function symbols which match it best
among all symbols of the modules it accepts. Here this is stated without indexes. The batch agrees
with it if the selectors are `Resolvable` among the modules.
-/

namespace Peak.Target.Environment

open List SymbolCandidate

variable {Owner : Type} [DecidableEq Owner] (env : Environment)

def legacyMatches (selector : Selector) (demangled : Text) : Bool :=
  if selector.isQualified then qualifiedName demangled = withoutSpace selector.symbol
  else extractFunctionName demangled = selector.symbol

def directTier (request : ResolveRequest Owner) (selector : Selector) (name : Text) :
    Option MatchTier :=
  if name = selector.symbol then
    some .exact
  else if isMangled name then
    if selector.humanSignature ∧ equalNormalized selector.symbol (env.demangle name) ∨
        selector.completeSignature ∧ fullSignatureMatches selector.symbol (env.demangle name) then
      some .full
    else if selector.legacyName request.allowLegacyShort ∧
        ¬ isArtificialPrefix (env.demangle name) ∧
        legacyMatches selector (env.demangle name) then
      some .legacy
    else
      none
  else
    none

def accepts (request : ResolveRequest Owner) (selector : Selector) (loaded : LoadedModule Owner) :
    Bool :=
  env.requestMatches request selector loaded.path ∧
    (request.ownedModule = none ∨ env.ownedResolutionAvailable ∧ loaded.owner = request.ownedModule)

def directEvent (request : ResolveRequest Owner) (selector : Selector) (currentModule : Text)
    (details : SymbolDetails) : Option SymbolCandidate :=
  match details.name with
  | none => none
  | some name =>
    if !details.isFunction || details.address = 0 then none
    else (env.directTier request selector name).map (env.candidateOf details name currentModule)

def directEvents (request : ResolveRequest Owner) (selector : Selector)
    (modules : List (LoadedModule Owner)) : List SymbolCandidate :=
  modules.flatMap fun loaded =>
    if env.accepts request selector loaded then
      loaded.symbols.filterMap
        (env.directEvent request selector (loaded.path.getD "<unknown>".toList))
    else
      []

def exhaustive (request : ResolveRequest Owner) (selector : Selector)
    (modules : List (LoadedModule Owner)) : Finset CandidateIdentity :=
  let events := env.directEvents request selector modules
  ((events.filter fun candidate =>
    events.all fun other => candidate.tier.rank ≤ other.tier.rank).map
      identity).toFinset

def Agrees (requests : List (ResolveRequest Owner)) (modules : List (LoadedModule Owner)) : Prop :=
  ∀ (number : ℕ) request selector, requests[number]? = some request →
    parseSelector request.selector = some selector →
    ∃ resolution, (env.resolveMany requests modules)[number]? = some resolution ∧
      (resolution.candidates.map identity).Nodup ∧
      (resolution.candidates.map identity).toFinset =
        env.exhaustive request selector modules ∧
      resolution.result = resultOfSize (env.exhaustive request selector modules).card

/-- The function symbols of the modules, with their addresses. -/
def functionNames (modules : List (LoadedModule Owner)) : List (ℕ × Text) :=
  modules.flatMap fun loaded => loaded.symbols.filterMap fun details =>
    if !details.isFunction || details.address = 0 then none
    else details.name.map (details.address, ·)

/-- The texts of the selector and of the symbols keep the request clear of what the index of a batch
cannot tell apart. -/
@[mk_iff]
structure Resolvable (requests : List (ResolveRequest Owner)) (modules : List (LoadedModule Owner))
    (request : ResolveRequest Owner) (selector : Selector) : Prop where
  /-- A C string has no zero in it. -/
  terminated : '\x00' ∉ selector.symbol
  /-- The selector does not name the modules without a path which are visited. -/
  pathless : ∀ loaded ∈ modules, loaded.path = none → env.visits requests loaded →
    env.requestMatches request selector (some "<unknown>".toList) →
    env.requestMatches request selector none
  /-- A symbol that is called as the selector and one that is demangled to it have different
  addresses. -/
  separate : isMangled selector.symbol = false →
    ∀ named ∈ functionNames modules, ∀ twin ∈ functionNames modules,
      named.2 = selector.symbol → isMangled twin.2 → env.demangle twin.2 = selector.symbol →
      named.1 ≠ twin.1
  /-- If a symbol matches by a part of its demangled name, the function is spelled alike there. -/
  spelled : selector.completeSignature →
    ∀ named ∈ functionNames (modules.filter (env.accepts request selector)), isMangled named.2 →
      fullSignatureMatches selector.symbol (env.demangle named.2) →
      ¬ equalNormalized selector.symbol (env.demangle named.2) →
      ∀ start < (env.demangle named.2).length,
        OccursAt selector.symbol (env.demangle named.2) start →
        SpelledAlike selector.symbol (env.demangle named.2) start

set_option synthInstance.maxSize 256 in
instance (requests : List (ResolveRequest Owner)) (modules : List (LoadedModule Owner))
    (request : ResolveRequest Owner) (selector : Selector) :
    Decidable (env.Resolvable requests modules request selector) :=
  decidable_of_iff _ (env.resolvable_iff requests modules request selector).symm

section

variable {candidates : List SymbolCandidate} {candidate : SymbolCandidate}

theorem rank_injective : Function.Injective MatchTier.rank := by
  intro left right same
  cases left <;> cases right <;> first | rfl | cases same

theorem foldl_bestTier (best : MatchTier) :
    let result := candidates.foldl (fun best candidate =>
      if candidate.tier.rank < best.rank then candidate.tier else best) best
    result.rank ≤ best.rank ∧ (∀ candidate ∈ candidates, result.rank ≤ candidate.tier.rank) ∧
      (result = best ∨ ∃ candidate ∈ candidates, candidate.tier = result) := by
  induction candidates generalizing best with
  | nil => simp
  | cons first _ ih =>
    simp only [foldl_cons, forall_mem_cons, exists_mem_cons_iff]
    by_cases better : first.tier.rank < best.rank
    · rw [if_pos better]
      rcases ih first.tier with ⟨le, all, attained⟩
      refine ⟨le.trans (Nat.le_of_lt better), ⟨le, all⟩, .inr ?_⟩
      rcases attained with same | later
      · exact .inl same.symm
      · exact .inr later
    · rw [if_neg better]
      rcases ih best with ⟨le, all, attained⟩
      refine ⟨le, ⟨le.trans (Nat.le_of_not_lt better), all⟩, ?_⟩
      rcases attained with same | later
      · exact .inl same
      · exact .inr (.inr later)

theorem rank_bestTier_le (isCandidate : candidate ∈ candidates) :
    (bestTier candidates).rank ≤ candidate.tier.rank :=
  (foldl_bestTier .legacy).2.1 candidate isCandidate

theorem exists_tier_eq_bestTier (isCandidate : candidate ∈ candidates) :
    ∃ best ∈ candidates, best.tier = bestTier candidates := by
  have attained : bestTier candidates = .legacy ∨
      ∃ best ∈ candidates, best.tier = bestTier candidates := (foldl_bestTier .legacy).2.2
  rcases attained with same | attained
  · -- no candidate is better than a legacy one
    refine ⟨candidate, isCandidate, rank_injective ?_⟩
    have le := rank_bestTier_le isCandidate
    cases isTier : candidate.tier <;> simp_all [MatchTier.rank]
  · exact attained

theorem mem_finalize : candidate ∈ finalize candidates ↔
    candidate ∈ candidates ∧ ∀ other ∈ candidates, candidate.tier.rank ≤ other.tier.rank := by
  unfold finalize
  have perm := perm_insertionSort (fun left right => candidateCompare left right ≠ .gt) candidates
  generalize candidates.insertionSort (fun left right => candidateCompare left right ≠ .gt) =
    sorted at perm ⊢
  simp only [← perm.mem_iff]
  split
  next =>
    rw [mem_filter, decide_eq_true_eq]
    refine and_congr_right fun isCandidate => ⟨?_, ?_⟩
    · intro isBest other isOther
      rw [isBest]
      exact rank_bestTier_le isOther
    · intro least
      rcases exists_tier_eq_bestTier isCandidate with ⟨best, isMember, isBest⟩
      have le := least best isMember
      rw [isBest] at le
      exact rank_injective (le.antisymm (rank_bestTier_le isCandidate))
  next few =>
    refine ⟨fun isCandidate => ⟨isCandidate, ?_⟩, And.left⟩
    intro other isOther
    have single : other = candidate := by
      cases sorted with
      | nil => cases isOther
      | cons _ rest =>
        cases rest with
        | nil =>
          rw [mem_singleton.mp isOther, mem_singleton.mp isCandidate]
        | cons => simp at few
    rw [single]

theorem nodup_finalize (distinct : (candidates.map identity).Nodup) :
    ((finalize candidates).map identity).Nodup := by
  have perm := perm_insertionSort (fun left right => candidateCompare left right ≠ .gt) candidates
  have sorted := (perm.map identity).nodup_iff.mpr distinct
  unfold finalize
  simp only []
  split
  · exact sorted.sublist (filter_sublist.map _)
  · exact sorted

end

section

variable {env} {request : ResolveRequest Owner} {selector : Selector} {allowLegacyShort : Bool}

theorem mem_keys_full {key : Text} :
    key ∈ selector.keys allowLegacyShort .full ↔
      selector.humanSignature ∧ key = withoutSpace selector.symbol := by
  simp only [Selector.keys]
  split <;> simp_all

theorem mem_keys_fullByName {key : Text} :
    key ∈ selector.keys allowLegacyShort .fullByName ↔
      selector.completeSignature ∧ key ∈ signatureKeys selector.symbol := by
  simp only [Selector.keys, signatureKeys]
  split <;> simp_all

theorem mem_keys_legacy {demangled : Text} :
    (qualifiedName demangled ∈ selector.keys allowLegacyShort .legacyQualified ∨
      extractFunctionName demangled ∈ selector.keys allowLegacyShort .legacyShort) ↔
      selector.legacyName allowLegacyShort ∧ legacyMatches selector demangled := by
  simp only [Selector.keys, legacyMatches]
  cases selector.legacyName allowLegacyShort <;> cases selector.isQualified <;> simp

omit [DecidableEq Owner] in
theorem batchTier_eq_directTier {name : Text}
    (reached : isMangled name → selector.completeSignature →
      fullSignatureMatches selector.symbol (env.demangle name) →
      equalNormalized selector.symbol (env.demangle name) ∨
        ∃ key ∈ signatureKeys (env.demangle name), key ∈ signatureKeys selector.symbol) :
    env.batchTier request selector name = env.directTier request selector name := by
  unfold batchTier directTier
  split
  · rfl
  split
  next mangled =>
    have full : (withoutSpace (env.demangle name) ∈ selector.keys request.allowLegacyShort .full ∨
        fullSignatureMatches selector.symbol (env.demangle name) ∧
          ∃ key ∈ signatureKeys (env.demangle name),
            key ∈ selector.keys request.allowLegacyShort .fullByName) ↔
        (selector.humanSignature ∧ equalNormalized selector.symbol (env.demangle name) ∨
          selector.completeSignature ∧
            fullSignatureMatches selector.symbol (env.demangle name)) := by
      simp only [mem_keys_full, mem_keys_fullByName]
      constructor
      · rintro (⟨human, same⟩ | ⟨isFull, _, _, complete, _⟩)
        · exact .inl ⟨human, by simp [equalNormalized, same]⟩
        · exact .inr ⟨complete, isFull⟩
      · rintro (⟨human, same⟩ | ⟨complete, isFull⟩)
        · exact .inl ⟨human, by simpa using Eq.symm (of_decide_eq_true same)⟩
        · rcases reached mangled complete isFull with same | ⟨key, isKey, isCommon⟩
          · exact .inl ⟨(Bool.and_eq_true_iff.mp complete).1, Eq.symm (of_decide_eq_true same)⟩
          · exact .inr ⟨isFull, key, isKey, complete, isCommon⟩
    simp only [demangledTier, full, mem_keys_legacy, and_left_comm]
  · rfl

end

end Peak.Target.Environment
