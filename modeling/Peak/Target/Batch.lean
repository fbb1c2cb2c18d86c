import Peak.Target.Resolve

/-!
# What a batch collects

For each selector, the pass over the indexes has the same effect as a test of every symbol
for itself, with a tier that depends only on the selector and the name of the symbol. A
selector is tested against a demangled name only if they have a key in common.
-/

namespace Peak.Target

open List

variable (found : List ℕ)

abbrev CandidateIdentity := ℕ × Text × Text

def SymbolCandidate.identity (candidate : SymbolCandidate) : CandidateIdentity :=
  (candidate.address, candidate.moduleName, candidate.demangled)

/-- A candidate is kept if it is the first of its identity. -/
abbrev keepNew : List SymbolCandidate → SymbolCandidate → List SymbolCandidate :=
  FirstKept.insertNew SymbolCandidate.identity

def signatureKeys (signature : Text) : List Text :=
  fullFunctionId signature :: identifierKeys signature

namespace Environment

variable {Owner : Type} [DecidableEq Owner] (env : Environment)

def shownName (name : Text) : Text :=
  if isMangled name then env.demangle name else name

def demangledTier (request : ResolveRequest Owner) (selector : Selector) (demangled : Text) :
    Option MatchTier :=
  let keys := selector.keys request.allowLegacyShort
  if withoutSpace demangled ∈ keys .full ∨
      fullSignatureMatches selector.symbol demangled ∧
        ∃ key ∈ signatureKeys demangled, key ∈ keys .fullByName then
    some .full
  else if ¬ isArtificialPrefix demangled ∧
      (qualifiedName demangled ∈ keys .legacyQualified ∨
        extractFunctionName demangled ∈ keys .legacyShort) then
    some .legacy
  else
    none

def batchTier (request : ResolveRequest Owner) (selector : Selector) (name : Text) :
    Option MatchTier :=
  if name = selector.symbol then some .exact
  else if isMangled name then demangledTier request selector (env.demangle name)
  else none

def requestMatches (request : ResolveRequest Owner) (selector : Selector) (path : Option Text) :
    Bool :=
  env.moduleMatches selector.moduleName path && env.moduleMatches request.modulePath path

def candidateOf (details : SymbolDetails) (name currentModule : Text) (tier : MatchTier) :
    SymbolCandidate where
  address := details.address
  size := details.size.toNat
  moduleName := currentModule
  mangled := name
  demangled := env.shownName name
  tier := tier

def batchEvent (request : ResolveRequest Owner) (selector : Selector) (currentModule : Text)
    (owner : Option Owner) (details : SymbolDetails) : Option SymbolCandidate :=
  match details.name with
  | none => none
  | some name =>
    if !details.isFunction || details.address = 0 then none
    else if env.requestMatches request selector (some currentModule) ∧
        (request.ownedModule = none ∨ owner = request.ownedModule) then
      (env.batchTier request selector name).map (env.candidateOf details name currentModule)
    else
      none

def visits (requests : List (ResolveRequest Owner)) (loaded : LoadedModule Owner) : Bool :=
  requests.any fun request =>
    (env.prepare request).any fun selector =>
      (loaded.owner = none ∨ request.ownedModule = none ∨ request.ownedModule = loaded.owner) ∧
        env.requestMatches request selector loaded.path

abbrev asksOwner (requests : List (ResolveRequest Owner)) : Bool :=
  requests.any fun request => request.ownedModule.isSome && (env.prepare request).isSome

def moduleEvents (requests : List (ResolveRequest Owner)) (request : ResolveRequest Owner)
    (selector : Selector) (loaded : LoadedModule Owner) : List SymbolCandidate :=
  if env.visits requests loaded then
    loaded.symbols.filterMap
      (env.batchEvent request selector (loaded.path.getD "<unknown>".toList) loaded.owner)
  else
    []

structure Belongs (request : ResolveRequest Owner) (selector : Selector)
    (context : CollectContext Owner) : Prop where
  selector : context.selector = selector
  modulePath : context.modulePath = request.modulePath
  plain : context.ordinaryFirstMatch = false
  owned : context.ownedModule = request.ownedModule

def offer (details : SymbolDetails) (name currentModule : Text) (owner : Option Owner)
    (tier : Option MatchTier) (context : CollectContext Owner) : CollectContext Owner :=
  tier.elim context fun tier =>
    env.collectCandidate details name (some (env.shownName name)) currentModule owner tier context

section

variable {env} {request : ResolveRequest Owner} {selector : Selector}
  {context : CollectContext Owner} {details : SymbolDetails} {name currentModule : Text}
  {owner : Option Owner}

section

variable (belongs : Belongs request selector context)

include belongs

omit [DecidableEq Owner] in
theorem Belongs.pathMatches (path : Option Text) :
    env.pathMatches context path = env.requestMatches request selector path := by
  rw [Environment.pathMatches, requestMatches, belongs.selector, belongs.modulePath]

theorem collectCandidate_eq (tier : MatchTier) :
    env.collectCandidate details name (some (env.shownName name)) currentModule owner tier
        context =
      if env.requestMatches request selector (some currentModule) ∧
          (request.ownedModule = none ∨ owner = request.ownedModule) then
        { context with
          candidates := keepNew context.candidates
            (env.candidateOf details name currentModule tier) }
      else
        context := by
  unfold collectCandidate
  rw [belongs.pathMatches, belongs.owned, belongs.plain]
  by_cases isModule : env.requestMatches request selector (some currentModule)
  · by_cases unowned : request.ownedModule = none
    · simp [isModule, unowned]
      rfl
    · by_cases isOwner : owner = request.ownedModule
      · simp [isModule, isOwner]
        rfl
      · simp [unowned, isOwner]
  · simp [isModule]

end

@[simp]
theorem offer_none : env.offer details name currentModule owner none context = context := rfl

theorem offer_some (tier : MatchTier) :
    env.offer details name currentModule owner (some tier) context =
      env.collectCandidate details name (some (env.shownName name)) currentModule owner tier
        context :=
  rfl

section

variable (belongs : Belongs request selector context)

include belongs

variable (env) in
theorem Belongs.offer (details : SymbolDetails)
    (name currentModule : Text) (owner : Option Owner) (tier : Option MatchTier) :
    Belongs request selector (env.offer details name currentModule owner tier context) := by
  cases tier with
  | none => exact belongs
  | some =>
    rw [offer_some, collectCandidate_eq belongs]
    split
    · exact { belongs with }
    · exact belongs

theorem offer_offer (first second : Option MatchTier) :
    env.offer details name currentModule owner second
        (env.offer details name currentModule owner first context) =
      env.offer details name currentModule owner (first.or second) context := by
  cases first with
  | none => rfl
  | some tier =>
    cases second with
    | none => rfl
    | some later =>
      have still := belongs.offer env details name currentModule owner (some tier)
      change _ = env.offer details name currentModule owner (some tier) context
      rw [offer_some later, collectCandidate_eq still, offer_some, collectCandidate_eq belongs]
      by_cases accepted : env.requestMatches request selector (some currentModule) ∧
          (request.ownedModule = none ∨ owner = request.ownedModule)
      · have present : (env.candidateOf details name currentModule later).identity ∈
            (keepNew context.candidates
              (env.candidateOf details name currentModule tier)).map
                SymbolCandidate.identity :=
          FirstKept.key_mem_insertNew _ _
        simp only [if_pos accepted, FirstKept.insertNew_of_mem present]
      · simp only [if_neg accepted]

theorem candidates_offer (tier : Option MatchTier) :
    (env.offer details name currentModule owner tier context).candidates =
      if env.requestMatches request selector (some currentModule) ∧
          (request.ownedModule = none ∨ owner = request.ownedModule) then
        (tier.map (env.candidateOf details name currentModule)).toList.foldl
          keepNew context.candidates
      else
        context.candidates := by
  cases tier with
  | none => simp
  | some =>
    rw [offer_some, collectCandidate_eq belongs]
    split <;> rfl

theorem offer_of_not_matches
    (other : env.requestMatches request selector (some currentModule) = false)
    (tier : Option MatchTier) :
    env.offer details name currentModule owner tier context = context := by
  cases tier with
  | none => rfl
  | some =>
    simp [offer_some, collectCandidate_eq belongs, other]

end

variable {contexts : List (Option (CollectContext Owner))} {number : ℕ}
variable {change : CollectContext Owner → CollectContext Owner} {tier : Option MatchTier}

theorem getElem?_forMatches (before tier : Option MatchTier)
    (belongs : Belongs request selector context) (isContext : contexts[number]? =
      some (some (env.offer details name currentModule owner before context)))
    (acts : number ∈ found → ∀ {context}, Belongs request selector context →
      change context = env.offer details name currentModule owner tier context) :
    (forMatches found change contexts)[number]? =
      some (some (env.offer details name currentModule owner
        (before.or (if number ∈ found then tier else none)) context)) := by
  induction found generalizing contexts before with
  | nil => simpa [forMatches] using isContext
  | cons other found ih =>
    change (forMatches found change (contexts.modify other (Option.map change)))[number]? = _
    by_cases same : other = number
    · subst same
      have changed : (contexts.modify other (Option.map change))[other]? =
          some (some (env.offer details name currentModule owner (before.or tier) context)) := by
        simp [isContext, acts mem_cons_self (belongs.offer env _ _ _ _ _), offer_offer belongs]
      rw [ih _ changed fun isFound => acts (.tail _ isFound), Option.or_assoc, if_pos mem_cons_self]
      congr 4
      split
      · cases tier <;> rfl
      · cases tier <;> rfl
    · have unchanged : (contexts.modify other (Option.map change))[number]? =
          some (some (env.offer details name currentModule owner before context)) := by
        simp [isContext, same]
      rw [ih _ unchanged fun isFound => acts (.tail _ isFound)]
      simp [Ne.symm same]

omit [DecidableEq Owner] in
theorem length_forMatches (change : CollectContext Owner → CollectContext Owner) :
    (forMatches found change contexts).length = contexts.length := by
  induction found generalizing contexts with
  | nil => rfl
  | cons other found ih =>
    change (forMatches found change (contexts.modify other (Option.map change))).length = _
    rw [ih, length_modify]

omit [DecidableEq Owner] in
theorem getElem?_forMatches_none (change : CollectContext Owner → CollectContext Owner)
    (isNone : contexts[number]? = some none) :
    (forMatches found change contexts)[number]? = some none := by
  induction found generalizing contexts with
  | nil => exact isNone
  | cons other _ ih =>
    apply ih
    by_cases same : other = number
    · simp [getElem?_modify, isNone]
    · simp [getElem?_modify, isNone]

theorem getElem?_foldl_forMatches {before : Option MatchTier} (found : Text → List ℕ)
    (keys : List Text) (belongs : Belongs request selector context)
    (isContext : contexts[number]? =
      some (some (env.offer details name currentModule owner before context)))
    (acts : ∀ {context}, Belongs request selector context →
      change context = env.offer details name currentModule owner tier context) :
    (keys.foldl (fun contexts key => forMatches (found key) change contexts) contexts)[number]? =
      some (some (env.offer details name currentModule owner
        (before.or (if ∃ key ∈ keys, number ∈ found key then tier else none)) context)) := by
  induction keys generalizing contexts before with
  | nil => simpa using isContext
  | cons key keys ih =>
    rw [foldl_cons, ih (getElem?_forMatches (found key) _ _ belongs isContext fun _ => acts),
      Option.or_assoc]
    congr 4
    by_cases here : number ∈ found key
    · by_cases later : ∃ key ∈ keys, number ∈ found key
      · cases tier <;> simp [here]
      · cases tier <;> simp [here]
    · simp [here]

theorem tiers_or (isNormalized byId byName isFull isQualified isShort natural : Prop)
    [Decidable isNormalized] [Decidable byId] [Decidable byName] [Decidable isFull]
    [Decidable isQualified] [Decidable isShort] [Decidable natural] :
    (if isNormalized then some MatchTier.full else none).or
      ((if byId then if isFull then some .full else none else none).or
        ((if byName then if isFull then some .full else none else none).or
          ((if natural ∧ isQualified then some .legacy else none).or
            (if natural ∧ isShort then some .legacy else none)))) =
      if isNormalized ∨ isFull ∧ (byId ∨ byName) then some .full
      else if natural ∧ (isQualified ∨ isShort) then some .legacy else none := by
  by_cases isNormalized
  · simp [*]
  · by_cases isFull
    · by_cases byId <;> by_cases byName <;> by_cases natural <;> by_cases isQualified <;>
        by_cases isShort <;> simp [*]
    · by_cases natural <;> by_cases isQualified <;> by_cases isShort <;> simp [*]

omit [DecidableEq Owner] in
theorem demangledTier_eq (request : ResolveRequest Owner) (selector : Selector) (demangled : Text) :
    demangledTier request selector demangled =
      if withoutSpace demangled ∈ selector.keys request.allowLegacyShort .full ∨
          fullSignatureMatches selector.symbol demangled ∧
            (fullFunctionId demangled ∈ selector.keys request.allowLegacyShort .fullByName ∨
              ∃ key ∈ identifierKeys demangled,
                key ∈ selector.keys request.allowLegacyShort .fullByName) then
        some .full
      else if isArtificialPrefix demangled = false ∧
          (qualifiedName demangled ∈ selector.keys request.allowLegacyShort .legacyQualified ∨
            extractFunctionName demangled ∈
              selector.keys request.allowLegacyShort .legacyShort) then
        some .legacy
      else
        none := by
  simp only [demangledTier, signatureKeys, exists_mem_cons_iff, Bool.not_eq_true]

variable {index : IndexKind → KeyIndex Text ℕ}

section

variable (indexed : ∀ kind key,
  number ∈ (index kind).lookup key ↔ key ∈ selector.keys request.allowLegacyShort kind)

include indexed

theorem getElem?_collectDemangled {before : Option MatchTier}
    (mangled : isMangled name)
    (belongs : Belongs request selector context) (isContext : contexts[number]? =
      some (some (env.offer details name currentModule owner before context))) :
    (env.collectDemangled index details name (env.demangle name) currentModule owner
        contexts)[number]? =
      some (some (env.offer details name currentModule owner
        (before.or (demangledTier request selector (env.demangle name))) context)) := by
  have shown : env.shownName name = env.demangle name := by simp [shownName, mangled]
  have collects : ∀ (tier : MatchTier) {context : CollectContext Owner},
      Belongs request selector context →
      env.collectCandidate details name (some (env.demangle name)) currentModule owner tier
        context = env.offer details name currentModule owner (some tier) context := by
    intro tier context _
    rw [offer_some, shown]
  have collectsFull : ∀ {context : CollectContext Owner}, Belongs request selector context →
      (if fullSignatureMatches context.selector.symbol (env.demangle name) then
        env.collectCandidate details name (some (env.demangle name)) currentModule owner .full
          context
      else context) = env.offer details name currentModule owner
        (if fullSignatureMatches selector.symbol (env.demangle name) then some .full else none)
        context := by
    intro context belongs
    rw [belongs.selector]
    split
    · exact collects .full belongs
    · rfl
  have full := getElem?_forMatches
    ((index .full).lookup (withoutSpace (env.demangle name))) _ _ belongs isContext
    fun _ => collects .full
  have byId := getElem?_forMatches
    ((index .fullByName).lookup (fullFunctionId (env.demangle name))) _ _ belongs full
    fun _ => collectsFull
  have byName := getElem?_foldl_forMatches (fun key => (index .fullByName).lookup key)
    (identifierKeys (env.demangle name)) belongs byId collectsFull
  have legacy : ∀ {before : Option MatchTier} {contexts : List (Option (CollectContext Owner))}
      (found : List ℕ),
      contexts[number]? = some (some (env.offer details name currentModule owner before context)) →
      ((if isArtificialPrefix (env.demangle name) then id else forMatches found
        (env.collectCandidate details name (some (env.demangle name)) currentModule owner .legacy))
          contexts)[number]? =
        some (some (env.offer details name currentModule owner (before.or
          (if isArtificialPrefix (env.demangle name) = false ∧ number ∈ found then some .legacy
          else none)) context)) := by
    intro before contexts found isContext
    cases artificial : isArtificialPrefix (env.demangle name) with
    | true => simpa using isContext
    | false =>
      simpa using getElem?_forMatches found _ _ belongs isContext fun _ => collects .legacy
  have qualified := legacy
    ((index .legacyQualified).lookup (qualifiedName (env.demangle name))) byName
  have short := legacy ((index .legacyShort).lookup (extractFunctionName (env.demangle name)))
    qualified
  simp only [indexed, Option.or_assoc, tiers_or] at short
  rw [demangledTier_eq]
  exact short

omit [DecidableEq Owner] in
theorem demangledTier_eq_none (empty : ∀ kind, kind ≠ .exact → index kind = []) (demangled : Text) :
    demangledTier request selector demangled = none := by
  have absent : ∀ kind key, kind ≠ .exact → key ∉ selector.keys request.allowLegacyShort kind := by
    intro kind key other isKey
    rw [← indexed, empty kind other] at isKey
    cases isKey
  simp [demangledTier_eq, absent]

end

omit [DecidableEq Owner] in
theorem exactMatchesCurrentModule_of_mem {found : List ℕ} (isFound : number ∈ found)
    (belongs : Belongs request selector context)
    (isContext : contexts[number]? = some (some context))
    (isModule : env.requestMatches request selector (some currentModule)) :
    env.exactMatchesCurrentModule contexts found currentModule := by
  unfold exactMatchesCurrentModule
  rw [any_eq_true]
  refine ⟨number, isFound, ?_⟩
  simp [isContext, belongs.pathMatches, isModule]

section

variable (indexed : ∀ kind key,
  number ∈ (index kind).lookup key ↔ key ∈ selector.keys request.allowLegacyShort kind)

include indexed

theorem getElem?_collectExact (belongs : Belongs request selector context)
    (isContext : contexts[number]? = some (some context)) {demangled : Option Text}
    (shown : demangled.getD name = env.shownName name) :
    (forMatches ((index .exact).lookup name)
        (env.collectCandidate details name demangled currentModule owner .exact)
        contexts)[number]? =
      some (some (env.offer details name currentModule owner
        (if name = selector.symbol then some .exact else none) context)) := by
  have acts : ∀ {context : CollectContext Owner}, Belongs request selector context →
      env.collectCandidate details name demangled currentModule owner .exact context =
        env.offer details name currentModule owner (some .exact) context := by
    intro context _
    rw [offer_some, collectCandidate, collectCandidate, shown, Option.getD_some]
  rw [getElem?_forMatches _ none _ belongs isContext fun _ => acts]
  simp [indexed, Selector.keys]

theorem getElem?_collectBatchSymbol_offer (belongs : Belongs request selector context)
    (isContext : contexts[number]? = some (some context)) (isName : details.name = some name)
    (isFunction : details.isFunction) (isPresent : details.address ≠ 0) :
    (env.collectBatchSymbol index currentModule owner contexts details)[number]? =
      some (some (env.offer details name currentModule owner
        (env.batchTier request selector name) context)) := by
  unfold collectBatchSymbol
  simp only [isName, isFunction, isPresent, Bool.not_true, Bool.false_or, decide_false,
    Bool.false_eq_true, if_false]
  by_cases mangled : isMangled name
  · by_cases used : (!((index .full).isEmpty && (index .fullByName).isEmpty &&
        (index .legacyQualified).isEmpty && (index .legacyShort).isEmpty) ||
        env.exactMatchesCurrentModule contexts ((index .exact).lookup name) currentModule) = true
    · have shown : (some (env.demangle name)).getD name = env.shownName name := by
        simp [shownName, mangled]
      simp only [mangled, used, Bool.true_and, if_true]
      rw [getElem?_collectDemangled indexed mangled belongs
        (getElem?_collectExact indexed belongs isContext shown)]
      by_cases isExact : name = selector.symbol
      · simp [batchTier, isExact]
      · simp [batchTier, isExact, mangled]
    · -- the name is not demangled, and it is no candidate either
      have skipped := Bool.not_eq_true _ ▸ used
      simp only [mangled, skipped, Bool.true_and, Bool.false_eq_true, if_false]
      simp only [Bool.or_eq_true, not_or, Bool.not_eq_true', Bool.not_eq_false,
        Bool.and_eq_true, List.isEmpty_iff] at used
      rcases used with ⟨⟨⟨⟨full, _⟩, _⟩, _⟩, unmatched⟩
      have empty : ∀ kind, kind ≠ .exact → index kind = [] := by
        intro kind other
        cases kind <;> first | assumption | exact absurd rfl other
      have isFound : number ∈ (index .exact).lookup name ↔ name = selector.symbol := by
        simp [indexed, Selector.keys]
      have other (isExact : name = selector.symbol) :
          env.requestMatches request selector (some currentModule) = false := by
        by_contra isModule
        exact unmatched (exactMatchesCurrentModule_of_mem (isFound.mpr isExact) belongs isContext
          (by simpa using isModule))
      change contexts[number]? =
        some (some (env.offer details name currentModule owner none context)) at isContext
      rw [getElem?_forMatches _ none none belongs isContext]
      · by_cases isExact : name = selector.symbol
        · rw [offer_of_not_matches belongs (other isExact),
            offer_of_not_matches belongs (other isExact)]
        · simp [batchTier, isExact, demangledTier_eq_none indexed empty]
      · intro found context belongs
        simp [collectCandidate, belongs.pathMatches, other (isFound.mp found)]
  · have shown : (none : Option Text).getD name = env.shownName name := by
      simp [shownName, mangled]
    simp only [mangled, Bool.false_and, Bool.false_eq_true, if_false]
    rw [getElem?_collectExact indexed belongs isContext shown]
    simp [batchTier, mangled]

theorem getElem?_collectBatchSymbol (belongs : Belongs request selector context)
    (isContext : contexts[number]? = some (some context)) :
    ∃ after, (env.collectBatchSymbol index currentModule owner contexts details)[number]? =
        some (some after) ∧ Belongs request selector after ∧
      after.candidates = (env.batchEvent request selector currentModule owner
        details).toList.foldl keepNew context.candidates := by
  cases isName : details.name with
  | none =>
    refine ⟨context, ?_, belongs, ?_⟩
    · simpa [collectBatchSymbol, isName] using isContext
    · simp [batchEvent, isName]
  | some =>
    by_cases ignored : !details.isFunction || details.address = 0
    · refine ⟨context, ?_, belongs, ?_⟩
      · simpa only [collectBatchSymbol, isName, if_pos ignored] using isContext
      · simp only [batchEvent, isName, if_pos ignored]
        rfl
    · have counts := ignored
      simp only [Bool.or_eq_true, not_or, Bool.not_eq_true', Bool.not_eq_false,
        decide_eq_true_eq] at counts
      refine ⟨_, getElem?_collectBatchSymbol_offer indexed belongs isContext isName counts.1
        counts.2, belongs.offer env _ _ _ _ _, ?_⟩
      rw [candidates_offer belongs]
      simp only [batchEvent, isName]
      split <;> rfl

end

end

omit [DecidableEq Owner] in
theorem mem_buildIndex (kind : IndexKind) (key : Text) (start found : ℕ)
    (requests : List (ResolveRequest Owner)) (index : KeyIndex Text ℕ) :
    found ∈ (env.buildIndex kind start requests index).lookup key ↔
      found ∈ index.lookup key ∨ ∃ offset request selector, requests[offset]? = some request ∧
        env.prepare request = some selector ∧ found = start + offset ∧
        key ∈ selector.keys request.allowLegacyShort kind := by
  induction requests generalizing start index with
  | nil => simp [buildIndex]
  | cons request _ ih =>
    have added : found ∈ KeyIndex.lookup ((env.prepare request).elim index fun selector =>
        index.addAll (selector.keys request.allowLegacyShort kind) start) key ↔
        found ∈ index.lookup key ∨ ∃ selector, env.prepare request = some selector ∧
          found = start ∧ key ∈ selector.keys request.allowLegacyShort kind := by
      cases env.prepare request with
      | none => simp
      | some => simp [KeyIndex.mem_lookup_addAll, and_comm]
    rw [buildIndex, ih, added, or_assoc]
    refine or_congr_right ⟨?_, ?_⟩
    · rintro (⟨selector, isPrepared, rfl, isKey⟩ |
        ⟨offset, later, selector, isRequest, isPrepared, rfl, isKey⟩)
      · exact ⟨0, request, selector, rfl, isPrepared, rfl, isKey⟩
      · exact ⟨offset + 1, later, selector, isRequest, isPrepared, by omega, isKey⟩
    · rintro ⟨offset, later, selector, isRequest, isPrepared, rfl, isKey⟩
      cases offset with
      | zero =>
        cases isRequest
        exact .inl ⟨selector, isPrepared, rfl, isKey⟩
      | succ offset =>
        exact .inr ⟨offset, later, selector, isRequest, isPrepared, by omega, isKey⟩

omit [DecidableEq Owner] in
theorem mem_lookup_buildIndex {requests : List (ResolveRequest Owner)} {number : ℕ}
    {request : ResolveRequest Owner} {selector : Selector}
    (isRequest : requests[number]? = some request)
    (isPrepared : env.prepare request = some selector) (kind : IndexKind) (key : Text) :
    number ∈ (env.buildIndex kind 0 requests []).lookup key ↔
      key ∈ selector.keys request.allowLegacyShort kind := by
  rw [mem_buildIndex]
  constructor
  · rintro (isFound | ⟨offset, other, otherSelector, isOther, otherPrepared, same, isKey⟩)
    · cases isFound
    · rw [Nat.zero_add] at same
      subst same
      cases isRequest.symm.trans isOther
      cases isPrepared.symm.trans otherPrepared
      exact isKey
  · intro isKey
    exact .inr ⟨number, request, selector, isRequest, isPrepared, (Nat.zero_add number).symm, isKey⟩

/-- The contexts belong to the requests, and their candidates are known. -/
structure Tracks (requests : List (ResolveRequest Owner))
    (contexts : List (Option (CollectContext Owner)))
    (collected : ResolveRequest Owner → Selector → List SymbolCandidate) : Prop where
  length : contexts.length = requests.length
  absent : ∀ (number : ℕ) request, requests[number]? = some request → env.prepare request = none →
    contexts[number]? = some none
  present : ∀ (number : ℕ) request selector, requests[number]? = some request →
    env.prepare request = some selector → ∃ context, contexts[number]? = some (some context) ∧
      Belongs request selector context ∧ context.candidates = collected request selector

section

variable {env} {requests : List (ResolveRequest Owner)}
  {contexts : List (Option (CollectContext Owner))}
  {collected : ResolveRequest Owner → Selector → List SymbolCandidate}

theorem collectBatchSymbol_preserves {motive : List (Option (CollectContext Owner)) → Prop}
    (kept : ∀ {contexts} found change, motive contexts → motive (forMatches found change contexts))
    (index : IndexKind → KeyIndex Text ℕ) (currentModule : Text) (owner : Option Owner)
    (details : SymbolDetails) (holds : motive contexts) :
    motive (env.collectBatchSymbol index currentModule owner contexts details) := by
  have folded : ∀ {contexts} (keys : List Text) (found : Text → List ℕ) change, motive contexts →
      motive (keys.foldl (fun contexts key => forMatches (found key) change contexts)
        contexts) := by
    intro contexts keys found change
    induction keys generalizing contexts with
    | nil => exact id
    | cons _ _ ih => exact fun holds => ih (kept _ _ holds)
  have demangled : ∀ {contexts} name demangled, motive contexts →
      motive (env.collectDemangled index details name demangled currentModule owner contexts) := by
    intro contexts name demangled holds
    unfold collectDemangled
    cases isArtificialPrefix demangled with
    | true => exact folded _ _ _ (kept _ _ (kept _ _ holds))
    | false => exact kept _ _ (kept _ _ (folded _ _ _ (kept _ _ (kept _ _ holds))))
  unfold collectBatchSymbol
  split
  · exact holds
  · split
    · exact holds
    · simp only []
      split
      · exact kept _ _ holds
      · exact demangled _ _ (kept _ _ holds)

section

variable (tracks : env.Tracks requests contexts collected)

include tracks

theorem Tracks.symbol (currentModule : Text)
    (owner : Option Owner) (details : SymbolDetails) :
    env.Tracks requests
      (env.collectBatchSymbol (fun kind => env.buildIndex kind 0 requests []) currentModule owner
        contexts details)
      (fun request selector => (env.batchEvent request selector currentModule owner
        details).toList.foldl keepNew (collected request selector)) where
  length := by
    apply collectBatchSymbol_preserves (motive := fun after => after.length = requests.length)
    · intro contexts found change same
      rw [length_forMatches, same]
    · exact tracks.length
  absent := by
    intro number request isRequest isAbsent
    apply collectBatchSymbol_preserves (motive := fun after => after[number]? = some none)
    · intro contexts found change isNone
      exact getElem?_forMatches_none found change isNone
    · exact tracks.absent number request isRequest isAbsent
  present := by
    intro number request selector isRequest isPrepared
    rcases tracks.present number request selector isRequest isPrepared with
      ⟨_, isContext, belongs, same⟩
    rw [← same]
    exact getElem?_collectBatchSymbol
      (fun kind key => env.mem_lookup_buildIndex isRequest isPrepared kind key) belongs isContext

theorem Tracks.symbols (currentModule : Text)
    (owner : Option Owner) (symbols : List SymbolDetails) :
    env.Tracks requests
      (symbols.foldl (env.collectBatchSymbol (fun kind => env.buildIndex kind 0 requests [])
        currentModule owner) contexts)
      (fun request selector => (symbols.filterMap (env.batchEvent request selector currentModule
        owner)).foldl keepNew (collected request selector)) := by
  induction symbols generalizing contexts collected with
  | nil => exact tracks
  | cons details _ ih =>
    have next := ih (tracks.symbol currentModule owner details)
    rw [foldl_cons]
    convert next using 3 with request selector
    cases event : env.batchEvent request selector currentModule owner details <;>
      simp [event]

omit [DecidableEq Owner] in
theorem Tracks.map {change : CollectContext Owner → CollectContext Owner}
    (belongs : ∀ {request selector context}, Belongs request selector context →
      Belongs request selector (change context))
    (candidates : ∀ context, (change context).candidates = context.candidates) :
    env.Tracks requests (contexts.map (Option.map change)) collected where
  length := by rw [length_map, tracks.length]
  absent := by
    intro number request isRequest isAbsent
    simp [tracks.absent number request isRequest isAbsent]
  present := by
    intro number request selector isRequest isPrepared
    rcases tracks.present number request selector isRequest isPrepared with
      ⟨context, isContext, isBelonging, same⟩
    refine ⟨change context, ?_, belongs isBelonging, ?_⟩
    · simp [isContext]
    · rw [candidates, same]

end

theorem ownedModule_iff {request : ResolveRequest Owner} {selector : Selector}
    (isRequest : request ∈ requests) (isPrepared : env.prepare request = some selector)
    (loaded : LoadedModule Owner) (moduleOwner : Option Owner)
    (asked : moduleOwner = if env.asksOwner requests then loaded.owner else none) :
    ¬ (moduleOwner ≠ none ∧ request.ownedModule ≠ none ∧ request.ownedModule ≠ moduleOwner) ↔
      loaded.owner = none ∨ request.ownedModule = none ∨ request.ownedModule = loaded.owner := by
  cases owned : request.ownedModule with
  | none => simp
  | some =>
    have needed : env.asksOwner requests := by
      rw [any_eq_true]
      exact ⟨request, isRequest, by simp [owned, isPrepared]⟩
    rw [if_pos needed] at asked
    subst asked
    simp
    tauto

section

variable (tracks : env.Tracks requests contexts collected)

include tracks

theorem Tracks.batchModuleIsApplicable (loaded : LoadedModule Owner) (moduleOwner : Option Owner)
    (asked : moduleOwner = if env.asksOwner requests then loaded.owner else none) :
    env.batchModuleIsApplicable contexts loaded.path moduleOwner = env.visits requests loaded := by
  rw [Bool.eq_iff_iff]
  simp only [Environment.batchModuleIsApplicable, visits, any_eq_true, Option.any_eq_true,
    Bool.and_eq_true, Bool.not_eq_true', decide_eq_false_iff_not, decide_eq_true_eq]
  constructor
  · rintro ⟨_, isContext, _, rfl, unowned, isModule⟩
    rcases mem_iff_getElem?.mp isContext with ⟨number, isContext⟩
    have bound : number < requests.length := by
      rw [← tracks.length]
      exact (List.getElem?_eq_some_iff.mp isContext).1
    have isRequest := getElem?_eq_getElem bound
    cases isPrepared : env.prepare requests[number] with
    | none => cases isContext.symm.trans (tracks.absent number _ isRequest isPrepared)
    | some selector =>
      rcases tracks.present number _ selector isRequest isPrepared with
        ⟨_, isSame, belongs, _⟩
      cases isContext.symm.trans isSame
      have isMember := getElem_mem bound
      rw [belongs.owned] at unowned
      rw [belongs.pathMatches] at isModule
      exact ⟨requests[number], isMember, selector, isPrepared,
        (ownedModule_iff isMember isPrepared loaded moduleOwner asked).mp unowned, isModule⟩
  · rintro ⟨request, isMember, selector, isPrepared, unowned, isModule⟩
    rcases mem_iff_getElem?.mp isMember with ⟨number, isRequest⟩
    rcases tracks.present number request selector isRequest isPrepared with
      ⟨context, isContext, belongs, _⟩
    refine ⟨some context, mem_iff_getElem?.mpr ⟨number, isContext⟩, context, rfl, ?_, ?_⟩
    · rw [belongs.owned]
      exact (ownedModule_iff isMember isPrepared loaded moduleOwner asked).mpr unowned
    · rw [belongs.pathMatches]
      exact isModule

theorem Tracks.module (loaded : LoadedModule Owner) :
    env.Tracks requests
      (env.collectBatchModule (fun kind => env.buildIndex kind 0 requests [])
        (env.asksOwner requests) contexts loaded)
      (fun request selector => (env.moduleEvents requests request selector loaded).foldl keepNew
        (collected request selector)) := by
  unfold collectBatchModule
  simp only []
  generalize asked : (if env.asksOwner requests then loaded.owner else none) = moduleOwner
  have seen : env.Tracks requests (contexts.map (Option.map fun context =>
      if context.ownedModule ≠ none ∧ context.ownedModule = moduleOwner then
        { context with ownedModuleSeen := true }
      else context)) collected := by
    apply tracks.map
    · intro request selector context belongs
      split
      · exact { belongs with }
      · exact belongs
    · intro context
      split <;> rfl
  rw [seen.batchModuleIsApplicable loaded moduleOwner asked.symm]
  cases visited : env.visits requests loaded with
  | false => simpa [moduleEvents, visited] using seen
  | true =>
    simp only [moduleEvents, visited]
    apply Tracks.symbols
    apply seen.map
    · intro request selector context belongs
      split
      · exact { belongs with }
      · exact belongs
    · intro context
      split <;> rfl

theorem Tracks.modules (modules : List (LoadedModule Owner)) :
    env.Tracks requests
      (modules.foldl (env.collectBatchModule (fun kind => env.buildIndex kind 0 requests [])
        (env.asksOwner requests)) contexts)
      (fun request selector => (modules.flatMap (env.moduleEvents requests request
        selector)).foldl keepNew (collected request selector)) := by
  induction modules generalizing contexts collected with
  | nil => exact tracks
  | cons loaded _ ih =>
    simp only [flatMap_cons, foldl_append]
    exact ih (tracks.module loaded)

end

theorem tracks_collectAll (plain : ∀ request ∈ requests, request.ordinaryFirstMatch = false)
    (modules : List (LoadedModule Owner)) :
    env.Tracks requests (env.collectAll requests modules) (fun request selector =>
      (modules.flatMap (env.moduleEvents requests request selector)).foldl keepNew []) := by
  have start : env.Tracks requests
      (requests.map fun request => (env.prepare request).map (newContext request))
      (fun _ _ => []) := by
    constructor
    · exact length_map ..
    · intro number request isRequest isAbsent
      simp [isRequest, isAbsent]
    · intro number request selector isRequest isPrepared
      refine ⟨newContext request selector, ?_, ?_, rfl⟩
      · simp [isRequest, isPrepared]
      · exact ⟨rfl, rfl, plain request (mem_iff_getElem?.mpr ⟨number, isRequest⟩), rfl⟩
  exact start.modules modules

end

end Environment

end Peak.Target
