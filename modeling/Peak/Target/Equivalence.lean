import Peak.Target.Exhaustive

/-!
# The batch and exhaustive matching

The candidates of a batch are the first ones of each identity in a list of events. If
the selectors are resolvable, these are the events of exhaustive matching.
-/

namespace Peak.Target.Environment

open SymbolCandidate List FirstKept

variable {Owner : Type} [DecidableEq Owner] {env : Environment}

theorem toFinset_finalize_foldl {events : List SymbolCandidate}
    (uniform : ∀ left ∈ events, ∀ right ∈ events, left.identity = right.identity →
      left.tier = right.tier) :
    ((finalize (events.foldl keepNew [])).map
      identity).toFinset =
      ((events.filter fun candidate => events.all fun other =>
        candidate.tier.rank ≤ other.tier.rank).map identity).toFinset := by
  have represented : ∀ event ∈ events,
      ∃ kept ∈ events.foldl keepNew [], kept.identity = event.identity :=
    fun event isEvent => exists_mem_foldl isEvent
  ext identity
  simp only [mem_toFinset, mem_map, mem_finalize, mem_filter, all_eq_true, decide_eq_true_eq]
  constructor
  · rintro ⟨candidate, ⟨isKept, best⟩, rfl⟩
    refine ⟨candidate, ⟨mem_of_mem_foldl isKept, ?_⟩, rfl⟩
    intro other isOther
    rcases represented other isOther with ⟨kept, keptOther, same⟩
    rw [← uniform kept (mem_of_mem_foldl keptOther) other isOther same]
    exact best kept keptOther
  · rintro ⟨candidate, ⟨isEvent, best⟩, rfl⟩
    rcases represented candidate isEvent with ⟨kept, isKept, same⟩
    refine ⟨kept, ⟨isKept, ?_⟩, same⟩
    intro other isOther
    rw [uniform kept (mem_of_mem_foldl isKept) candidate isEvent same]
    exact best other (mem_of_mem_foldl isOther)

section

variable {requests : List (ResolveRequest Owner)} {request : ResolveRequest Owner}
  {selector : Selector} {loaded : LoadedModule Owner} {modules : List (LoadedModule Owner)}

omit [DecidableEq Owner] in
theorem requestMatches_of_none (isModule : env.requestMatches request selector none)
    (path : Option Text) : env.requestMatches request selector path := by
  have any : ∀ {requested : Option Text}, env.moduleMatches requested none →
      env.moduleMatches requested path := by
    intro requested isAccepted
    cases requested with
    | none => simp [moduleMatches]
    | some => simp [moduleMatches] at isAccepted
  simp only [requestMatches, Bool.and_eq_true] at isModule ⊢
  exact ⟨any isModule.1, any isModule.2⟩

omit [DecidableEq Owner] in
theorem requestMatches_getD (isModule : env.requestMatches request selector loaded.path)
    (shown : Text) : env.requestMatches request selector (some (loaded.path.getD shown)) := by
  cases isPath : loaded.path with
  | none => exact requestMatches_of_none (isPath ▸ isModule) _
  | some => exact isPath ▸ isModule

omit [DecidableEq Owner] in
theorem prepare_eq_some : env.prepare request = some selector ↔
    (request.ownedModule = none ∨ env.ownedResolutionAvailable) ∧
      parseSelector request.selector = some selector := by
  rw [prepare, Option.ite_none_left_eq_some]
  simp [or_iff_not_imp_left]

theorem visits_of_accepts (isRequest : request ∈ requests)
    (prepared : env.prepare request = some selector)
    (accepted : env.accepts request selector loaded) : env.visits requests loaded := by
  simp only [accepts, decide_eq_true_eq] at accepted
  rcases accepted with ⟨isModule, owned⟩
  simp only [visits, any_eq_true]
  refine ⟨request, isRequest, ?_⟩
  simp only [prepared, Option.any_some, decide_eq_true_eq]
  refine ⟨?_, isModule⟩
  rcases owned with unowned | ⟨_, isOwner⟩
  · exact .inr (.inl unowned)
  · exact .inr (.inr isOwner.symm)

omit [DecidableEq Owner] in
theorem mem_functionNames {address : ℕ} {name : Text} (isLoaded : loaded ∈ modules)
    {details : SymbolDetails} (isDetails : details ∈ loaded.symbols)
    (isFunction : ¬ (!details.isFunction || details.address = 0))
    (isName : details.name = some name) (isAddress : details.address = address) :
    (address, name) ∈ functionNames modules := by
  refine mem_flatMap.mpr ⟨loaded, isLoaded, mem_filterMap.mpr ⟨details, isDetails, ?_⟩⟩
  rw [if_neg isFunction, isName, isAddress, Option.map_some]

theorem moduleEvents_of_accepts
    (tierEq : ∀ named ∈ functionNames [loaded],
      env.batchTier request selector named.2 = env.directTier request selector named.2)
    (isRequest : request ∈ requests) (prepared : env.prepare request = some selector)
    (accepted : env.accepts request selector loaded) :
    env.moduleEvents requests request selector loaded =
      loaded.symbols.filterMap
        (env.directEvent request selector (loaded.path.getD "<unknown>".toList)) := by
  rw [moduleEvents, if_pos (visits_of_accepts isRequest prepared accepted)]
  rw [accepts, decide_eq_true_eq] at accepted
  rcases accepted with ⟨isModule, owned⟩
  have isOwner : request.ownedModule = none ∨ loaded.owner = request.ownedModule :=
    owned.imp_right And.right
  refine filterMap_congr fun details isMember => ?_
  unfold batchEvent directEvent
  cases isName : details.name with
  | none => rfl
  | some name =>
    simp only [requestMatches_getD isModule, isOwner, and_self, if_true]
    split
    · rfl
    next isFunction =>
      rw [tierEq _ (mem_functionNames (mem_singleton_self _) isMember isFunction isName rfl)]

section

variable (resolvable : env.Resolvable requests modules request selector)

include resolvable

theorem batchEvent_of_not_accepts (isLoaded : loaded ∈ modules)
    (prepared : env.prepare request = some selector)
    (rejected : ¬ env.accepts request selector loaded) (visited : env.visits requests loaded)
    (details : SymbolDetails) :
    env.batchEvent request selector (loaded.path.getD "<unknown>".toList) loaded.owner details =
      none := by
  simp only [accepts, decide_eq_true_eq, not_and] at rejected
  have notBoth : ¬ (env.requestMatches request selector
      (some (loaded.path.getD "<unknown>".toList)) ∧
      (request.ownedModule = none ∨ loaded.owner = request.ownedModule)) := by
    rintro ⟨isModule, isOwner⟩
    have owned : request.ownedModule = none ∨
        env.ownedResolutionAvailable ∧ loaded.owner = request.ownedModule := by
      rcases isOwner with unowned | isOwner
      · exact .inl unowned
      · exact (prepare_eq_some.mp prepared).1.imp_right fun available => ⟨available, isOwner⟩
    refine rejected ?_ owned
    cases isPath : loaded.path with
    | some =>
      rw [isPath] at isModule
      exact isModule
    | none =>
      -- the module is visited for another request which accepts it
      rw [isPath] at isModule
      exact resolvable.pathless loaded isLoaded isPath visited isModule
  unfold batchEvent
  cases details.name with
  | none => rfl
  | some => simp only [if_neg notBoth, ite_self]

theorem moduleEvents_eq
    (isRequest : request ∈ requests) (prepared : env.prepare request = some selector)
    (isLoaded : loaded ∈ modules) :
    env.moduleEvents requests request selector loaded =
      if env.accepts request selector loaded then
        loaded.symbols.filterMap
          (env.directEvent request selector (loaded.path.getD "<unknown>".toList))
      else
        [] := by
  by_cases accepted : env.accepts request selector loaded
  · rw [if_pos accepted]
    refine moduleEvents_of_accepts (fun named isNamed => ?_) isRequest prepared accepted
    refine batchTier_eq_directTier fun mangled complete isFull => ?_
    by_cases same : equalNormalized selector.symbol (env.demangle named.2)
    · exact .inl same
    · have isAccepted : named ∈ functionNames (modules.filter (env.accepts request selector)) := by
        rw [functionNames, flatMap_singleton] at isNamed
        exact mem_flatMap.mpr ⟨loaded, mem_filter.mpr ⟨isLoaded, accepted⟩, isNamed⟩
      exact .inr (exists_common_key resolvable.terminated isFull same
        (resolvable.spelled complete named isAccepted mangled isFull same))
  · rw [if_neg accepted, moduleEvents]
    by_cases visited : env.visits requests loaded
    · rw [if_pos visited]
      exact filterMap_eq_nil_iff.mpr fun details _ =>
        batchEvent_of_not_accepts resolvable isLoaded prepared accepted visited details
    · rw [if_neg visited]

end

/-- The candidate is the symbol of one of the modules, with the name. -/
structure Stems (env : Environment) (request : ResolveRequest Owner) (selector : Selector)
    (modules : List (LoadedModule Owner)) (candidate : SymbolCandidate) (name : Text) : Prop where
  symbol : (candidate.address, name) ∈ functionNames modules
  shown : candidate.demangled = env.shownName name
  tier : env.directTier request selector name = some candidate.tier

theorem exists_stems {candidate : SymbolCandidate}
    (isEvent : candidate ∈ env.directEvents request selector modules) :
    ∃ name, Stems env request selector modules candidate name := by
  rcases mem_flatMap.mp isEvent with ⟨loaded, isLoaded, isEvent⟩
  by_cases accepted : env.accepts request selector loaded
  · rw [if_pos accepted] at isEvent
    rcases mem_filterMap.mp isEvent with ⟨details, isMember, isEvent⟩
    unfold directEvent at isEvent
    cases isName : details.name with
    | none => simp [isName] at isEvent
    | some name =>
      simp only [isName] at isEvent
      split at isEvent
      · cases isEvent
      next isFunction =>
        rcases Option.map_eq_some_iff.mp isEvent with ⟨_, isTier, rfl⟩
        exact ⟨name, mem_functionNames isLoaded isMember isFunction isName rfl, rfl, isTier⟩
  · rw [if_neg accepted] at isEvent
    cases isEvent

omit [DecidableEq Owner] in
/-- A symbol matches by its demangled name only if the selector is not mangled. -/
theorem isMangled_of_directTier {name : Text} {tier : MatchTier}
    (different : name ≠ selector.symbol)
    (isTier : env.directTier request selector name = some tier) :
    isMangled name ∧ isMangled selector.symbol = false := by
  rw [directTier, if_neg different] at isTier
  split at isTier
  next mangled =>
    refine ⟨mangled, ?_⟩
    by_contra symbolMangled
    rw [Bool.not_eq_false] at symbolMangled
    have notHuman : selector.humanSignature = false := by
      simp [Selector.humanSignature, symbolMangled]
    simp [notHuman, Selector.completeSignature, Selector.legacyName, symbolMangled] at isTier
  · cases isTier

section

variable {left right : SymbolCandidate} {name other : Text}

/-- A symbol that is called as the selector is not taken for one with another name. -/
theorem Resolvable.eq_symbol (resolvable : env.Resolvable requests modules request selector)
    (isLeft : Stems env request selector modules left selector.symbol)
    (isRight : Stems env request selector modules right other)
    (same : left.identity = right.identity) : other = selector.symbol := by
  by_contra different
  rcases isMangled_of_directTier different isRight.tier with ⟨mangled, unmangled⟩
  have shown : env.shownName selector.symbol = env.shownName other := by
    rw [← isLeft.shown, ← isRight.shown]
    exact congrArg (·.2.2) same
  simp only [shownName, unmangled, mangled, if_true, Bool.false_eq_true, if_false] at shown
  exact resolvable.separate unmangled _ isLeft.symbol _ isRight.symbol rfl mangled shown.symm
    (congrArg (·.1) same)

theorem Resolvable.tier_eq (resolvable : env.Resolvable requests modules request selector)
    (isLeft : left ∈ env.directEvents request selector modules)
    (isRight : right ∈ env.directEvents request selector modules)
    (same : left.identity = right.identity) : left.tier = right.tier := by
  rcases exists_stems isLeft with ⟨name, leftStems⟩
  rcases exists_stems isRight with ⟨other, rightStems⟩
  suffices tiers : env.directTier request selector name = env.directTier request selector other by
    rw [leftStems.tier, rightStems.tier] at tiers
    exact Option.some.inj tiers
  by_cases isExact : name = selector.symbol
  · subst isExact
    rw [resolvable.eq_symbol leftStems rightStems same]
  · have different : other ≠ selector.symbol := by
      rintro rfl
      exact isExact (resolvable.eq_symbol rightStems leftStems same.symm)
    have mangled := (isMangled_of_directTier isExact leftStems.tier).1
    have otherMangled := (isMangled_of_directTier different rightStems.tier).1
    have shown : env.shownName name = env.shownName other := by
      rw [← leftStems.shown, ← rightStems.shown]
      exact congrArg (·.2.2) same
    simp only [shownName, mangled, otherMangled, if_true] at shown
    simp only [directTier, isExact, different, mangled, otherMangled, shown]

end

end

section

variable {requests : List (ResolveRequest Owner)} {request : ResolveRequest Owner}
  {selector : Selector} {modules : List (LoadedModule Owner)} {number : ℕ}

variable (plain : ∀ request ∈ requests, request.ordinaryFirstMatch = false)

include plain

theorem resolveMany_of_prepare (isRequest : requests[number]? = some request)
    (prepared : env.prepare request = some selector) :
    ∃ resolution, (env.resolveMany requests modules)[number]? = some resolution ∧
      resolution.candidates = finalize ((modules.flatMap
        (env.moduleEvents requests request selector)).foldl keepNew []) ∧
      resolution.result = resultOfSize resolution.candidates.length := by
  rcases (env.tracks_collectAll plain modules).present number request selector isRequest prepared
    with ⟨context, isContext, _, candidates⟩
  have looked : ¬ requests.all fun request => (env.prepare request).isNone := by
    rw [all_eq_true]
    intro all
    have isNone := all request (mem_of_getElem? isRequest)
    rw [prepared] at isNone
    cases isNone
  refine ⟨env.resolution request (some context), ?_, congrArg finalize candidates, rfl⟩
  rw [resolveMany, if_neg looked, getElem?_zipWith, isRequest, isContext]

theorem resolveMany_of_prepare_none
    (isRequest : requests[number]? = some request) (unprepared : env.prepare request = none) :
    (env.resolveMany requests modules)[number]? = some (env.resolution request none) := by
  have isContext := (env.tracks_collectAll plain modules).absent number request isRequest unprepared
  rw [resolveMany]
  split
  · rw [getElem?_map, isRequest, Option.map_some]
  · rw [getElem?_zipWith, isRequest, isContext]

omit plain in
theorem exhaustive_of_unavailable (owned : request.ownedModule ≠ none)
    (unavailable : env.ownedResolutionAvailable = false) :
    env.exhaustive request selector modules = ∅ := by
  have rejects : ∀ loaded, env.accepts request selector loaded = false := by
    intro loaded
    simp [accepts, owned, unavailable]
  have empty : env.directEvents request selector modules = [] := by
    simp [directEvents, rejects]
  simp [exhaustive, empty]

end

def functionAt (name : Text) (address : ℕ) : SymbolDetails where
  isFunction := true
  name := some name
  address := address
  size := 0

def requestOf (selector : String) : ResolveRequest ℕ where
  selector := selector.toList
  modulePath := none
  allowLegacyShort := true
  ordinaryFirstMatch := false
  ownedModule := none

/-- Two functions with a return type, and the two names of a constructor. -/
def templateEnvironment : Environment where
  realpath := some
  demangle := fun name =>
    (([("_ZN2ns1fIiEEP1Ac", "A* ns::f<int>(char)"), ("_ZplIiE1AS0_T_", "A operator+<int>(A, int)"),
        ("_ZN1AC1Ev", "A::A()"), ("_ZN1AC2Ev", "A::A()")].find? fun entry =>
      entry.1.toList = name).map (·.2.toList)).getD name
  ownedResolutionAvailable := true

def templateModule : LoadedModule ℕ where
  path := some "/usr/lib/libmy.so".toList
  owner := none
  symbols := [functionAt "_ZN2ns1fIiEEP1Ac".toList 4096, functionAt "_ZplIiE1AS0_T_".toList 4352,
    functionAt "_ZN1AC1Ev".toList 4608, functionAt "_ZN1AC2Ev".toList 4608]

def templateRequests : List (ResolveRequest ℕ) :=
  ["ns::f<int>(char)", "operator+<int>(A,int)", "A::A()"].map requestOf

/-- The return type of the function ends in `operator`. -/
def operatorEnvironment : Environment where
  realpath := some
  demangle := fun name =>
    if name = "_ZplIiE11my_operatorIT_ES1_".toList then
      "my_operator<int> operator+<int>(int)".toList
    else
      name
  ownedResolutionAvailable := true

def operatorModule : LoadedModule ℕ where
  path := some "/usr/lib/libmy.so".toList
  owner := none
  symbols := [functionAt "_ZplIiE11my_operatorIT_ES1_".toList 4096]

section Alone

variable {requests : List (ResolveRequest Owner)} {request : ResolveRequest Owner}
  {selector : Selector} {modules : List (LoadedModule Owner)} {number : ℕ}

theorem visits_of_batchEvent (prepared : env.prepare request = some selector)
    {loaded : LoadedModule Owner} {path : Text} (isPath : loaded.path = some path)
    {details : SymbolDetails} {candidate : SymbolCandidate}
    (isEvent : env.batchEvent request selector path loaded.owner details = some candidate)
    (isMember : request ∈ requests) : env.visits requests loaded := by
  have accepted : env.requestMatches request selector (some path) ∧
      (request.ownedModule = none ∨ loaded.owner = request.ownedModule) := by
    by_contra refused
    simp only [batchEvent, if_neg refused, ite_self] at isEvent
    split at isEvent <;> cases isEvent
  rw [visits, any_eq_true]
  refine ⟨request, isMember, ?_⟩
  rcases accepted with ⟨isAccepted, owned | owned⟩ <;> simp [prepared, isPath, owned, isAccepted]

/-- A module with a path is visited for each request that finds a symbol in it. -/
theorem moduleEvents_eq_alone (isMember : request ∈ requests)
    (prepared : env.prepare request = some selector) {loaded : LoadedModule Owner}
    (located : loaded.path.isSome) :
    env.moduleEvents requests request selector loaded =
      env.moduleEvents [request] request selector loaded := by
  rcases Option.isSome_iff_exists.mp located with ⟨path, isPath⟩
  simp only [moduleEvents, isPath, Option.getD_some]
  cases found : loaded.symbols.filterMap (env.batchEvent request selector path loaded.owner) with
  | nil => simp only [ite_self]
  | cons candidate =>
    have isFound : candidate ∈ loaded.symbols.filterMap
        (env.batchEvent request selector path loaded.owner) := by simp [found]
    rcases mem_filterMap.mp isFound with ⟨details, _, isEvent⟩
    rw [if_pos (visits_of_batchEvent prepared isPath isEvent isMember),
      if_pos (visits_of_batchEvent prepared isPath isEvent (mem_singleton_self request))]

/-- Where every module has a path, a request finds in a batch what it finds alone. -/
theorem resolveMany_eq_alone (plain : ∀ request ∈ requests, request.ordinaryFirstMatch = false)
    (located : ∀ loaded ∈ modules, loaded.path.isSome)
    (isRequest : requests[number]? = some request) :
    (env.resolveMany requests modules)[number]?.map
        (fun found => (found.candidates, found.result)) =
      (env.resolveMany [request] modules)[0]?.map
        fun found => (found.candidates, found.result) := by
  have isMember := mem_of_getElem? isRequest
  have plainAlone : ∀ other ∈ [request], other.ordinaryFirstMatch = false := by
    simpa using plain request isMember
  have isFirst : [request][0]? = some request := rfl
  cases prepared : env.prepare request with
  | none =>
    rw [resolveMany_of_prepare_none plain isRequest prepared,
      resolveMany_of_prepare_none plainAlone isFirst prepared]
  | some selector =>
    rcases resolveMany_of_prepare plain isRequest prepared with ⟨_, inBatch, candidates, result⟩
    rcases resolveMany_of_prepare plainAlone isFirst prepared with
      ⟨_, alone, candidatesAlone, resultAlone⟩
    have same : modules.flatMap (env.moduleEvents requests request selector) =
        modules.flatMap (env.moduleEvents [request] request selector) := by
      apply flatMap_congr
      intro loaded isLoaded
      exact moduleEvents_eq_alone isMember prepared (located loaded isLoaded)
    rw [inBatch, alone, Option.map_some, Option.map_some, result, resultAlone, candidates,
      candidatesAlone, same]

end Alone

theorem resolveMany_eq_alone_templates :
    (templateEnvironment.resolveMany templateRequests [templateModule])[1]?.map
      (fun found => (found.candidates, found.result)) =
        some ([⟨4352, 0, "/usr/lib/libmy.so".toList, "_ZplIiE1AS0_T_".toList,
          "A operator+<int>(A, int)".toList, .full⟩], .unique) :=
  (resolveMany_eq_alone (by decide) (by decide) rfl).trans (by decide +kernel)

end Peak.Target.Environment
