import Mathlib.Data.List.Sort
import Peak.Common.FirstKept
import Peak.Common.KeyIndex
import Peak.Target.Signature

/-!
# Resolving a batch of selectors

The selectors of a batch are looked for in one pass over the symbols of all loaded modules. Five
indexes lead from the name of a symbol, and from keys of its demangled name, to the selectors which
may match. In the end a selector has the candidates of its best tier.

The modules and symbols, the demangler and the file system are not part of PEAK. An address belongs
to the module in which its symbol is enumerated.
-/

namespace Peak.Target

inductive MatchTier where
  | exact
  | full
  | legacy
deriving DecidableEq

def MatchTier.rank : MatchTier → ℕ
  | .exact => 0
  | .full => 1
  | .legacy => 2

inductive ResolveResult where
  | none
  | unique
  | ambiguous
  | invalid
deriving DecidableEq

/-- `PeakTargetResolveRequest`, as it is given by the caller. -/
structure ResolveRequest (Owner : Type) where
  selector : Text
  modulePath : Option Text
  allowLegacyShort : Bool
  ordinaryFirstMatch : Bool
  ownedModule : Option Owner

structure SymbolDetails where
  isFunction : Bool
  name : Option Text
  address : ℕ
  size : ℤ

structure LoadedModule (Owner : Type) where
  path : Option Text
  owner : Option Owner
  symbols : List SymbolDetails

structure SymbolCandidate where
  address : ℕ
  size : ℕ
  moduleName : Text
  mangled : Text
  demangled : Text
  tier : MatchTier
deriving DecidableEq

/-- What the resolver takes from its surroundings. -/
structure Environment where
  realpath : Text → Option Text
  demangle : Text → Text
  ownedResolutionAvailable : Bool

structure CollectContext (Owner : Type) where
  selector : Selector
  modulePath : Option Text
  ordinaryFirstMatch : Bool
  ownedModule : Option Owner
  candidates : List SymbolCandidate
  moduleSeen : Bool
  ownedModuleSeen : Bool

structure Resolution where
  candidates : List SymbolCandidate
  result : ResolveResult
  moduleSeen : Bool
  ownedModuleSeen : Bool
deriving DecidableEq

inductive IndexKind where
  | exact
  | full
  | fullByName
  | legacyQualified
  | legacyShort

def isMangled (name : Text) : Bool :=
  startsAt name 0 "_Z".toList

namespace Selector

variable (selector : Selector)

def humanSignature : Bool :=
  !isMangled selector.symbol && (selector.symbol.contains '(' || selector.symbol.contains '<')

def completeSignature : Bool :=
  selector.humanSignature && selectorIsCompleteSignature selector.symbol

/-- A name without its parameters, for the rules that were there before signatures. -/
def legacyName (allowLegacyShort : Bool) : Bool :=
  !selector.completeSignature && !isMangled selector.symbol && allowLegacyShort

def isQualified : Bool :=
  (firstOccurrence "::".toList selector.symbol).isSome

def keys (allowLegacyShort : Bool) : IndexKind → List Text
  | .exact => [selector.symbol]
  | .full => if selector.humanSignature then [withoutSpace selector.symbol] else []
  | .fullByName =>
    if selector.completeSignature then
      fullFunctionId selector.symbol :: identifierKeys selector.symbol
    else
      []
  | .legacyQualified =>
    if selector.legacyName allowLegacyShort && selector.isQualified then
      [withoutSpace selector.symbol]
    else
      []
  | .legacyShort =>
    if selector.legacyName allowLegacyShort && !selector.isQualified then [selector.symbol]
    else []

end Selector

namespace Environment

variable {Owner : Type} [DecidableEq Owner] (env : Environment)

def moduleMatches (requested modulePath : Option Text) : Bool :=
  match requested, modulePath with
  | none, _ => true
  | some _, none => false
  | some requested, some path =>
    if requested = path then
      true
    else if requested.contains '/' then
      match env.realpath requested, env.realpath path with
      | some canonicalRequested, some canonicalPath => canonicalRequested = canonicalPath
      | _, _ => false
    else
      requested = afterLast '/' path

def pathMatches (context : CollectContext Owner) (path : Option Text) : Bool :=
  env.moduleMatches context.selector.moduleName path && env.moduleMatches context.modulePath path

/-- `peak_target_collect_candidate`. Candidates are the same with the same address, module and
demangled name. -/
def collectCandidate (details : SymbolDetails) (mangled : Text) (demangled : Option Text)
    (currentModule : Text) (owner : Option Owner) (tier : MatchTier)
    (context : CollectContext Owner) : CollectContext Owner :=
  if !env.pathMatches context (some currentModule) then
    context
  else if context.ownedModule ≠ none ∧ owner ≠ context.ownedModule then
    context
  else if context.ordinaryFirstMatch ∧ (tier ≠ .exact ∨ context.candidates ≠ []) then
    context
  else
    { context with
      candidates := FirstKept.insertNew
        (fun candidate : SymbolCandidate =>
          (candidate.address, candidate.moduleName, candidate.demangled))
        context.candidates
        { address := details.address
          size := details.size.toNat
          moduleName := currentModule
          mangled := mangled
          demangled := demangled.getD mangled
          tier := tier } }

def forMatches (found : List ℕ) (change : CollectContext Owner → CollectContext Owner)
    (contexts : List (Option (CollectContext Owner))) : List (Option (CollectContext Owner)) :=
  found.foldl (fun contexts number => contexts.modify number (Option.map change)) contexts

def exactMatchesCurrentModule (contexts : List (Option (CollectContext Owner))) (found : List ℕ)
    (currentModule : Text) : Bool :=
  found.any fun number =>
    (contexts[number]?.join).any fun context => env.pathMatches context (some currentModule)

def qualifiedName (demangled : Text) : Text :=
  withoutSpace (afterLast ' ' (withoutFinalParameters demangled))

/-- The part of `peak_target_collect_batch_symbol` for a demangled name. -/
def collectDemangled (index : IndexKind → KeyIndex Text ℕ) (details : SymbolDetails)
    (name demangled currentModule : Text) (owner : Option Owner)
    (contexts : List (Option (CollectContext Owner))) : List (Option (CollectContext Owner)) :=
  let collect := env.collectCandidate details name (some demangled) currentModule owner
  let collectFull := fun key =>
    forMatches ((index .fullByName).lookup key) fun context =>
      if fullSignatureMatches context.selector.symbol demangled then collect .full context
      else context
  let collectLegacy := fun found =>
    if isArtificialPrefix demangled then id else forMatches found (collect .legacy)
  let contexts :=
    forMatches ((index .full).lookup (withoutSpace demangled)) (collect .full) contexts
  let contexts := collectFull (fullFunctionId demangled) contexts
  let contexts := (identifierKeys demangled).foldl (fun contexts key => collectFull key contexts)
    contexts
  let contexts := collectLegacy ((index .legacyQualified).lookup (qualifiedName demangled)) contexts
  collectLegacy ((index .legacyShort).lookup (extractFunctionName demangled)) contexts

/-- `peak_target_collect_batch_symbol`. A name is demangled if there is an index other than the
exact one, or if it is itself a candidate. -/
def collectBatchSymbol (index : IndexKind → KeyIndex Text ℕ) (currentModule : Text)
    (owner : Option Owner) (contexts : List (Option (CollectContext Owner)))
    (details : SymbolDetails) : List (Option (CollectContext Owner)) :=
  match details.name with
  | none => contexts
  | some name =>
    if !details.isFunction || details.address = 0 then
      contexts
    else
      let found := (index .exact).lookup name
      let indexed := !((index .full).isEmpty && (index .fullByName).isEmpty &&
        (index .legacyQualified).isEmpty && (index .legacyShort).isEmpty)
      let demangled :=
        if isMangled name && (indexed || env.exactMatchesCurrentModule contexts found currentModule)
        then some (env.demangle name)
        else none
      let contexts := forMatches found
        (env.collectCandidate details name demangled currentModule owner .exact) contexts
      match demangled with
      | none => contexts
      | some demangled =>
        env.collectDemangled index details name demangled currentModule owner contexts

def batchModuleIsApplicable (contexts : List (Option (CollectContext Owner))) (path : Option Text)
    (moduleOwner : Option Owner) : Bool :=
  contexts.any fun context =>
    context.any fun context =>
      !(moduleOwner ≠ none ∧ context.ownedModule ≠ none ∧ context.ownedModule ≠ moduleOwner) &&
        env.pathMatches context path

def collectBatchModule (index : IndexKind → KeyIndex Text ℕ) (needsModuleOwner : Bool)
    (contexts : List (Option (CollectContext Owner))) (loaded : LoadedModule Owner) :
    List (Option (CollectContext Owner)) :=
  let moduleOwner := if needsModuleOwner then loaded.owner else none
  let contexts := contexts.map (Option.map fun context =>
    if context.ownedModule ≠ none ∧ context.ownedModule = moduleOwner then
      { context with ownedModuleSeen := true }
    else
      context)
  if !env.batchModuleIsApplicable contexts loaded.path moduleOwner then
    contexts
  else
    let contexts := contexts.map (Option.map fun context =>
      if (context.ownedModule = none ∨ context.ownedModule = moduleOwner) ∧
          env.pathMatches context loaded.path then
        { context with moduleSeen := true }
      else
        context)
    loaded.symbols.foldl
      (env.collectBatchSymbol index (loaded.path.getD "<unknown>".toList) loaded.owner) contexts

end Environment

/-- `strcmp`. -/
def textCompare : Text → Text → Ordering
  | [], [] => .eq
  | [], _ :: _ => .lt
  | _ :: _, [] => .gt
  | left :: lefts, right :: rights => (compare left right).then (textCompare lefts rights)

def candidateCompare (left right : SymbolCandidate) : Ordering :=
  (textCompare left.moduleName right.moduleName).then
    ((textCompare left.mangled right.mangled).then (compare left.address right.address))

/-- The loop for the best tier in `peak_target_resolution_finalize`. -/
def bestTier (candidates : List SymbolCandidate) : MatchTier :=
  candidates.foldl (fun best candidate =>
    if candidate.tier.rank < best.rank then candidate.tier else best) .legacy

/-- `peak_target_resolution_finalize`: the candidates that are left. -/
def finalize (candidates : List SymbolCandidate) : List SymbolCandidate :=
  let sorted := candidates.insertionSort fun left right => candidateCompare left right ≠ .gt
  if 1 < sorted.length then sorted.filter (·.tier = bestTier sorted) else sorted

def resultOfSize : ℕ → ResolveResult
  | 0 => .none
  | 1 => .unique
  | _ + 2 => .ambiguous

namespace Environment

variable {Owner : Type} [DecidableEq Owner] (env : Environment)

/-- The selector of a request that takes part in the batch. -/
def prepare (request : ResolveRequest Owner) : Option Selector :=
  if request.ownedModule ≠ none ∧ !env.ownedResolutionAvailable then
    none
  else
    parseSelector request.selector

def newContext (request : ResolveRequest Owner) (selector : Selector) : CollectContext Owner where
  selector := selector
  modulePath := request.modulePath
  ordinaryFirstMatch := request.ordinaryFirstMatch
  ownedModule := request.ownedModule
  candidates := []
  moduleSeen := false
  ownedModuleSeen := false

/-- An index of the batch, in which the requests are numbered from the given one on. -/
def buildIndex (kind : IndexKind) :
    ℕ → List (ResolveRequest Owner) → KeyIndex Text ℕ → KeyIndex Text ℕ
  | _, [], index => index
  | number, request :: requests, index =>
    buildIndex kind (number + 1) requests
      ((env.prepare request).elim index fun selector =>
        index.addAll (selector.keys request.allowLegacyShort kind) number)

def collectAll (requests : List (ResolveRequest Owner)) (modules : List (LoadedModule Owner)) :
    List (Option (CollectContext Owner)) :=
  modules.foldl
    (env.collectBatchModule (fun kind => env.buildIndex kind 0 requests [])
      (requests.any fun request =>
        request.ownedModule.isSome && (env.prepare request).isSome))
    (requests.map fun request => (env.prepare request).map (newContext request))

def resolution (request : ResolveRequest Owner) :
    Option (CollectContext Owner) → Resolution
  | none =>
    { candidates := []
      result :=
        if request.ownedModule ≠ none ∧ !env.ownedResolutionAvailable then .none else .invalid
      moduleSeen := false
      ownedModuleSeen := false }
  | some context =>
    { candidates := finalize context.candidates
      result := resultOfSize (finalize context.candidates).length
      moduleSeen := context.moduleSeen
      ownedModuleSeen := context.ownedModuleSeen }

/-- `peak_target_resolver_resolve_many`. Without a selector to look for, there is no pass. -/
def resolveMany (requests : List (ResolveRequest Owner)) (modules : List (LoadedModule Owner)) :
    List Resolution :=
  if requests.all fun request => (env.prepare request).isNone then
    requests.map fun request => env.resolution request none
  else
    List.zipWith env.resolution requests (env.collectAll requests modules)

end Environment

end Peak.Target
