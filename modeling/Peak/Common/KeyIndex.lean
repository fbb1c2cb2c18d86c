import Peak.Common.FirstMatch

/-!
# Indexes from keys to values

An index lists under each key the values that were added with it, in the order of
their addition.
-/

namespace Peak

open FirstMatch

abbrev KeyIndex (Key Value : Type) := List (Key × List Value)

namespace KeyIndex

variable {Key Value : Type} [DecidableEq Key]

def lookup (index : KeyIndex Key Value) (key : Key) : List Value :=
  (index.find? (·.1 = key)).elim [] Prod.snd

def add (index : KeyIndex Key Value) (key : Key) (value : Value) : KeyIndex Key Value :=
  if (index.find? (·.1 = key)).isSome then
    modifyFirst (·.1 = key) (fun entry => (entry.1, entry.2 ++ [value])) index
  else
    index ++ [(key, [value])]

def addAll (index : KeyIndex Key Value) (keys : List Key) (value : Value) : KeyIndex Key Value :=
  keys.foldl (fun index key => index.add key value) index

variable {index : KeyIndex Key Value} {key other : Key} {value : Value}

@[simp]
theorem lookup_nil : lookup ([] : KeyIndex Key Value) key = [] := rfl

theorem lookup_cons (entry : Key × List Value) (rest : KeyIndex Key Value) :
    lookup (entry :: rest) key = if entry.1 = key then entry.2 else lookup rest key := by
  unfold lookup
  by_cases same : entry.1 = key
  · simp [same]
  · simp [same]

theorem find?_cons_of_ne {entry : Key × List Value} {rest : KeyIndex Key Value}
    (different : entry.1 ≠ key) :
    List.find? (·.1 = key) (entry :: rest) = List.find? (·.1 = key) rest :=
  List.find?_cons_of_neg (by simpa using different)

theorem lookup_modifyFirst (index : KeyIndex Key Value) :
    lookup (modifyFirst (·.1 = key) (fun entry => (entry.1, entry.2 ++ [value])) index)
        other =
      if other = key ∧ (index.find? (·.1 = key)).isSome then lookup index other ++ [value]
      else lookup index other := by
  induction index with
  | nil => simp [modifyFirst]
  | cons entry _ ih =>
    by_cases here : entry.1 = key
    · subst here
      by_cases same : other = entry.1
      · simp [modifyFirst, lookup_cons, same]
      · simp [modifyFirst, lookup_cons, same, Ne.symm same]
    · by_cases same : entry.1 = other
      · subst same
        simp [modifyFirst, lookup_cons, here]
      · rw [find?_cons_of_ne here]
        simp [modifyFirst, lookup_cons, here, same, ih]

theorem lookup_append (index rest : KeyIndex Key Value) :
    lookup (index ++ rest) key =
      if (index.find? (·.1 = key)).isSome then lookup index key else lookup rest key := by
  induction index with
  | nil => simp
  | cons entry _ ih =>
    by_cases here : entry.1 = key
    · simp [lookup_cons, here]
    · rw [find?_cons_of_ne here]
      simp [lookup_cons, here, ih]

theorem lookup_add :
    lookup (index.add key value) other =
      if other = key then lookup index other ++ [value] else lookup index other := by
  unfold add
  split
  next present => simp [lookup_modifyFirst, present]
  next absent =>
    have empty : lookup index key = [] := by
      rw [Option.not_isSome_iff_eq_none] at absent
      simp [lookup, absent]
    rw [lookup_append]
    by_cases same : other = key
    · subst same
      simp [absent, empty, lookup_cons]
    · have new : lookup [(key, [value])] other = [] := by simp [lookup_cons, Ne.symm same]
      rw [if_neg same, new]
      split
      next => rfl
      next missing =>
        rw [Option.not_isSome_iff_eq_none] at missing
        simp [lookup, missing]

theorem mem_lookup_add {found : Value} :
    found ∈ lookup (index.add key value) other ↔
      found ∈ lookup index other ∨ other = key ∧ found = value := by
  rw [lookup_add]
  by_cases same : other = key
  · simp [same]
  · simp [same]

theorem mem_lookup_addAll {found : Value} (keys : List Key) :
    found ∈ lookup (index.addAll keys value) other ↔
      found ∈ lookup index other ∨ other ∈ keys ∧ found = value := by
  induction keys generalizing index with
  | nil => simp [addAll]
  | cons key keys ih =>
    change found ∈ lookup ((index.add key value).addAll keys value) other ↔ _
    rw [ih, mem_lookup_add, List.mem_cons, or_assoc, ← or_and_right]

end KeyIndex

end Peak
