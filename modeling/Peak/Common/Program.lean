import Mathlib.Logic.Basic

/-!
# Programs that may end the process

A program transforms a state and returns a value, or ends the process. A triple states what holds of
the value and the final state of every execution that returns.
-/

namespace Peak

universe u

/-- Code on a state that may exit. -/
abbrev Program (State Exit : Type u) := StateT State (Except Exit)

namespace Program

variable {State Exit α β : Type u} {pre pre' : State → Prop} {post post' : α → State → Prop}

/-- From a state with `pre`, every execution that returns satisfies `post`. -/
def Triple (pre : State → Prop) (program : Program State Exit α) (post : α → State → Prop) : Prop :=
  ∀ state value final, pre state → program state = .ok (value, final) → post value final

theorem triple_pure {value : α} (holds : ∀ state, pre state → post value state) :
    Triple pre (pure value : Program State Exit α) post := by
  intro state value' final start ok
  cases ok
  exact holds state start

theorem triple_throw {exit : Exit} : Triple pre (throw exit : Program State Exit α) post := by
  intro state value final _ ok
  cases ok

theorem triple_modify {update : State → State} {post : PUnit → State → Prop}
    (holds : ∀ state, pre state → post ⟨⟩ (update state)) :
    Triple pre (modify update : Program State Exit PUnit) post := by
  intro state value final start ok
  cases ok
  exact holds state start

theorem triple_get {post : State → State → Prop} (holds : ∀ state, pre state → post state state) :
    Triple pre (get : Program State Exit State) post := by
  intro state value final start ok
  cases ok
  exact holds state start

variable {program : Program State Exit α}

theorem triple_bind {next : α → Program State Exit β} {post : β → State → Prop}
    (middle : α → State → Prop) (first : Triple pre program middle)
    (second : ∀ value, Triple (middle value) (next value) post) :
    Triple pre (program >>= next) post := by
  intro state result final start ok
  cases ran : program state with
  | error exit =>
    have stopped : (program >>= next) state = .error exit := by
      simp only [Bind.bind, StateT.bind, ran]
      rfl
    rw [stopped] at ok
    cases ok
  | ok pair =>
    have continued : (program >>= next) state = next pair.1 pair.2 := by
      simp only [Bind.bind, StateT.bind, ran]
      rfl
    rw [continued] at ok
    exact second pair.1 pair.2 result final (first state pair.1 pair.2 start ran) ok

theorem triple_get_bind {next : State → Program State Exit β} {post : β → State → Prop}
    (rest : ∀ value, Triple (fun state => state = value ∧ pre state) (next value) post) :
    Triple pre (get >>= next) post :=
  triple_bind (fun value state => state = value ∧ pre state)
    (triple_get fun _ start => ⟨rfl, start⟩) rest

theorem triple_bind_option {Error : Type u} {program : Program State Exit (Option Error)}
    {next : Option Error → Program State Exit β} {middle : Option Error → State → Prop}
    {post : β → State → Prop} (first : Triple pre program middle)
    (failed : ∀ error, Triple (middle (some error)) (next (some error)) post)
    (done : Triple (middle none) (next none) post) : Triple pre (program >>= next) post :=
  triple_bind middle first fun result => result.rec done failed

theorem triple_bind_except {Error : Type u} {program : Program State Exit (Except Error α)}
    {next : Except Error α → Program State Exit β} {middle : Except Error α → State → Prop}
    {post : β → State → Prop} (first : Triple pre program middle)
    (failed : ∀ error, Triple (middle (.error error)) (next (.error error)) post)
    (done : ∀ value, Triple (middle (.ok value)) (next (.ok value)) post) :
    Triple pre (program >>= next) post :=
  triple_bind middle first fun result => result.rec failed done

theorem triple_map {map : α → β} {post : β → State → Prop}
    (triple : Triple pre program fun value => post (map value)) :
    Triple pre (map <$> program) post := by
  exact triple_bind _ triple fun value => triple_pure fun _ holds => holds

theorem triple_consequence (triple : Triple pre' program post')
    (weaken : ∀ state, pre state → pre' state)
    (strengthen : ∀ value state, post' value state → post value state) :
    Triple pre program post := by
  intro state value final start ok
  exact strengthen value final (triple state value final (weaken state start) ok)

theorem triple_pre (weaken : ∀ state, pre state → pre' state) (triple : Triple pre' program post) :
    Triple pre program post :=
  triple_consequence triple weaken fun _ _ holds => holds

theorem triple_post (triple : Triple pre program post')
    (strengthen : ∀ value state, post' value state → post value state) : Triple pre program post :=
  triple_consequence triple (fun _ start => start) strengthen

theorem triple_of_fact {fact : Prop} (triple : fact → Triple pre program post) :
    Triple (fun state => fact ∧ pre state) program post := by
  intro state value final start ok
  exact triple start.1 state value final start.2 ok

end Program

end Peak
