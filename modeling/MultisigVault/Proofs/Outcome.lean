import Mathlib.Data.List.Forall2
import Mathlib.Data.List.Nodup

/-!
# Outcomes of computations that may fail

A computation that may fail is a value of `Except`, and longer ones are chains of
shorter ones.  These lemmas take a successful chain apart into its steps.
-/

namespace MultisigVault.Outcome

variable {Cause Input Value Result : Type}

@[simp]
theorem ok_bind (value : Value) (next : Value → Except Cause Result) :
    ((.ok value : Except Cause Value) >>= next) = next value := rfl

@[simp]
theorem error_bind (cause : Cause) (next : Value → Except Cause Result) :
    ((.error cause : Except Cause Value) >>= next) = .error cause := rfl

@[simp]
theorem pure_eq_ok (value : Value) : (pure value : Except Cause Value) = .ok value := rfl

@[simp]
theorem throw_eq_error (cause : Cause) : (throw cause : Except Cause Value) = .error cause := rfl

theorem isOk_iff {outcome : Except Cause Value} :
    outcome.isOk = true ↔ ∃ value, outcome = .ok value := by
  cases outcome with
  | ok value => simp [Except.isOk, Except.toBool]
  | error cause => simp [Except.isOk, Except.toBool]

/-- A chain succeeds exactly when its first step does and the others do on the
value of that step. -/
theorem bind_eq_ok_iff {first : Except Cause Value} {next : Value → Except Cause Result}
    {result : Result} :
    (first >>= next) = .ok result ↔ ∃ value, first = .ok value ∧ next value = .ok result := by
  cases first with
  | ok value => simp
  | error cause => simp

/-- A chain fails exactly when its first step does or the others do on the value of
that step. -/
theorem bind_eq_error_iff {first : Except Cause Value} {next : Value → Except Cause Result}
    {cause : Cause} :
    (first >>= next) = .error cause ↔
      first = .error cause ∨ ∃ value, first = .ok value ∧ next value = .error cause := by
  cases first with
  | ok value => simp
  | error other => simp

/-- A rule in a chain of checks lets through what does not break it. -/
theorem guard_eq_ok_iff {broken : Prop} [Decidable broken] {cause : Cause}
    {next : Except Cause Value} {value : Value} :
    (if broken then .error cause else next) = .ok value ↔ ¬broken ∧ next = .ok value := by
  by_cases hbroken : broken
  · simp [hbroken]
  · simp [hbroken]

/-- A traversal succeeds exactly when it does so on every item. -/
theorem mapM_eq_ok_iff {step : Input → Except Cause Value} {inputs : List Input}
    {values : List Value} :
    inputs.mapM step = .ok values ↔
      List.Forall₂ (fun input value => step input = .ok value) inputs values := by
  induction inputs generalizing values with
  | nil => cases values <;> simp
  | cons input inputs ih =>
      simp only [List.mapM_cons, bind_eq_ok_iff, pure_eq_ok, ih]
      constructor
      · rintro ⟨value, hvalue, rest, hrest, heq⟩
        cases heq
        exact .cons hvalue hrest
      · rintro (_ | ⟨hvalue, hrest⟩)
        exact ⟨_, hvalue, _, hrest, rfl⟩

/-- A traversal fails only if it does so on some item. -/
theorem mapM_succeeds_iff {step : Input → Except Cause Value} {inputs : List Input} :
    (∃ values, inputs.mapM step = .ok values) ↔
      ∀ input ∈ inputs, ∃ value, step input = .ok value := by
  induction inputs with
  | nil => simp
  | cons input inputs ih =>
      simp only [List.mapM_cons, bind_eq_ok_iff, pure_eq_ok, List.forall_mem_cons, ← ih]
      constructor
      · rintro ⟨_, value, hvalue, rest, hrest, -⟩
        exact ⟨⟨value, hvalue⟩, ⟨rest, hrest⟩⟩
      · rintro ⟨⟨value, hvalue⟩, ⟨rest, hrest⟩⟩
        exact ⟨_, value, hvalue, rest, hrest, rfl⟩

theorem mapM_congr {left right : Input → Except Cause Value} {inputs : List Input}
    (hsteps : ∀ input ∈ inputs, left input = right input) :
    inputs.mapM left = inputs.mapM right := by
  induction inputs with
  | nil => rfl
  | cons input inputs ih =>
      rw [List.forall_mem_cons] at hsteps
      rw [List.mapM_cons, List.mapM_cons, hsteps.1, ih hsteps.2]

/-- A traversal keeps its results when every step that succeeded keeps its own. -/
theorem mapM_eq_ok_imp {left right : Input → Except Cause Value} {inputs : List Input}
    {values : List Value}
    (hsteps : ∀ input ∈ inputs, ∀ value, left input = .ok value → right input = .ok value)
    (hvalues : inputs.mapM left = .ok values) : inputs.mapM right = .ok values := by
  rw [mapM_eq_ok_iff] at hvalues ⊢
  induction hvalues with
  | nil => exact .nil
  | cons hhead _ ih =>
      rw [List.forall_mem_cons] at hsteps
      exact .cons (hsteps.1 _ hhead) (ih hsteps.2)

/-- Each item of a successful traversal has its value among the results. -/
theorem exists_mem_of_mapM_eq_ok {step : Input → Except Cause Value} {inputs : List Input}
    {values : List Value} (hvalues : inputs.mapM step = .ok values) {input : Input}
    (hmem : input ∈ inputs) : ∃ value ∈ values, step input = .ok value := by
  rw [mapM_eq_ok_iff] at hvalues
  induction hvalues with
  | nil => cases hmem
  | cons hhead _ ih =>
      rcases List.mem_cons.mp hmem with rfl | hmem
      · exact ⟨_, List.mem_cons_self, hhead⟩
      · obtain ⟨value, hvalue, hstep⟩ := ih hmem
        exact ⟨value, List.mem_cons_of_mem _ hvalue, hstep⟩

/-- A traversal succeeds exactly when its results are those of its steps. -/
theorem mapM_eq_ok_iff_map {step : Input → Except Cause Value} {inputs : List Input}
    {values : List Value} : inputs.mapM step = .ok values ↔ inputs.map step = values.map .ok := by
  rw [mapM_eq_ok_iff, ← List.forall₂_eq_eq_eq, List.forall₂_map_left_iff,
    List.forall₂_map_right_iff]

/-- A traversal of different items has different results if no two items share one. -/
theorem nodup_of_mapM_eq_ok {step : Input → Except Cause Value} {inputs : List Input}
    {values : List Value} (hinputs : inputs.Nodup)
    (hdiffer : ∀ left ∈ inputs, ∀ right ∈ inputs, ∀ value,
      step left = .ok value → step right = .ok value → left = right)
    (hvalues : inputs.mapM step = .ok values) : values.Nodup := by
  have hsteps : (inputs.map step).Nodup := by
    apply hinputs.map_on
    intro left hleft right hright heq
    obtain ⟨value, -, hstep⟩ := exists_mem_of_mapM_eq_ok hvalues hleft
    exact hdiffer left hleft right hright value hstep (heq ▸ hstep)
  rw [mapM_eq_ok_iff_map.mp hvalues] at hsteps
  exact hsteps.of_map

theorem map_eq_ok_iff {first : Except Cause Value} {result : Value → Result} {final : Result} :
    first.map result = .ok final ↔ ∃ value, first = .ok value ∧ result value = final := by
  cases first with
  | ok value => simp [Except.map]
  | error cause => simp [Except.map]

theorem map_eq_error_iff {first : Except Cause Value} {result : Value → Result} {cause : Cause} :
    first.map result = .error cause ↔ first = .error cause := by
  cases first with
  | ok value => simp [Except.map]
  | error other => simp [Except.map]

/-- Passing every result through a function commutes with the traversal. -/
theorem mapM_map (step : Input → Except Cause Value) (result : Value → Result)
    (inputs : List Input) :
    (inputs.mapM fun input => (step input).map result) =
      (inputs.mapM step).map (List.map result) := by
  induction inputs with
  | nil => rfl
  | cons input inputs ih =>
      rw [List.mapM_cons, List.mapM_cons, ih]
      cases step input with
      | error cause => rfl
      | ok value => cases inputs.mapM step <;> rfl

theorem mapError_eq_ok_iff {OtherCause : Type} {wrap : Cause → OtherCause}
    {first : Except Cause Value} {value : Value} :
    first.mapError wrap = .ok value ↔ first = .ok value := by
  cases first with
  | ok other => simp [Except.mapError]
  | error cause => simp [Except.mapError]

theorem mapError_eq_error_iff {OtherCause : Type} {wrap : Cause → OtherCause}
    {first : Except Cause Value} {other : OtherCause} :
    first.mapError wrap = .error other ↔ ∃ cause, first = .error cause ∧ wrap cause = other := by
  cases first with
  | ok value => simp [Except.mapError]
  | error cause => simp [Except.mapError]

/-- Passing the cause of failure of each step through a function. -/
theorem mapError_bind {OtherCause : Type} (wrap : Cause → OtherCause)
    (first : Except Cause Value) (next : Value → Except Cause Result) :
    (first >>= next).mapError wrap =
      first.mapError wrap >>= fun value => (next value).mapError wrap := by
  cases first <;> rfl

/-- Passing every cause of failure through a function commutes with the traversal. -/
theorem mapM_mapError {OtherCause : Type} (step : Input → Except Cause Value)
    (wrap : Cause → OtherCause) (inputs : List Input) :
    (inputs.mapM fun input => (step input).mapError wrap) = (inputs.mapM step).mapError wrap := by
  induction inputs with
  | nil => rfl
  | cons input inputs ih =>
      rw [List.mapM_cons, List.mapM_cons, ih]
      cases step input with
      | error cause => rfl
      | ok value => cases inputs.mapM step <;> rfl

/-- A traversal whose steps all succeed is a map. -/
theorem mapM_eq_ok_map {step : Input → Except Cause Value} {result : Input → Value}
    {inputs : List Input} (hstep : ∀ input ∈ inputs, step input = .ok (result input)) :
    inputs.mapM step = .ok (inputs.map result) := by
  rw [mapM_eq_ok_iff, List.forall₂_map_right_iff, List.forall₂_same]
  exact hstep

/-! ## Causes of failure -/

/-- The cause of a failure, if the outcome is one. -/
def cause? : Except Cause Value → Option Cause
  | .ok _ => none
  | .error cause => some cause

@[simp]
theorem cause?_ok (value : Value) : cause? (.ok value : Except Cause Value) = none := rfl

@[simp]
theorem cause?_error (cause : Cause) : cause? (.error cause : Except Cause Value) = some cause := rfl

theorem cause?_eq_some_iff {outcome : Except Cause Value} {cause : Cause} :
    cause? outcome = some cause ↔ outcome = .error cause := by
  cases outcome with
  | ok value => simp
  | error other => simp

theorem cause?_eq_none_iff {outcome : Except Cause Value} :
    cause? outcome = none ↔ ∃ value, outcome = .ok value := by
  cases outcome with
  | ok value => simp
  | error cause => simp

theorem cause?_map (outcome : Except Cause Value) (result : Value → Result) :
    cause? (outcome.map result) = cause? outcome := by
  cases outcome <;> rfl

/-- A traversal fails for the reason of the first of its steps that fails. -/
theorem cause?_mapM {step : Input → Except Cause Value} {reason : Input → Option Cause}
    {inputs : List Input} (hreason : ∀ input ∈ inputs, cause? (step input) = reason input) :
    cause? (inputs.mapM step) = inputs.findSome? reason := by
  induction inputs with
  | nil => rfl
  | cons input inputs ih =>
      rw [List.forall_mem_cons] at hreason
      rw [List.mapM_cons, List.findSome?_cons, ← hreason.1, ← ih hreason.2]
      cases step input with
      | error cause => rfl
      | ok value => cases inputs.mapM step <;> rfl

/-- A failed traversal failed on some item. -/
theorem exists_mem_of_mapM_eq_error {step : Input → Except Cause Value} {inputs : List Input}
    {cause : Cause} (hfails : inputs.mapM step = .error cause) :
    ∃ input ∈ inputs, step input = .error cause := by
  have hfirst : inputs.findSome? (fun input => cause? (step input)) = some cause := by
    rw [← cause?_mapM fun _ _ => rfl, hfails, cause?_error]
  obtain ⟨input, hmem, hinput⟩ := List.exists_of_findSome?_eq_some hfirst
  exact ⟨input, hmem, cause?_eq_some_iff.mp hinput⟩

/-- A traversal that can fail in one way only, and does so on some item, fails in
that way. -/
theorem mapM_eq_error {step : Input → Except Cause Value} {inputs : List Input} {cause : Cause}
    (honly : ∀ input ∈ inputs, ∀ other, step input = .error other → other = cause)
    (hfails : ∃ input ∈ inputs, step input = .error cause) :
    inputs.mapM step = .error cause := by
  cases hvalues : inputs.mapM step with
  | error other =>
      obtain ⟨input, hmem, hinput⟩ := exists_mem_of_mapM_eq_error hvalues
      rw [honly input hmem other hinput]
  | ok values =>
      obtain ⟨input, hmem, hinput⟩ := hfails
      obtain ⟨value, -, hvalue⟩ := exists_mem_of_mapM_eq_ok hvalues hmem
      cases hinput.symm.trans hvalue

/-! ## Optional results -/

/-- A traversal whose steps all give a result is a map. -/
theorem mapM_map_eq_some_map {write : Value → Input} {read : Input → Option Result}
    (result : Value → Result) {values : List Value}
    (hread : ∀ value ∈ values, read (write value) = some (result value)) :
    (values.map write).mapM read = some (values.map result) := by
  induction values with
  | nil => rfl
  | cons value values ih =>
      rw [List.forall_mem_cons] at hread
      rw [List.map_cons, List.mapM_cons, hread.1, ih hread.2]
      rfl

/-- What is written item by item is read back item by item. -/
theorem mapM_map_eq_some {write : Value → Input} {read : Input → Option Value}
    {values : List Value} (hread : ∀ value ∈ values, read (write value) = some value) :
    (values.map write).mapM read = some values := by
  rw [mapM_map_eq_some_map id hread, List.map_id]

/-- A traversal whose steps accept some items, with a result for each, accepts the lists of
such items. -/
theorem mapM_eq_some_iff_map {read : Input → Option Result} {accepts : Input → Prop}
    {result : Input → Result}
    (hread : ∀ input value, read input = some value ↔ accepts input ∧ result input = value)
    {inputs : List Input} {values : List Result} :
    inputs.mapM read = some values ↔
      (∀ input ∈ inputs, accepts input) ∧ inputs.map result = values := by
  induction inputs generalizing values with
  | nil => simp
  | cons input inputs ih =>
      simp only [List.mapM_cons, List.forall_mem_cons, List.map_cons, Option.bind_eq_bind,
        Option.bind_eq_some_iff, hread, ih, Option.pure_def, Option.some.injEq]
      constructor
      · rintro ⟨_, ⟨hhead, rfl⟩, _, ⟨hrest, rfl⟩, rfl⟩
        exact ⟨⟨hhead, hrest⟩, rfl⟩
      · rintro ⟨⟨hhead, hrest⟩, rfl⟩
        exact ⟨_, ⟨hhead, rfl⟩, _, ⟨hrest, rfl⟩, rfl⟩

/-! ## Outcomes in other terms -/

section

variable {OtherCause OtherInput OtherValue OtherResult : Type}

/-- An outcome with its value, or its cause of failure, said in other terms. -/
def rephrase (onCause : Cause → OtherCause) (onValue : Value → OtherValue) :
    Except Cause Value → Except OtherCause OtherValue
  | .ok value => .ok (onValue value)
  | .error cause => .error (onCause cause)

variable {onCause : Cause → OtherCause} {onValue : Value → OtherValue}

/-- A chain of two steps can be rephrased step by step. -/
theorem rephrase_bind {onResult : Result → OtherResult} {first : Except Cause Value}
    {next : Value → Except Cause Result} {otherNext : OtherValue → Except OtherCause OtherResult}
    (hnext : ∀ value, otherNext (onValue value) = rephrase onCause onResult (next value)) :
    (rephrase onCause onValue first >>= otherNext) =
      rephrase onCause onResult (first >>= next) := by
  cases first with
  | error cause => rfl
  | ok value => exact hnext value

/-- A traversal can be rephrased item by item. -/
theorem mapM_rephrase {onInput : Input → OtherInput} {step : Input → Except Cause Value}
    {otherStep : OtherInput → Except OtherCause OtherValue}
    (hstep : ∀ input, otherStep (onInput input) = rephrase onCause onValue (step input))
    (inputs : List Input) :
    (inputs.map onInput).mapM otherStep =
      rephrase onCause (List.map onValue) (inputs.mapM step) := by
  induction inputs with
  | nil => rfl
  | cons input inputs ih =>
      rw [List.map_cons, List.mapM_cons, List.mapM_cons, hstep, ih]
      cases step input with
      | error cause => rfl
      | ok value => cases inputs.mapM step <;> rfl

end

/-! ## Computations with a state that outlives a failure -/

section

variable {State : Type}

/-- A failure of the first step ends a chain in the state that this step left. -/
@[simp]
theorem run_bind (first : ExceptT Cause (StateM State) Value)
    (next : Value → ExceptT Cause (StateM State) Result) (state : State) :
    (first >>= next).run.run state =
      match first.run.run state with
      | (.ok value, after) => (next value).run.run after
      | (.error cause, after) => (.error cause, after) := by
  change (match first.run.run state with
    | (outcome, after) => (ExceptT.bindCont next outcome).run after) = _
  rcases first.run.run state with ⟨outcome, after⟩
  cases outcome <;> rfl

@[simp]
theorem run_pure (value : Value) (state : State) :
    (pure value : ExceptT Cause (StateM State) Value).run.run state = (.ok value, state) := rfl

@[simp]
theorem run_get (state : State) :
    (get : ExceptT Cause (StateM State) State).run.run state = (.ok state, state) := rfl

@[simp]
theorem run_modify (change : State → State) (state : State) :
    (modify change : ExceptT Cause (StateM State) PUnit).run.run state =
      (.ok ⟨⟩, change state) := rfl

@[simp]
theorem run_liftM (outcome : Except Cause Value) (state : State) :
    (liftM outcome : ExceptT Cause (StateM State) Value).run.run state = (outcome, state) := rfl

end

end MultisigVault.Outcome
