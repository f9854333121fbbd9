import Mathlib.Data.List.Forall2
import SqlScribe.Query.Compile

/-!
# Successful compilations

`Yields action before value after` says that a compilation succeeds with a
value and takes the state `before` to the state `after`.  The lemmas about it
take a compilation apart step by step: a sequence succeeds exactly when its
steps do, one after the other.

`Steps` is the same for a list of compilations that hand their states on.  It
is the shape of every loop of the compiler.
-/

namespace SqlScribe

namespace Compile

variable {α β : Type}

/-- The result of a compilation from a state on, and the state that it leaves. -/
def outcome (action : Compile α) (before : CompileState) : Except SqlError α × CompileState :=
  action.run.run before

/-- The compilation succeeds with this value and leads from one state to the other. -/
def Yields (action : Compile α) (before : CompileState) (value : α) (after : CompileState) : Prop :=
  outcome action before = (.ok value, after)

variable {before after : CompileState}

/-- A compilation has one value, and leaves one state. -/
theorem Yields.unique {action : Compile α} {value other : α} {final : CompileState}
    (one : Yields action before value after) (two : Yields action before other final) :
    other = value ∧ final = after := by
  have same := two.symm.trans one
  simpa using same

@[simp]
theorem yields_pure {given value : α} :
    Yields (pure given) before value after ↔ value = given ∧ after = before := by
  show ((.ok given, before) : Except SqlError α × CompileState) = (.ok value, after) ↔ _
  simp [eq_comm]

theorem outcome_bind (first : Compile α) (next : α → Compile β) (before : CompileState) :
    outcome (first >>= next) before =
      match outcome first before with
      | (.ok middle, state) => outcome (next middle) state
      | (.error error, state) => (.error error, state) := by
  show (match outcome first before with
    | (result, state) => (ExceptT.bindCont next result).run state) = _
  rcases outcome first before with ⟨_ | _, _⟩ <;> rfl

@[simp]
theorem yields_bind {first : Compile α} {next : α → Compile β} {value : β} :
    Yields (first >>= next) before value after ↔
      ∃ middle state, Yields first before middle state ∧
        Yields (next middle) state value after := by
  simp only [Yields, outcome_bind]
  rcases outcome first before with ⟨_ | middle, state⟩ <;> simp [and_assoc]

@[simp]
theorem yields_map {action : Compile α} {change : α → β} {value : β} :
    Yields (change <$> action) before value after ↔
      ∃ middle, Yields action before middle after ∧ value = change middle := by
  show Yields (action >>= fun middle => pure (change middle)) before value after ↔ _
  simp only [yields_bind, yields_pure]
  constructor
  · rintro ⟨middle, state, yields, rfl, rfl⟩
    exact ⟨middle, yields, rfl⟩
  · rintro ⟨middle, yields, rfl⟩
    exact ⟨middle, after, yields, rfl, rfl⟩

@[simp]
theorem yields_lift {result : Except SqlError α} {value : α} :
    Yields (liftM result) before value after ↔ result = .ok value ∧ after = before := by
  show (result, before) = (.ok value, after) ↔ _
  simp [eq_comm]

@[simp]
theorem yields_throw {error : SqlError} {value : α} :
    Yields (throw error) before value after ↔ False := by
  show ((.error error, before) : Except SqlError α × CompileState) = (.ok value, after) ↔ _
  simp

@[simp]
theorem yields_reserve {name : String} {value : Unit} :
    Yields (reserve name) before value after ↔
      after = { before with scope := before.scope.reserve name } := by
  show ((.ok (), { before with scope := before.scope.reserve name }) :
    Except SqlError Unit × CompileState) = (.ok value, after) ↔ _
  simp [eq_comm]

@[simp]
theorem yields_report {event : Event} {value : Unit} :
    Yields (report event) before value after ↔
      after = { before with events := before.events ++ [event] } := by
  show ((.ok (), { before with events := before.events ++ [event] }) :
    Except SqlError Unit × CompileState) = (.ok value, after) ↔ _
  simp [eq_comm]

@[simp]
theorem yields_allocate {depth : Nat} {value : String} :
    Yields (allocate depth) before value after ↔
      value = (before.scope.allocate depth).1 ∧
        after = { before with scope := (before.scope.allocate depth).2 } := by
  show ((.ok (before.scope.allocate depth).1,
      { before with scope := (before.scope.allocate depth).2 }) :
    Except SqlError String × CompileState) = (.ok value, after) ↔ _
  simp [eq_comm]

/-! ## Lists of compilations -/

/-- Each element of a list takes part in a step, and each step starts where the last one ended. -/
inductive Steps (step : α → CompileState → β → CompileState → Prop) :
    List α → CompileState → List β → CompileState → Prop where
  | nil {state : CompileState} : Steps step [] state [] state
  | cons
      {first : α} {rest : List α} {value : β} {values : List β}
      {start middle final : CompileState}
      (head : step first start value middle)
      (tail : Steps step rest middle values final) :
      Steps step (first :: rest) start (value :: values) final

section Steps

variable {step : α → CompileState → β → CompileState → Prop}
variable {elements rest : List α} {element : α} {values : List β}

@[simp]
theorem steps_nil : Steps step [] before values after ↔ values = [] ∧ after = before := by
  constructor
  · intro steps
    cases steps
    exact ⟨rfl, rfl⟩
  · rintro ⟨rfl, rfl⟩
    exact .nil

theorem steps_cons :
    Steps step (element :: rest) before values after ↔
      ∃ value state others, step element before value state ∧
        Steps step rest state others after ∧ values = value :: others := by
  constructor
  · intro steps
    cases steps with
    | cons head tail => exact ⟨_, _, _, head, tail, rfl⟩
  · rintro ⟨value, state, others, head, tail, rfl⟩
    exact .cons head tail

/--
What every step establishes holds of the elements and values of a run, in
pairs, and what every step preserves holds in the end.
-/
theorem Steps.pairs
    {related : α → β → Prop}
    (invariant : CompileState → Prop)
    (steps : Steps step elements before values after)
    (initially : invariant before)
    (each : ∀ element ∈ elements, ∀ start value final, invariant start →
      step element start value final → related element value ∧ invariant final) :
    List.Forall₂ related elements values ∧ invariant after := by
  induction steps with
  | nil => exact ⟨.nil, initially⟩
  | cons head tail step =>
      have first := each _ List.mem_cons_self _ _ _ initially head
      have others := step first.2 fun element member =>
        each element (List.mem_cons_of_mem _ member)
      exact ⟨.cons first.1 others.1, others.2⟩

/-- In a run, every element has its value, from some state on. -/
theorem Steps.forall₂ (steps : Steps step elements before values after) :
    List.Forall₂ (fun element value => ∃ start final, step element start value final)
      elements values :=
  (steps.pairs (fun _ => True) trivial
    fun _ _ start _ final _ taken => ⟨⟨start, final, taken⟩, trivial⟩).1

end Steps

end Compile

end SqlScribe
