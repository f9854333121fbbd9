import Mathlib.Data.List.Forall2

/-!
# Checks that succeed

A sequence of checks succeeds exactly when each of them does.  The lemmas read
the `do` blocks of the library backwards, from their result to the results of
their steps.
-/

namespace SqlScribe.Checked

variable {ε α β γ : Type}

@[simp]
theorem bind_eq_ok {check : Except ε α} {next : α → Except ε β} {value : β} :
    (check >>= next) = .ok value ↔ ∃ middle, check = .ok middle ∧ next middle = .ok value := by
  cases check <;> simp [bind, Except.bind]

/-- A check without a value of its own comes before another one. -/
theorem guard_eq_ok {check : Except ε Unit} {next : Except ε β} {value : β} :
    (check >>= fun _ => next) = .ok value ↔ check = .ok () ∧ next = .ok value := by
  cases check <;> simp [bind, Except.bind]

@[simp]
theorem mapError_eq_ok {ε' : Type} {check : Except ε α} {change : ε → ε'} {value : α} :
    check.mapError change = .ok value ↔ check = .ok value := by
  cases check <;> simp [Except.mapError]

@[simp]
theorem pure_eq_ok {given value : α} :
    (pure given : Except ε α) = .ok value ↔ value = given := by
  simp [pure, Except.pure, eq_comm]

@[simp]
theorem throw_eq_ok {error : ε} {value : α} :
    (throw error : Except ε α) = .ok value ↔ False := by
  simp [throw, throwThe, MonadExceptOf.throw]

@[simp]
theorem map_eq_ok {check : Except ε α} {change : α → β} {value : β} :
    check.map change = .ok value ↔ ∃ middle, check = .ok middle ∧ value = change middle := by
  cases check <;> simp [Except.map, eq_comm]

@[simp]
theorem functor_map_eq_ok {check : Except ε α} {change : α → β} {value : β} :
    change <$> check = .ok value ↔ ∃ middle, check = .ok middle ∧ value = change middle :=
  map_eq_ok

theorem functor_map_eq_error {check : Except ε α} {change : α → β} {cause : ε} :
    change <$> check = .error cause ↔ check = .error cause := by
  cases check <;> simp [Functor.map, Except.map]

/-- A check of every element of a list gives the values of the checks, in order. -/
theorem mapM_eq_ok {check : α → Except ε β} {elements : List α} {values : List β} :
    elements.mapM check = .ok values ↔
      List.Forall₂ (fun element value => check element = .ok value) elements values := by
  induction elements generalizing values with
  | nil => simp [pure, Except.pure, eq_comm]
  | cons element rest step =>
      simp only [List.mapM_cons, bind_eq_ok, pure_eq_ok, step, List.forall₂_cons_left_iff]
      constructor
      · rintro ⟨value, checked, others, checkedRest, rfl⟩
        exact ⟨value, others, checked, checkedRest, rfl⟩
      · rintro ⟨value, others, checked, checkedRest, rfl⟩
        exact ⟨value, checked, others, checkedRest, rfl⟩

/-- A sequence fails where its first check does, or after it. -/
theorem bind_eq_error {check : Except ε α} {next : α → Except ε β} {cause : ε} :
    (check >>= next) = .error cause ↔
      check = .error cause ∨ ∃ middle, check = .ok middle ∧ next middle = .error cause := by
  cases check <;> simp [bind, Except.bind]

/-- A check of every element fails with the error of one of them. -/
theorem exists_of_mapM_eq_error {check : α → Except ε β} {elements : List α} {cause : ε}
    (failed : elements.mapM check = .error cause) :
    ∃ element ∈ elements, check element = .error cause := by
  induction elements with
  | nil => cases failed
  | cons element rest step =>
      rw [List.mapM_cons, bind_eq_error] at failed
      rcases failed with first | ⟨_, -, later⟩
      · exact ⟨element, List.mem_cons_self, first⟩
      · rcases bind_eq_error.1 later with others | ⟨_, -, none⟩
        · rcases step others with ⟨other, member, failed⟩
          exact ⟨other, List.mem_cons_of_mem _ member, failed⟩
        · cases none

/-- What every step of a run of checks keeps holds at its end. -/
theorem foldlM_induct {set : β → α → Except ε β} {property : β → Prop} {elements : List α}
    (kept : ∀ element ∈ elements, ∀ draft result, set draft element = .ok result →
      property draft → property result)
    {draft result : β} (run : elements.foldlM set draft = .ok result) (start : property draft) :
    property result := by
  induction elements generalizing draft with
  | nil =>
      cases run
      exact start
  | cons element rest step =>
      rw [List.foldlM_cons] at run
      rcases bind_eq_ok.1 run with ⟨next, first, others⟩
      refine step (fun later member => kept later (List.mem_cons_of_mem _ member)) others ?_
      exact kept element List.mem_cons_self draft next first start

/-- A run of checks succeeds if each check does, should this not depend on the draft. -/
theorem exists_foldlM_iff {set : β → α → Except ε β} {accepted : α → Prop}
    {elements : List α}
    (each : ∀ element ∈ elements, ∀ draft,
      (∃ result, set draft element = .ok result) ↔ accepted element) (draft : β) :
    (∃ result, elements.foldlM set draft = .ok result) ↔
      ∀ element ∈ elements, accepted element := by
  induction elements generalizing draft with
  | nil => simp [pure, Except.pure]
  | cons element rest step =>
      have later := step fun other member => each other (List.mem_cons_of_mem _ member)
      simp only [List.foldlM_cons, bind_eq_ok, List.forall_mem_cons,
        ← each element List.mem_cons_self draft]
      constructor
      · rintro ⟨result, next, first, others⟩
        exact ⟨⟨next, first⟩, (later next).1 ⟨result, others⟩⟩
      · rintro ⟨⟨next, first⟩, others⟩
        rcases (later next).2 others with ⟨result, read⟩
        exact ⟨result, next, first, read⟩

theorem forall₂_append_left
    {related : α → β → Prop} {first second : List α} {values : List β} :
    List.Forall₂ related (first ++ second) values ↔
      ∃ front back, List.Forall₂ related first front ∧ List.Forall₂ related second back ∧
        values = front ++ back := by
  induction first generalizing values with
  | nil => simp
  | cons element rest step =>
      simp only [List.cons_append, List.forall₂_cons_left_iff, step]
      constructor
      · rintro ⟨value, _, head, ⟨front, back, own, others, rfl⟩, rfl⟩
        exact ⟨value :: front, back, ⟨value, front, head, own, rfl⟩, others, rfl⟩
      · rintro ⟨_, back, ⟨value, front, head, own, rfl⟩, others, rfl⟩
        exact ⟨value, front ++ back, head, ⟨front, back, own, others, rfl⟩, rfl⟩

theorem forall₂_trans
    {first : α → β → Prop} {second : β → γ → Prop}
    {elements : List α} {middles : List β} {values : List γ}
    (front : List.Forall₂ first elements middles) (back : List.Forall₂ second middles values) :
    List.Forall₂ (fun element value => ∃ middle, first element middle ∧ second middle value)
      elements values := by
  induction front generalizing values with
  | nil =>
      cases back
      exact .nil
  | cons head _ step =>
      cases back with
      | cons next others => exact .cons ⟨_, head, next⟩ (step others)

/-- Values between the pairs of two lists form a list between the two. -/
theorem exists_forall₂_between
    {first : α → β → Prop} {second : β → γ → Prop} {elements : List α} {values : List γ}
    (pairs : List.Forall₂
      (fun element value => ∃ middle, first element middle ∧ second middle value)
      elements values) :
    ∃ middles, List.Forall₂ first elements middles ∧ List.Forall₂ second middles values := by
  induction pairs with
  | nil => exact ⟨[], .nil, .nil⟩
  | cons head _ step =>
      rcases head with ⟨middle, front, back⟩
      rcases step with ⟨middles, fronts, backs⟩
      exact ⟨middle :: middles, .cons front fronts, .cons back backs⟩

/-- Everything in the second list belongs to something in the first one. -/
theorem exists_of_forall₂
    {related : α → β → Prop} {elements : List α} {values : List β}
    (pairs : List.Forall₂ related elements values) :
    ∀ value ∈ values, ∃ element ∈ elements, related element value := by
  induction pairs with
  | nil => simp
  | cons head _ step =>
      intro value member
      rcases List.mem_cons.1 member with rfl | later
      · exact ⟨_, List.mem_cons_self, head⟩
      · rcases step value later with ⟨element, present, relation⟩
        exact ⟨element, List.mem_cons_of_mem _ present, relation⟩

/-- Everything in the first list has something in the second one that belongs to it. -/
theorem exists_right_of_forall₂
    {related : α → β → Prop} {elements : List α} {values : List β}
    (pairs : List.Forall₂ related elements values) :
    ∀ element ∈ elements, ∃ value ∈ values, related element value := by
  induction pairs with
  | nil => simp
  | cons head _ step =>
      intro element member
      rcases List.mem_cons.1 member with rfl | later
      · exact ⟨_, List.mem_cons_self, head⟩
      · rcases step element later with ⟨value, present, relation⟩
        exact ⟨value, List.mem_cons_of_mem _ present, relation⟩

/-- Elements have values that belong to them if each element has one. -/
theorem exists_forall₂_iff {related : α → β → Prop} {elements : List α} :
    (∃ values, List.Forall₂ related elements values) ↔
      ∀ element ∈ elements, ∃ value, related element value := by
  constructor
  · rintro ⟨values, each⟩ element member
    rcases exists_right_of_forall₂ each element member with ⟨value, -, belongs⟩
    exact ⟨value, belongs⟩
  · intro each
    induction elements with
    | nil => exact ⟨[], .nil⟩
    | cons element rest step =>
        rcases each element List.mem_cons_self with ⟨value, belongs⟩
        rcases step fun other member => each other (List.mem_cons_of_mem _ member) with
          ⟨values, others⟩
        exact ⟨value :: values, .cons belongs others⟩

/-- A check of every element of a list succeeds exactly when each check does. -/
theorem exists_mapM_iff {check : α → Except ε β} {elements : List α} :
    (∃ values, elements.mapM check = .ok values) ↔
      ∀ element ∈ elements, ∃ value, check element = .ok value := by
  simp only [mapM_eq_ok, exists_forall₂_iff]

/-- Each value is what its element is changed into if the values are the changed elements. -/
theorem forall₂_eq_map_iff {change : α → β} {elements : List α} {values : List β} :
    List.Forall₂ (fun element value => value = change element) elements values ↔
      values = elements.map change := by
  rw [eq_comm, ← List.forall₂_eq_eq_eq, List.forall₂_map_left_iff]
  simp only [eq_comm]

/-- What belongs to the same elements is related if it is so element by element. -/
theorem forall₂_of_common
    {first : α → β → Prop} {second : α → γ → Prop} {related : β → γ → Prop}
    {elements : List α} {values : List β} {others : List γ}
    (own : List.Forall₂ first elements values) (other : List.Forall₂ second elements others)
    (each : ∀ element ∈ elements, ∀ value another, first element value →
      second element another → related value another) :
    List.Forall₂ related values others := by
  induction own generalizing others with
  | nil =>
      cases other
      exact .nil
  | cons head _ step =>
      cases other with
      | cons next rest =>
          refine .cons (each _ List.mem_cons_self _ _ head next)
            (step rest fun element member => ?_)
          exact each element (List.mem_cons_of_mem _ member)

/-- A list is the image of another one if it is so element by element. -/
theorem eq_map_of_common
    {first : α → β → Prop} {second : α → γ → Prop} {change : β → γ}
    {elements : List α} {values : List β} {others : List γ}
    (own : List.Forall₂ first elements values) (other : List.Forall₂ second elements others)
    (each : ∀ element ∈ elements, ∀ value another, first element value →
      second element another → another = change value) :
    others = values.map change := by
  exact forall₂_eq_map_iff.1 (forall₂_of_common own other each)

end SqlScribe.Checked
