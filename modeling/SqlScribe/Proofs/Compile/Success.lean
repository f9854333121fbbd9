import SqlScribe.Proofs.Nesting

/-!
# When compilations succeed

For each part of a query that needs no constraints, exactly when it is
accepted.  A list of compilations succeeds exactly when each of them does,
provided that their success does not depend on the state they start from:
`exists_steps_iff`.

Success depends on names only as they can be written.  Two scopes that differ
in generated aliases accept the same paths, as long as no path is qualified by
such an alias.
-/

namespace SqlScribe

open Compile
open Checked

/-- The compilation succeeds from this state on. -/
def Compile.Succeeds {α : Type} (action : Compile α) (before : CompileState) : Prop :=
  ∃ value after, Yields action before value after

theorem Compile.exists_steps_iff {α β : Type}
    {step : α → CompileState → β → CompileState → Prop} {elements : List α}
    {accepted : α → Prop} {before : CompileState}
    (each : ∀ element ∈ elements, ∀ start,
      (∃ value final, step element start value final) ↔ accepted element) :
    (∃ values final, Steps step elements before values final) ↔
      ∀ element ∈ elements, accepted element := by
  -- One step ends in a state that nothing is known of, and the next one starts from there.
  induction elements generalizing before with
  | nil => simp
  | cons element rest induct =>
      have others {start : CompileState} := @induct start fun other member =>
        each other (List.mem_cons_of_mem _ member)
      have first := each element List.mem_cons_self before
      simp only [steps_cons, List.forall_mem_cons]
      constructor
      · rintro ⟨_, final, value, middle, values, head, tail, rfl⟩
        exact ⟨first.1 ⟨value, middle, head⟩, others.1 ⟨values, final, tail⟩⟩
      · rintro ⟨own, later⟩
        rcases first.2 own with ⟨value, middle, head⟩
        rcases (@others middle).2 later with ⟨values, final, tail⟩
        exact ⟨_, final, value, middle, values, head, tail, rfl⟩

/-! ## Paths in scope -/

/-- The path can be read, and what qualifies it is in scope. -/
def PathInScope (scope : List String) (path : String) : Prop :=
  ∃ parsed, ColumnPath.parse path = .ok parsed ∧ ∀ qualifier ∈ parsed.qualifier, qualifier ∈ scope

/-- The same names are in scope, apart from generated aliases. -/
def SameWritten (names scope : List String) : Prop :=
  ∀ name, ¬ IsGeneratedAlias name → (name ∈ names ↔ name ∈ scope)

theorem SameWritten.refl (names : List String) : SameWritten names names :=
  fun _ _ => Iff.rfl

theorem SameWritten.append {front back names scope : List String}
    (own : SameWritten front back) (outer : SameWritten names scope) :
    SameWritten (front ++ names) (back ++ scope) := by
  intro name written
  rw [List.mem_append, List.mem_append, own name written, outer name written]

/-- A path means something in two scopes alike that differ in generated aliases only. -/
theorem SameWritten.pathInScope_iff {names scope : List String} {path : String}
    (same : SameWritten names scope)
    (written : ∀ qualifier, QualifiedBy path qualifier → ¬ IsGeneratedAlias qualifier) :
    PathInScope names path ↔ PathInScope scope path := by
  refine exists_congr fun parsed => and_congr_right fun read => ?_
  refine forall₂_congr fun qualifier member => ?_
  exact same qualifier (written qualifier ⟨parsed, read, member⟩)

theorem Names.exists_resolveIn_iff {names : Names} {owner path : String} :
    (∃ column, names.resolveIn owner path = .ok column) ↔ PathInScope names.all path := by
  simp only [resolveIn_eq_ok]
  constructor
  · rintro ⟨_, parsed, read, qualified, -⟩
    exact ⟨parsed, read, qualified⟩
  · rintro ⟨parsed, read, qualified⟩
    exact ⟨_, parsed, read, qualified, rfl⟩

variable {config : Config} {names : Names} {owner field : String}

theorem exists_patternSubject_iff {constraint : Constraint} :
    (∃ subject, patternSubject config names owner field constraint.affix = .ok subject) ↔
      ∀ path ∈ constraint.paths config field, PathInScope names.all path := by
  unfold patternSubject Constraint.paths
  split
  · have each := @exists_mapM_iff _ _ _ (fun part => names.resolveIn owner (String.ofList part))
      (Text.splitAt config.hasDelimiter field.toList)
    simp only [Names.exists_resolveIn_iff] at each
    simp only [map_eq_ok, List.forall_mem_map]
    rw [← each]
    constructor
    · rintro ⟨_, columns, read, rfl⟩
      exact ⟨columns, read⟩
    · rintro ⟨columns, read⟩
      exact ⟨_, columns, read, rfl⟩
  · simp only [map_eq_ok, List.forall_mem_singleton, ← @Names.exists_resolveIn_iff names owner]
    constructor
    · rintro ⟨_, column, read, rfl⟩
      exact ⟨column, read⟩
    · rintro ⟨column, read⟩
      exact ⟨_, column, read, rfl⟩

/-! ## The parts of a query -/

/-- The output names of a query that stands in no other one: identifiers, all different. -/
def Selection.Outputs (used : List String) (selection : List Selection) : Prop :=
  (∀ item ∈ selection, IsIdentifier item.output ∧ item.output ∉ used) ∧
    (selection.map Selection.output).Nodup

/-- One more output is an identifier that was not used before, and is not used again. -/
theorem Selection.outputs_cons {used : List String} {first : Selection} {rest : List Selection} :
    Selection.Outputs used (first :: rest) ↔
      IsIdentifier first.output ∧ first.output ∉ used ∧
        Selection.Outputs (first.output :: used) rest := by
  unfold Outputs
  rw [List.forall_mem_cons, List.map_cons, List.nodup_cons]
  simp only [List.mem_map, List.mem_cons, not_or]
  constructor
  · rintro ⟨⟨⟨identifier, unused⟩, each⟩, once, distinct⟩
    refine ⟨identifier, unused, fun item member => ⟨(each item member).1, ?_⟩, distinct⟩
    exact ⟨fun same => once ⟨item, member, same⟩, (each item member).2⟩
  · rintro ⟨identifier, unused, each, distinct⟩
    refine ⟨⟨⟨identifier, unused⟩, fun item member => ⟨(each item member).1, ?_⟩⟩, ?_, distinct⟩
    · exact (each item member).2.2
    · rintro ⟨item, member, same⟩
      exact (each item member).2.1 same

theorem exists_selectItems_iff {embedded : Bool} {used : List String} {selection : List Selection} :
    (∃ items, selectItems names embedded used selection = .ok items) ↔
      (∀ item ∈ selection, PathInScope names.all item.path) ∧
        (embedded = false → Selection.Outputs used selection) := by
  induction selection generalizing used with
  | nil => simp [selectItems, Selection.Outputs]
  | cons first rest step =>
      simp only [List.forall_mem_cons, ← @Names.exists_resolveIn_iff names names.primary first.path]
      cases embedded with
      | true =>
          simp only [Bool.true_eq_false, false_implies, and_true] at step ⊢
          simp only [selectItems, bind_eq_ok, if_true, pure_eq_ok, ← @step used]
          constructor
          · rintro ⟨_, column, resolved, items, read, rfl⟩
            exact ⟨⟨column, resolved⟩, items, read⟩
          · rintro ⟨⟨column, resolved⟩, items, read⟩
            exact ⟨_, column, resolved, items, read, rfl⟩
      | false =>
          simp only [true_implies, Selection.outputs_cons] at step ⊢
          simp only [selectItems, bind_eq_ok, Bool.false_eq_true, if_false, checkName_eq_ok]
          constructor
          · rintro ⟨items, column, resolved, output, ⟨identifier, rfl⟩, read⟩
            split at read
            · simp at read
            · rename_i unused
              simp only [bind_eq_ok, pure_eq_ok] at read
              rcases read with ⟨others, read, rfl⟩
              rcases step.1 ⟨others, read⟩ with ⟨paths, outputs⟩
              exact ⟨⟨⟨column, resolved⟩, paths⟩, identifier, by simpa using unused, outputs⟩
          · rintro ⟨⟨⟨column, resolved⟩, paths⟩, identifier, unused, outputs⟩
            rcases step.2 ⟨paths, outputs⟩ with ⟨items, read⟩
            refine ⟨⟨column, some first.output⟩ :: items, column, resolved, _, ⟨identifier, rfl⟩,
              ?_⟩
            rw [if_neg (by simpa using unused), read]
            rfl

theorem exists_projection_iff {frame : QueryFrame} :
    (∃ projection, frame.projection names = .ok projection) ↔
      (∀ item ∈ frame.selection, PathInScope names.all item.path) ∧
        (frame.embedded = false → Selection.Outputs [] frame.selection) := by
  rw [← exists_selectItems_iff]
  unfold QueryFrame.projection
  split
  · rename_i empty
    rw [List.isEmpty_iff.1 empty]
    simp [selectItems]
  · simp only [map_eq_ok]
    constructor
    · rintro ⟨_, items, read, rfl⟩
      exact ⟨items, read⟩
    · rintro ⟨items, read⟩
      exact ⟨_, items, read, rfl⟩

theorem exists_order_iff {frame : QueryFrame} :
    (∃ order, frame.order names = .ok order) ↔
      ∀ key ∈ frame.sort, PathInScope names.all key.field := by
  simp only [QueryFrame.order, exists_mapM_iff, bind_eq_ok, pure_eq_ok]
  refine forall₂_congr fun key _ => ?_
  rw [← @Names.exists_resolveIn_iff names names.primary]
  constructor
  · rintro ⟨_, column, resolved, -⟩
    exact ⟨column, resolved⟩
  · rintro ⟨column, resolved⟩
    exact ⟨_, column, resolved, rfl⟩

theorem exists_source_iff {frame : QueryFrame} {depth : Nat} {before : CompileState} :
    Succeeds (frame.source config depth) before ↔
      depth ≤ config.maxSubqueryDepth ∧ IsIdentifier frame.table ∧
        (∀ aliasName ∈ frame.aliases, IsIdentifier aliasName) ∧ frame.aliases.Nodup ∧
        (frame.embedded = false → frame.table ∉ frame.aliases) := by
  simp only [Succeeds, yields_source, checkAliases_eq_ok]
  cases frame.embedded with
  | true => simp [and_assoc]
  | false =>
      simp only [Bool.false_eq_true, if_false, List.mem_singleton, true_implies]
      constructor
      · rintro ⟨_, _, shallow, table, ⟨each, distinct⟩, -⟩
        exact ⟨shallow, table, fun name member => (each name member).1, distinct,
          fun clash => (each _ clash).2 rfl⟩
      · rintro ⟨shallow, table, each, distinct, other⟩
        refine ⟨_, _, shallow, table, ⟨fun name member => ⟨each name member, ?_⟩, distinct⟩,
          rfl, rfl⟩
        rintro rfl
        exact other member

theorem exists_joinVia_iff
    {earlier : List String} {joined : TableRef} {via : String} {targetKey : Option String} :
    (∃ node, joinVia config names earlier joined via targetKey = .ok node) ↔
      PathInScope (names.primary :: earlier) via ∧
        IsIdentifier (targetKey.getD config.identifierKey) := by
  simp only [joinVia_eq_ok, PathInScope, List.mem_cons]
  constructor
  · rintro ⟨_, path, parsed, known, key, -⟩
    exact ⟨⟨path, parsed, known⟩, key⟩
  · rintro ⟨⟨path, parsed, known⟩, key⟩
    exact ⟨_, path, parsed, known, key, rfl⟩

end SqlScribe
