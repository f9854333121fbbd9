import SqlScribe.Entries
import SqlScribe.Proofs.Nesting

/-!
# Renaming the tables of a SELECT

`Select.renamed` gives new names to the tables of SELECTs and to the columns
that refer to them.  It knows the scopes of SQL: where a join has a name, that
name stands for the join and not for a table around it, so it is left alone
there, `sparing`.

`Renaming` says what the renamings of this library are like: some names get
generated aliases, different ones, and all other names stay.
-/

namespace SqlScribe

/-! ## Renamed trees -/

/-- The renaming where some names stand for something else. -/
def sparing (spared : List String) (rename : String → String) (name : String) : String :=
  if name ∈ spared then name else rename name

theorem sparing_of_mem {spared : List String} {rename : String → String} {name : String}
    (member : name ∈ spared) : sparing spared rename name = name :=
  if_pos member

theorem sparing_of_not_mem {spared : List String} {rename : String → String} {name : String}
    (visible : name ∉ spared) : sparing spared rename name = rename name :=
  if_neg visible

/-- A name that stays does so wherever it is hidden. -/
theorem sparing_of_fixed {spared : List String} {rename : String → String} {name : String}
    (fixed : rename name = name) : sparing spared rename name = name := by
  unfold sparing
  split
  · rfl
  · exact fixed

def ColumnRef.renamed (rename : String → String) (column : ColumnRef) : ColumnRef :=
  { column with qualifier := column.qualifier.map rename }

def SelectItem.renamed (rename : String → String) (item : SelectItem) : SelectItem :=
  { item with column := item.column.renamed rename }

def OrderKey.renamed (rename : String → String) (key : OrderKey) : OrderKey :=
  { key with column := key.column.renamed rename }

def Projection.renamed (rename : String → String) : Projection → Projection
  | .columns items => .columns (items.map (SelectItem.renamed rename))
  | other => other

/-- The table under its new name, which it needs an alias for if it is another one. -/
def TableRef.renamed (rename : String → String) (table : TableRef) : TableRef :=
  if rename table.reference = table.reference then table
  else ⟨table.name, some (rename table.reference)⟩

mutual

/-- The condition with renamed tables. -/
def Expr.renamed (rename : String → String) : Expr → Expr
  | .column column => .column (column.renamed rename)
  | .concat columns => .concat (columns.map (ColumnRef.renamed rename))
  | .literal value => .literal value
  | .compare left comparison right =>
      .compare (left.renamed rename) comparison (right.renamed rename)
  | .like subject pattern => .like (subject.renamed rename) pattern
  | .nullCheck subject isNull => .nullCheck (subject.renamed rename) isNull
  | .inList subject values negated => .inList (subject.renamed rename) values negated
  | .inSelect subject query negated =>
      .inSelect (subject.renamed rename) (query.renamed rename) negated
  | .and parts => .and (Expr.allRenamed rename parts)
  | .group inner => .group (inner.renamed rename)
  | .truth => .truth

def Expr.allRenamed (rename : String → String) : List Expr → List Expr
  | [] => []
  | part :: rest => part.renamed rename :: Expr.allRenamed rename rest

/-- The joins with renamed tables in their conditions, which see the joins before them. -/
def Join.allRenamed (rename : String → String) (earlier : List String) : List Join → List Join
  | [] => []
  | ⟨table, condition⟩ :: rest =>
      ⟨table, condition.renamed (sparing (earlier ++ [table.reference]) rename)⟩ ::
        Join.allRenamed rename (earlier ++ [table.reference]) rest

/-- The SELECT with renamed tables; its joins keep their names. -/
def Select.renamed (rename : String → String) : Select → Select
  | ⟨projection, source, joins, condition, order, limit⟩ =>
      let inner := sparing (Join.references joins) rename
      ⟨projection.renamed inner, source.renamed rename, Join.allRenamed rename [] joins,
        Expr.clauseRenamed inner condition, order.map (OrderKey.renamed inner), limit⟩

def Expr.clauseRenamed (rename : String → String) : Option Expr → Option Expr
  | none => none
  | some condition => some (condition.renamed rename)

end

/-- What a SELECT returns, without names for the columns. -/
def Projection.unnamed : Projection → Projection
  | .columns items => .columns (items.map fun item => { item with output := none })
  | other => other

def Select.unnamed (select : Select) : Select :=
  { select with projection := select.projection.unnamed }

theorem Select.unnamed_renamed {select : Select} {rename : String → String} :
    (select.renamed rename).unnamed = select.unnamed.renamed rename := by
  rcases select with ⟨_ | items | output, source, joins, condition, order, limit⟩
  · rfl
  · simp only [Select.unnamed, Projection.unnamed, Select.renamed, Projection.renamed, List.map_map]
    rfl
  · rfl

section Conditions

variable {rename : String → String} {parts : List Expr} {groups : List (List Expr)}

theorem Expr.allRenamed_eq_map :
    Expr.allRenamed rename parts = parts.map (Expr.renamed rename) := by
  induction parts with
  | nil => rfl
  | cons part rest step => rw [Expr.allRenamed, step, List.map_cons]

theorem Expr.renamed_conjunction :
    (Expr.conjunction parts).renamed rename =
      Expr.conjunction (parts.map (Expr.renamed rename)) := by
  rcases parts with _ | ⟨first, _ | ⟨second, rest⟩⟩
  · rfl
  · rfl
  · simp only [Expr.conjunction, Expr.renamed, Expr.allRenamed_eq_map, List.map_cons]

theorem map_renamed_fieldParts :
    (fieldParts parts).map (Expr.renamed rename) =
      fieldParts (parts.map (Expr.renamed rename)) := by
  rcases parts with _ | ⟨first, _ | ⟨second, rest⟩⟩
  · rfl
  · rfl
  · simp only [fieldParts, List.map_cons, List.map_nil, Expr.renamed, Expr.allRenamed_eq_map]

theorem map_renamed_allParts :
    (groups.flatMap fieldParts).map (Expr.renamed rename) =
      (groups.map (List.map (Expr.renamed rename))).flatMap fieldParts := by
  rw [List.map_flatMap, List.flatMap_map]
  exact List.flatMap_congr fun group _ => map_renamed_fieldParts

theorem Expr.clauseRenamed_whereClause :
    Expr.clauseRenamed rename (whereClause (groups.flatMap fieldParts)) =
      whereClause ((groups.map (List.map (Expr.renamed rename))).flatMap fieldParts) := by
  rw [← map_renamed_allParts, whereClause, whereClause, List.isEmpty_map]
  split
  · rfl
  · rw [Expr.clauseRenamed, Expr.renamed_conjunction]

theorem Expr.renamed_onCondition :
    (onCondition (groups.flatMap fieldParts)).renamed rename =
      onCondition ((groups.map (List.map (Expr.renamed rename))).flatMap fieldParts) := by
  rw [← map_renamed_allParts, onCondition, onCondition, Expr.renamed, List.isEmpty_map]
  split
  · rfl
  · rw [Expr.renamed_conjunction]

theorem Expr.renamed_inListOrTruth {subject : Expr} {values : List Json} {negated : Bool} :
    (Expr.inListOrTruth subject values negated).renamed rename =
      Expr.inListOrTruth (subject.renamed rename) values negated := by
  unfold Expr.inListOrTruth
  split <;> rfl

/-- A plain constraint says the same of renamed columns. -/
theorem Constraint.renamed_predicate {constraint : Constraint} {subject : Expr} :
    (constraint.predicate subject).renamed rename =
      constraint.predicate (subject.renamed rename) := by
  cases constraint with
  | inList negated values => exact Expr.renamed_inListOrTruth
  | _ => rfl

end Conditions

/-! ## Renamings -/

/-- The renaming gives different generated aliases to these names, and leaves all others alone. -/
structure Renaming (rename : String → String) (renamed : List String) : Prop where
  injective : ∀ first ∈ renamed, ∀ second ∈ renamed, rename first = rename second → first = second
  generated : ∀ name ∈ renamed, IsGeneratedAlias (rename name)
  fixed : ∀ name, name ∉ renamed → rename name = name

theorem Renaming.congr {rename : String → String} {renamed others : List String}
    (oneToOne : Renaming rename renamed) (same : ∀ name, name ∈ renamed ↔ name ∈ others) :
    Renaming rename others where
  injective first early second late :=
    oneToOne.injective first ((same first).2 early) second ((same second).2 late)
  generated name member := oneToOne.generated name ((same name).2 member)
  fixed name absent := oneToOne.fixed name fun member => absent ((same name).1 member)

/-- Names in pairs, all first ones and all second ones different, are related by a renaming. -/
theorem Renaming.exists_of_pairs {pairs : List (String × String)}
    (domain : (pairs.map Prod.fst).Nodup) (image : (pairs.map Prod.snd).Nodup)
    (generated : ∀ pair ∈ pairs, IsGeneratedAlias pair.2) :
    ∃ rename, Renaming rename (pairs.map Prod.fst) ∧
      ∀ pair ∈ pairs, rename pair.1 = pair.2 := by
  let rename : String → String := fun name => (Entries.get? pairs name).getD name
  have given : ∀ pair ∈ pairs, rename pair.1 = pair.2 := by
    rintro ⟨name, value⟩ member
    cases found : Entries.get? pairs name with
    | none => exact absurd (List.mem_map_of_mem member) (Entries.get?_eq_none.1 found)
    | some other =>
        have same := List.inj_on_of_nodup_map domain (Entries.mem_of_get? found) member rfl
        simpa [rename, found] using same
  refine ⟨rename, ⟨?_, ?_, ?_⟩, given⟩
  · intro first early second late same
    rcases List.mem_map.1 early with ⟨front, member, rfl⟩
    rcases List.mem_map.1 late with ⟨back, other, rfl⟩
    rw [given front member, given back other] at same
    rw [List.inj_on_of_nodup_map image member other same]
  · intro name member
    rcases List.mem_map.1 member with ⟨pair, present, rfl⟩
    rw [given pair present]
    exact generated pair present
  · intro name absent
    show (Entries.get? pairs name).getD name = name
    rw [Entries.get?_eq_none.2 absent, Option.getD_none]

end SqlScribe
