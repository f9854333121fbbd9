import SqlScribe.Proofs.Document.Constraint
import SqlScribe.Query

/-!
# Constraints in groups

However the constraints on different fields are mixed when they are added, a
map keeps those on one field together and in order: `ConstraintMap.Groups` says
what the map has of the additions, and that it has nothing else.

A map that is put into a query arrives group by group.  That this makes no
difference to adding its constraints in their first order is
`Query.constrain_build`.
-/

namespace SqlScribe

open ConstraintMap

/-! ## Maps -/

/-- The map has an entry for each field of the additions, and there what was added for it. -/
structure ConstraintMap.Groups
    (map : ConstraintMap) (additions : List (String × Constraint)) : Prop where
  distinct : (map.entries.map FieldConstraints.field).Nodup
  ordered : map.entries.map FieldConstraints.field = (additions.map Prod.fst).eraseDups
  nonempty : ∀ entry ∈ map.entries, entry.constraints ≠ []
  own : ∀ entry ∈ map.entries,
    entry.constraints =
      (additions.filter fun addition => addition.1 = entry.field).map Prod.snd
  kept : map.members.Perm additions

theorem ConstraintMap.fields_build (additions : List (String × Constraint)) :
    (build additions).entries.map FieldConstraints.field =
      (additions.map Prod.fst).eraseDups := by
  rw [entries_build, List.map_map]
  exact List.map_id _

theorem ConstraintMap.mem_entries_build
    {additions : List (String × Constraint)} {entry : FieldConstraints} :
    entry ∈ (build additions).entries ↔
      ∃ addition ∈ additions, entry = entryOf additions addition.1 := by
  simp only [entries_build, List.mem_map, List.mem_eraseDups]
  constructor
  · rintro ⟨_, ⟨addition, member, rfl⟩, rfl⟩
    exact ⟨addition, member, rfl⟩
  · rintro ⟨addition, member, rfl⟩
    exact ⟨_, ⟨addition, member, rfl⟩, rfl⟩

theorem ConstraintMap.groups_build (additions : List (String × Constraint)) :
    (build additions).Groups additions where
  distinct := by
    rw [fields_build]
    exact nodup_eraseDups _
  ordered := fields_build additions
  nonempty := by
    intro entry member
    rcases mem_entries_build.1 member with ⟨addition, added, rfl⟩
    have own : addition ∈ additions.filter fun other => other.1 = addition.1 :=
      List.mem_filter.2 ⟨added, decide_eq_true rfl⟩
    exact List.ne_nil_of_mem (List.mem_map_of_mem own)
  own := by
    intro entry member
    rcases mem_entries_build.1 member with ⟨addition, added, rfl⟩
    rfl
  kept := by
    rw [members_build]
    exact groupedBy_perm Prod.fst additions

/-! ## Queries -/

/-- Adds constraints on fields to a query, one after another. -/
def Query.filterEach (query : Query) (additions : List (String × Constraint)) : Query :=
  additions.foldl (fun query addition => query.filter addition.1 addition.2) query

theorem Query.filterEach_eq (query : Query) (additions : List (String × Constraint)) :
    query.filterEach additions =
      { query with
        conditions :=
          additions.foldl (fun map addition => map.add addition.1 addition.2)
            query.conditions } := by
  induction additions generalizing query with
  | nil => rfl
  | cons addition rest step => exact step (query.filter addition.1 addition.2)

/-- Putting a map into a query is the same as adding its constraints in their first order. -/
theorem Query.constrain_build
    {query : Query} {first : List (String × Constraint)}
    (built : query.conditions = build first) (second : List (String × Constraint)) :
    query.constrain (build second) = query.filterEach second ∧
      (query.constrain (build second)).conditions = build (first ++ second) := by
  have merged : query.conditions.merge (build second) = build (first ++ second) := by
    rw [built, merge_build]
  have added :
      second.foldl (fun map addition => map.add addition.1 addition.2) query.conditions =
        build (first ++ second) := by
    rw [built, build, build, List.foldl_append]
  constructor
  · rw [Query.filterEach_eq, added, Query.constrain, merged]
  · exact merged

/--
Adding constraints one after another groups them by their fields, in the order
in which the fields were named first, and keeps the order on each field.  So
does reading a document of constraints.  Putting such a map into a query, whose
own constraints were added before, is the same as adding them one at a time.
-/
theorem additions_grouped :
    (∀ additions, (build additions).Groups additions) ∧
      (∀ document map, Document.constraintMap document = .ok map →
        ∃ additions,
          List.Forall₂ Document.Member.Reads (Document.constraintMembers document) additions ∧
            map = build additions) ∧
      ∀ (query : Query) first second, query.conditions = build first →
        query.constrain (build second) = query.filterEach second ∧
          (query.constrain (build second)).conditions = build (first ++ second) :=
  ⟨groups_build, fun _ _ read => (Document.constraintMap_eq_ok.1 read).2,
    fun _ _ second built => Query.constrain_build built second⟩

/-- A query for grown-ups, to which a name and an upper bound on the age are added. -/
theorem additions_grouped_boundedAge :
    let adults : List (String × Constraint) :=
      [("age", .compare .greaterOrEqual (.number (.integer 18)))]
    let searched : List (String × Constraint) :=
      [("name", .matching .start "A"), ("age", .compare .less (.number (.integer 65))),
        ("name", .present true)]
    (build (adults ++ searched)).entries =
        [⟨"age", [.compare .greaterOrEqual (.number (.integer 18)),
            .compare .less (.number (.integer 65))]⟩,
          ⟨"name", [.matching .start "A", .present true]⟩] ∧
      (({ table := "people", conditions := build adults } : Query).constrain
          (build searched)).conditions = build (adults ++ searched) := by
  intro adults searched
  exact ⟨rfl, (additions_grouped.2.2 _ adults searched rfl).2⟩

end SqlScribe
