import Mathlib.Data.List.Forall2
import Mathlib.Data.List.Induction
import SqlScribe.Constraint

/-!
# Maps of constraints

Adding constraints one after another groups them by their fields.  A field
stands where it was named first, and its constraints keep their order:
`ConstraintMap.entries_build` says so for every sequence of additions.

Putting a whole map into another one has the same effect as adding its
constraints again, one at a time.
-/

namespace SqlScribe

/-- The elements with equal keys next to each other, in the order in which keys occur first. -/
def groupedBy {α : Type} (key : α → String) (elements : List α) : List α :=
  (elements.map key).eraseDups.flatMap fun name =>
    elements.filter fun element => key element = name

section GroupedBy

variable {α β : Type}

theorem groupedBy_eq_nil {key : α → String} {elements : List α} :
    groupedBy key elements = [] ↔ elements = [] := by
  cases elements with
  | nil => simp [groupedBy]
  | cons element rest => simp [groupedBy, List.eraseDups_cons]

/-- What belongs to each other still does so among the elements with one key. -/
theorem forall₂_filter_key
    (key : α → String) (other : β → String)
    {related : α → β → Prop} {elements : List α} {values : List β}
    (agree : ∀ element value, related element value → key element = other value)
    (pairs : List.Forall₂ related elements values) (name : String) :
    List.Forall₂ related (elements.filter fun element => key element = name)
      (values.filter fun value => other value = name) := by
  induction pairs with
  | nil => exact .nil
  | cons head _ step =>
      simp only [List.filter_cons, agree _ _ head]
      split
      · exact .cons head step
      · exact step

theorem map_key_eq
    {key : α → String} {other : β → String}
    {related : α → β → Prop} {elements : List α} {values : List β}
    (agree : ∀ element value, related element value → key element = other value)
    (pairs : List.Forall₂ related elements values) : elements.map key = values.map other := by
  induction pairs with
  | nil => rfl
  | cons head _ step => rw [List.map_cons, List.map_cons, agree _ _ head, step]

/-- Grouping keeps elements together that belong to each other. -/
theorem forall₂_groupedBy
    (key : α → String) (other : β → String)
    {related : α → β → Prop} {elements : List α} {values : List β}
    (agree : ∀ element value, related element value → key element = other value)
    (pairs : List.Forall₂ related elements values) :
    List.Forall₂ related (groupedBy key elements) (groupedBy other values) := by
  rw [groupedBy, groupedBy, map_key_eq agree pairs]
  induction (values.map other).eraseDups with
  | nil => exact .nil
  | cons name names step =>
      exact List.rel_append (forall₂_filter_key key other agree pairs name) step

end GroupedBy

/-- One more element stands at the end, unless it is there already. -/
theorem eraseDups_append_singleton (names : List String) (name : String) :
    (names ++ [name]).eraseDups = names.eraseDups ++ if name ∈ names then [] else [name] := by
  rw [List.eraseDups_append, List.removeAll]
  by_cases known : name ∈ names
  · simp [known]
  · simp [known, List.eraseDups_cons]

theorem nodup_eraseDups (names : List String) : names.eraseDups.Nodup := by
  induction names using List.reverseRecOn with
  | nil => simp
  | append_singleton names name step =>
      rw [eraseDups_append_singleton]
      by_cases known : name ∈ names
      · simpa [known] using step
      · simp [known, List.nodup_append, step, List.mem_eraseDups]
        exact fun other member same => known (same ▸ member)

theorem eraseDups_filter (keep : String → Bool) (names : List String) :
    (names.filter keep).eraseDups = names.eraseDups.filter keep := by
  induction names using List.reverseRecOn with
  | nil => rfl
  | append_singleton names name step =>
      rw [List.filter_append, eraseDups_append_singleton, List.filter_append, ← step]
      by_cases kept : keep name
      · by_cases known : name ∈ names
        · simp [kept, known, eraseDups_append_singleton]
        · simp [kept, known, eraseDups_append_singleton]
      · by_cases known : name ∈ names
        · simp [kept, known]
        · simp [kept, known]

section Regrouped

variable {α : Type} (key : α → String)

/-- The keys of groups that follow one another are named in the order of the groups. -/
theorem eraseDups_keys_of_groups
    {names : List String} {group : String → List α}
    (distinct : names.Nodup)
    (nonempty : ∀ name ∈ names, group name ≠ [])
    (own : ∀ name ∈ names, ∀ element ∈ group name, key element = name) :
    ((names.flatMap group).map key).eraseDups = names := by
  induction names with
  | nil => rfl
  | cons name rest step =>
      rcases List.nodup_cons.1 distinct with ⟨absent, others⟩
      have tail := step others (fun other member => nonempty other (List.mem_cons_of_mem _ member))
        (fun other member => own other (List.mem_cons_of_mem _ member))
      have keys : (group name).map key = List.replicate (group name).length name :=
        List.eq_replicate_iff.2 ⟨by simp, by simpa using own name List.mem_cons_self⟩
      have apart : ((rest.flatMap group).map key).filter (fun other => !other == name) =
          (rest.flatMap group).map key := by
        rw [List.filter_eq_self]
        intro other member
        rcases List.mem_map.1 member with ⟨element, inside, rfl⟩
        rcases List.mem_flatMap.1 inside with ⟨present, known, belongs⟩
        have named := own present (List.mem_cons_of_mem _ known) element belongs
        have different : key element ≠ name := fun same => absent (same ▸ named ▸ known)
        simpa using different
      rcases Nat.exists_eq_succ_of_ne_zero
        (mt List.length_eq_zero_iff.1 (nonempty name List.mem_cons_self)) with ⟨count, size⟩
      rw [List.flatMap_cons, List.map_append, keys, size, List.replicate_succ, List.cons_append,
        List.eraseDups_cons, List.filter_append, apart]
      simp [tail]

theorem eraseDups_keys_groupedBy (elements : List α) :
    ((groupedBy key elements).map key).eraseDups = (elements.map key).eraseDups := by
  refine eraseDups_keys_of_groups key (nodup_eraseDups _) ?_ ?_
  · intro name member
    rcases List.mem_map.1 (List.mem_eraseDups.1 member) with ⟨element, present, rfl⟩
    exact List.ne_nil_of_mem (List.mem_filter.2 ⟨present, by simp⟩)
  · intro name _ element inside
    simpa using (List.mem_filter.1 inside).2

theorem filter_groupedBy (elements : List α) (name : String) :
    (groupedBy key elements).filter (fun element => key element = name) =
      elements.filter fun element => key element = name := by
  have pieces (names : List String) (distinct : names.Nodup) :
      (names.flatMap fun other => elements.filter fun element => key element = other).filter
          (fun element => key element = name) =
        if name ∈ names then elements.filter fun element => key element = name else [] := by
    induction names with
    | nil => rfl
    | cons other rest step =>
        rcases List.nodup_cons.1 distinct with ⟨absent, others⟩
        rw [List.flatMap_cons, List.filter_append, step others, List.filter_filter]
        by_cases same : name = other
        · subst same
          simp [absent]
        · simp [same]
          intro element _ first second
          exact same (first.symm.trans second)
  rw [groupedBy, pieces _ (nodup_eraseDups _)]
  split
  · rfl
  · rename_i absent
    symm
    rw [List.filter_eq_nil_iff]
    intro element member
    have other : key element ≠ name := fun same =>
      absent (List.mem_eraseDups.2 (List.mem_map.2 ⟨element, member, same⟩))
    simpa using other

/-- Grouping neither adds nor drops elements. -/
theorem groupedBy_perm (elements : List α) : (groupedBy key elements).Perm elements := by
  classical
  rw [List.perm_iff_count]
  intro element
  have own : decide (key element = key element) = true := decide_eq_true rfl
  have among (others : List α) :
      List.count element (others.filter fun other => key other = key element) =
        List.count element others :=
    List.count_filter own
  rw [← among, filter_groupedBy, among]

end Regrouped

namespace ConstraintMap

theorem eq_of_entries {map other : ConstraintMap} (same : map.entries = other.entries) :
    map = other := by
  cases map
  cases other
  exact congrArg ConstraintMap.mk same

/-- The constraints of a map with their fields, in order. -/
def members (map : ConstraintMap) : List (String × Constraint) :=
  map.entries.flatMap fun entry => entry.constraints.map fun constraint => (entry.field, constraint)

/-- The map that results from adding constraints one after another. -/
def build (additions : List (String × Constraint)) : ConstraintMap :=
  additions.foldl (fun map addition => map.add addition.1 addition.2) .empty

/-- The entry of a field after some additions. -/
def entryOf (additions : List (String × Constraint)) (field : String) : FieldConstraints :=
  ⟨field, (additions.filter fun addition => addition.1 = field).map Prod.snd⟩

/-- An addition changes the entry of its field, or makes a new one at the end. -/
theorem addTo_map_entryOf
    {additions : List (String × Constraint)} {fields : List String}
    (distinct : fields.Nodup) (field : String) (constraint : Constraint) :
    addTo field constraint (fields.map (entryOf additions)) =
      fields.map (entryOf (additions ++ [(field, constraint)])) ++
        if field ∈ fields then [] else [⟨field, [constraint]⟩] := by
  induction fields with
  | nil => simp [addTo]
  | cons first rest step =>
      rcases List.nodup_cons.1 distinct with ⟨absent, others⟩
      by_cases same : first = field
      · subst same
        have unchanged : rest.map (entryOf additions) =
            rest.map (entryOf (additions ++ [(first, constraint)])) := by
          refine List.map_congr_left fun name member => ?_
          have different : first ≠ name := fun equal => absent (equal ▸ member)
          simp [entryOf, different]
        simp only [List.map_cons, addTo, entryOf, if_true, List.mem_cons, true_or, List.append_nil]
        rw [← unchanged]
        simp
      · have different : field ≠ first := fun equal => same equal.symm
        simp only [List.map_cons, addTo, step others, List.mem_cons, different, false_or]
        simp [entryOf, same, different]

/-- A map has an entry for each field that was named, in the order of first naming. -/
theorem entries_build (additions : List (String × Constraint)) :
    (build additions).entries = (additions.map Prod.fst).eraseDups.map (entryOf additions) := by
  induction additions using List.reverseRecOn with
  | nil => rfl
  | append_singleton additions addition step =>
      rcases addition with ⟨field, constraint⟩
      have added : (build (additions ++ [(field, constraint)])).entries =
          addTo field constraint (build additions).entries := by
        simp [build, add]
      rw [added, step, addTo_map_entryOf (nodup_eraseDups _), List.map_append, List.map_singleton,
        eraseDups_append_singleton, List.map_append]
      apply congrArg _
      simp only [List.mem_eraseDups]
      split
      · rfl
      · rename_i absent
        have none : (additions.filter fun addition => addition.1 = field) = [] := by
          rw [List.filter_eq_nil_iff]
          intro addition member
          have other : addition.1 ≠ field := fun same => absent (List.mem_map.2 ⟨_, member, same⟩)
          simpa using other
        simp [entryOf, none]

/-- The constraints of a map are the ones that were added, grouped by their fields. -/
theorem members_build (additions : List (String × Constraint)) :
    (build additions).members = groupedBy Prod.fst additions := by
  simp only [members, entries_build, groupedBy, List.flatMap_map]
  refine congrArg (fun f => List.flatMap f _) (funext fun field => ?_)
  simp only [entryOf, List.map_map]
  refine (List.map_congr_left fun addition member => ?_).trans (List.map_id _)
  have named : addition.1 = field := by simpa using (List.mem_filter.1 member).2
  simp [← named]

/-- Additions that are grouped first lead to the same map. -/
theorem build_append_groupedBy (first second : List (String × Constraint)) :
    build (first ++ groupedBy Prod.fst second) = build (first ++ second) := by
  have entries : (build (first ++ groupedBy Prod.fst second)).entries =
      (build (first ++ second)).entries := by
    rw [entries_build, entries_build]
    have names : ((first ++ groupedBy Prod.fst second).map Prod.fst).eraseDups =
        ((first ++ second).map Prod.fst).eraseDups := by
      rw [List.map_append, List.map_append, List.eraseDups_append, List.eraseDups_append]
      simp only [List.removeAll, eraseDups_filter, eraseDups_keys_groupedBy]
    rw [names]
    refine List.map_congr_left fun field _ => ?_
    simp only [entryOf, List.filter_append, filter_groupedBy]
  exact eq_of_entries entries

theorem merge_eq_foldl (map other : ConstraintMap) :
    map.merge other =
      other.members.foldl (fun merged addition => merged.add addition.1 addition.2) map := by
  rw [merge, members, List.foldl_flatMap]
  simp only [List.foldl_map]

/-- Putting one map into another is the same as all additions one after another. -/
theorem merge_build (first second : List (String × Constraint)) :
    (build first).merge (build second) = build (first ++ second) := by
  rw [merge_eq_foldl, members_build, ← build_append_groupedBy, build, build, List.foldl_append]

end ConstraintMap

end SqlScribe
