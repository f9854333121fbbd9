import SqlScribe.Document.Text
import SqlScribe.Proofs.Document.Constraint

/-!
# What settling a document keeps

Plain data is settled while a document is read from its text: of several members
with one name, the last value stays, at the position of the first one.
`Json.latest` is this rule for the members of one object, and the settled form of
a document is the rule applied at every level.

The lemmas here say what becomes of the members of records and of constraint
maps.  Outside embedded queries only the operands are settled, so a constraint
map keeps all its members there; inside one it is settled as a whole.
-/

namespace SqlScribe

/-- A write to a new name goes to the end. -/
theorem Entries.put_of_not_mem {α : Type} {name : String} {entries : Entries α}
    (absent : name ∉ entries.keys) (value : α) :
    entries.put name value = entries ++ [(name, value)] := by
  induction entries with
  | nil => rfl
  | cons entry rest step =>
      rcases entry with ⟨other, old⟩
      rw [keys_cons, List.mem_cons, not_or] at absent
      rw [put, if_neg (Ne.symm absent.1), step absent.2]
      rfl

/-- Changing all values before or after a write makes no difference. -/
theorem Entries.put_map {α β : Type} (change : α → β) (name : String) (value : α)
    (entries : Entries α) :
    Entries.put name (change value) (entries.map fun entry => (entry.1, change entry.2)) =
      (entries.put name value).map fun entry => (entry.1, change entry.2) := by
  induction entries with
  | nil => rfl
  | cons entry rest step =>
      rcases entry with ⟨other, old⟩
      by_cases same : other = name
      · simp [put, same]
      · simp [put, same, step]

theorem lookup_map {α β : Type} (change : String → α → β) (name : String)
    (entries : List (String × α)) :
    (entries.map fun entry => (entry.1, change entry.1 entry.2)).lookup name =
      (entries.lookup name).map (change name) := by
  induction entries with
  | nil => rfl
  | cons entry rest step =>
      rcases entry with ⟨other, value⟩
      by_cases same : name = other
      · subst same
        simp
      · have different : (name == other) = false := beq_eq_false_iff_ne.2 same
        simp only [List.map_cons, List.lookup_cons, different, step]

namespace Json

/-- Of the members with one name, the last value at the position of the first one. -/
def latest (members : List (String × Json)) : List (String × Json) :=
  members.foldl (fun kept member => Entries.put member.1 member.2 kept) []

theorem latest_map (change : Json → Json) (members : List (String × Json)) :
    latest (members.map fun member => (member.1, change member.2)) =
      (latest members).map fun member => (member.1, change member.2) := by
  have later (kept : List (String × Json)) :
      (members.map fun member => (member.1, change member.2)).foldl
          (fun kept member => Entries.put member.1 member.2 kept)
          (kept.map fun member => (member.1, change member.2)) =
        (members.foldl (fun kept member => Entries.put member.1 member.2 kept) kept).map
          fun member => (member.1, change member.2) := by
    induction members generalizing kept with
    | nil => rfl
    | cons member rest step => simp only [List.map_cons, List.foldl_cons, Entries.put_map, step]
  exact later []

/-- Members with different names all stay as they are. -/
theorem latest_of_nodup {members : List (String × Json)}
    (distinct : (members.map Prod.fst).Nodup) : latest members = members := by
  have later (kept : List (String × Json)) (all : ((kept ++ members).map Prod.fst).Nodup) :
      members.foldl (fun kept member => Entries.put member.1 member.2 kept) kept =
        kept ++ members := by
    clear distinct
    induction members generalizing kept with
    | nil => exact (List.append_nil kept).symm
    | cons member rest step =>
        have absent : member.1 ∉ Entries.keys kept := by
          rw [List.map_append, List.map_cons] at all
          exact fun known => (List.nodup_append.1 all).2.2 _ known _ List.mem_cons_self rfl
        rw [List.foldl_cons, Entries.put_of_not_mem absent, step]
        · exact List.append_assoc ..
        · rwa [List.append_assoc]
  exact later [] distinct

theorem settledItems_eq (items : List Json) : settledItems items = items.map settled := by
  induction items with
  | nil => rfl
  | cons item rest step => rw [settledItems, step, List.map_cons]

theorem settledMembers_eq (members : List (String × Json)) :
    settledMembers members = members.map fun member => (member.1, member.2.settled) := by
  induction members with
  | nil => rfl
  | cons member rest step => rw [settledMembers, step, List.map_cons]

theorem settled_array (items : List Json) :
    (Json.array items).settled = .array (items.map settled) := by
  rw [settled, settledItems_eq]

/-- A settled object has the latest members, each of them settled. -/
theorem settled_object (members : List (String × Json)) :
    (Json.object members).settled =
      .object ((latest members).map fun member => (member.1, member.2.settled)) := by
  rw [settled, settledMembers_eq, ← latest_map]
  rfl

end Json

namespace Document

/-! ## Records -/

namespace RecordNames

variable {names : RecordNames}

/-- A settled record has the latest members, each of them settled. -/
theorem members_settled (distinct : names.all.Nodup) (document : Json) :
    names.members document.settled =
      (Json.latest (names.members document)).map fun member => (member.1, member.2.settled) := by
  cases document with
  | object fields => rw [Json.settled_object, members, members]
  | array items =>
      rw [Json.settled_array, members, members,
        Json.latest_of_nodup (nodup_keys_zip distinct items), List.zip_map_right]
      rfl
  | _ => rfl

/-- The rule for one member of a record applies wherever the record keeps it. -/
theorem Shapes.members_overMember {shape : RecordShape} (agree : names.Shapes shape)
    (name : String) (change : Json → Json) (document : Json) :
    names.members (overMember shape name change document) =
      (names.members document).map fun member =>
        (member.1, if member.1 = name then change member.2 else member.2) := by
  cases document with
  | object members => rfl
  | array items =>
      simp only [overMember, agree.members, RecordNames.members]
      refine List.ext_getElem? fun position => ?_
      simp only [List.zip, List.getElem?_map, List.getElem?_zipWith, List.getElem?_mapIdx]
      cases names.all[position]? <;> cases items[position]? <;> simp
  | _ => rfl

end RecordNames

/-! ## Constraint maps -/

/-- The object with the latest of its members only. -/
def overwritten : Json → Json
  | .object members => .object (Json.latest members)
  | other => other

/-- A document of constraints with the latest members only, of fields as well as of operators. -/
def latestConstraints (document : Json) : Json := overMembers overwritten (overwritten document)

/-- No field is named twice in a document of constraints, and no operator of one field. -/
def NamesOnce : Json → Prop
  | .object fields =>
      (fields.map Prod.fst).Nodup ∧
        ∀ entry ∈ fields, ∀ operators, entry.2 = .object operators →
          (operators.map Prod.fst).Nodup
  | _ => True

/-- If every name stands once, nothing is overwritten. -/
theorem latestConstraints_of_namesOnce {document : Json} (once : NamesOnce document) :
    latestConstraints document = document := by
  cases document with
  | object fields =>
      rcases once with ⟨distinct, each⟩
      rw [latestConstraints, overwritten, Json.latest_of_nodup distinct, overMembers]
      have kept : ∀ entry ∈ fields, (entry.1, overwritten entry.2) = entry := by
        rintro ⟨field, value⟩ member
        cases value with
        | object operators => rw [overwritten, Json.latest_of_nodup (each _ member _ rfl)]
        | _ => rfl
      exact congrArg Json.object ((List.map_congr_left kept).trans (List.map_id' fields))
  | _ => rfl

/-- The entries of a map of maps are objects. -/
theorem checkMaps_eq_ok {fields : List (String × Json)} :
    checkMaps fields = .ok () ↔ ∀ entry ∈ fields, ∃ operators, entry.2 = .object operators := by
  induction fields with
  | nil => simp [checkMaps]
  | cons entry rest step =>
      rcases entry with ⟨field, value⟩
      cases value <;> simp [checkMaps, step]

theorem exists_object_of_settled {document : Json} {members : List (String × Json)}
    (settled : document.settled = .object members) : ∃ written, document = .object written := by
  cases document with
  | object written => exact ⟨written, rfl⟩
  | array items =>
      rw [Json.settled_array] at settled
      cases settled
  | _ => cases settled

/--
A document of constraints that is settled as a whole reads as what is left of
it once its members overwrite each other.
-/
theorem settled_eq_settleConstraints {document : Json} {map : ConstraintMap}
    (read : constraintMap document.settled = .ok map) :
    document.settled = settleConstraints (latestConstraints document) := by
  rcases (constraintMap_eq_ok.1 read).1 with ⟨settledFields, settled, maps⟩
  rcases exists_object_of_settled settled with ⟨fields, rfl⟩
  rw [Json.settled_object] at settled ⊢
  cases settled
  rw [checkMaps_eq_ok, List.forall_mem_map] at maps
  simp only [settleConstraints, latestConstraints, overwritten, overMembers, List.map_map]
  refine congrArg Json.object (List.map_congr_left fun entry member => ?_)
  rcases maps entry member with ⟨settledOperators, object⟩
  rcases exists_object_of_settled object with ⟨operators, written⟩
  rcases entry with ⟨field, value⟩
  cases written
  simp only [Function.comp_apply, Json.settled_object]

/-- The members of a settled map have settled operands. -/
theorem constraintMembers_settle (document : Json) :
    constraintMembers (settleConstraints document) =
      (constraintMembers document).map fun member =>
        { member with value := member.value.settled } := by
  cases document with
  | object fields =>
      simp only [settleConstraints, overMembers, constraintMembers, List.flatMap_map,
        List.map_flatMap]
      refine congrArg (List.flatMap · fields) (funext fun entry => ?_)
      rcases entry with ⟨field, value⟩
      cases value with
      | object operators => simp [operatorMembers]
      | _ => rfl
  | _ => rfl

end Document

end SqlScribe
