import Mathlib.Data.List.Perm.Subperm
import SqlScribe.Document.Decode
import SqlScribe.Proofs.Checked

/-!
# What was read of a record

A reader of records takes the members one after another into a draft.  The
lemmas hold of every function that goes on in this way, since the records that
contain each other have readers of their own.

Which members a record can have, and in which order an array gives them, is said
by `RecordNames`; `RecordNames.Shapes` says that a reader keeps to it.
`field_of_members` says what the fields of a record are: each is what its member
was read as, or what the draft had if there is no such member.
-/

namespace SqlScribe.Document

open Checked

variable {α β : Type}

/-! ## Scalars -/

theorem text_eq_ok {document : Json} {read : String} :
    text document = .ok read ↔ document = .string read := by
  cases document <;> simp [text]

/-- A natural number is read from a whole number that is neither negative nor too large. -/
theorem natural_eq_ok {document : Json} {read : Nat} :
    natural document = .ok read ↔
      document = .integer read ∧ read < JsonNumber.unsignedLimit := by
  rw [natural, map_eq_ok, Json.integer]
  cases document with
  | number value =>
      cases value with
      | integer value =>
          rw [wholeWithin]
          split
          · rename_i within
            simp only [Except.ok.injEq, exists_eq_left', Json.number.injEq,
              JsonNumber.integer.injEq]
            omega
          · rename_i outside
            simp only [reduceCtorEq, false_and, exists_false, false_iff, Json.number.injEq,
              JsonNumber.integer.injEq]
            rintro ⟨rfl, small⟩
            omega
      | real value => simp [wholeWithin]
  | _ => simp [wholeWithin]

/-- Null stands for the absence of a value. -/
theorem optional_eq_ok {decode : Json → Decoded α} {document : Json} {read : Option α} :
    optional decode document = .ok read ↔
      document = .null ∧ read = none ∨
        document ≠ .null ∧ ∃ value, decode document = .ok value ∧ read = some value := by
  cases document with
  | null => simp [optional, eq_comm]
  | _ => rw [optional, map_eq_ok] <;> simp

/-! ## Records -/

theorem acceptMember_eq_ok {shape : RecordShape} {seen : List String} {name : String} :
    acceptMember shape seen name = .ok () ↔ name ∈ shape.members ∧ name ∉ seen := by
  unfold acceptMember
  by_cases known : name ∈ shape.members
  · by_cases again : name ∈ seen
    · simp [known, again]
    · simp [known, again]
  · simp [known]

/-- An object is read as a record if its members are known, different and complete. -/
theorem members_eq_ok
    (shape : RecordShape)
    (set : α → String × Json → Decoded α)
    (read : List String → α → List (String × Json) → Decoded α)
    (done : ∀ seen draft, read seen draft [] = (do
      complete shape .members seen
      pure draft))
    (next : ∀ seen draft member rest, read seen draft (member :: rest) = (do
      acceptMember shape seen member.1
      let draft ← set draft member
      read (member.1 :: seen) draft rest))
    {members : List (String × Json)} {seen : List String} {draft result : α} :
    read seen draft members = .ok result ↔
      (∀ name ∈ members.map Prod.fst, name ∈ shape.members ∧ name ∉ seen) ∧
        (members.map Prod.fst).Nodup ∧
        complete shape .members ((members.map Prod.fst).reverse ++ seen) = .ok () ∧
        members.foldlM set draft = .ok result := by
  induction members generalizing seen draft with
  | nil =>
      rw [done, guard_eq_ok, pure_eq_ok]
      simp
  | cons member rest step =>
      rw [next, guard_eq_ok, acceptMember_eq_ok]
      simp only [bind_eq_ok, step, List.map_cons, List.forall_mem_cons,
        List.nodup_cons, List.reverse_cons, List.append_assoc, List.singleton_append,
        List.foldlM_cons]
      constructor
      · rintro ⟨accepted, draft, written, others, distinct, whole, read⟩
        refine ⟨⟨accepted, fun name member => ⟨(others name member).1, fun earlier =>
          (others name member).2 (List.mem_cons_of_mem _ earlier)⟩⟩, ⟨fun again => ?_, distinct⟩,
          whole, draft, written, read⟩
        exact (others _ again).2 List.mem_cons_self
      · rintro ⟨⟨accepted, others⟩, ⟨once, distinct⟩, whole, draft, written, read⟩
        refine ⟨accepted, draft, written, fun name member => ⟨(others name member).1, ?_⟩,
          distinct, whole, read⟩
        intro clash
        rcases List.mem_cons.1 clash with rfl | earlier
        · exact once member
        · exact (others name member).2 earlier

/-- An array is read as the record of its items under the names of the members. -/
theorem items_eq_ok
    (shape : RecordShape)
    (set : α → String × Json → Decoded α)
    (read : List String → List String → α → List Json → Decoded α)
    {count : Nat}
    (done : ∀ names seen draft, read names seen draft [] = (do
      complete shape (.items count) seen
      pure draft))
    (surplus : ∀ seen draft value rest, read [] seen draft (value :: rest) = (do
      complete shape (.items count) seen
      pure draft))
    (next : ∀ name names seen draft value rest,
      read (name :: names) seen draft (value :: rest) = (do
        let draft ← set draft (name, value)
        read names (name :: seen) draft rest))
    {names seen : List String} {items : List Json} {draft result : α} :
    read names seen draft items = .ok result ↔
      complete shape (.items count) ((names.take items.length).reverse ++ seen) = .ok () ∧
        (names.zip items).foldlM set draft = .ok result := by
  induction items generalizing names seen draft with
  | nil =>
      rw [done, guard_eq_ok, pure_eq_ok]
      simp
  | cons value rest step =>
      cases names with
      | nil =>
          rw [surplus, guard_eq_ok, pure_eq_ok]
          simp
      | cons name names =>
          simp only [next, bind_eq_ok, step, List.length_cons, List.take_succ_cons,
            List.reverse_cons, List.append_assoc, List.singleton_append, List.zip_cons_cons,
            List.foldlM_cons]
          constructor
          · rintro ⟨draft, written, whole, read⟩
            exact ⟨whole, draft, written, read⟩
          · rintro ⟨whole, draft, written, read⟩
            exact ⟨draft, written, whole, read⟩

theorem nodup_keys_zip {names : List String} (distinct : names.Nodup) (items : List Json) :
    ((names.zip items).map Prod.fst).Nodup := by
  induction names generalizing items with
  | nil => simp
  | cons name rest step =>
      rcases List.nodup_cons.1 distinct with ⟨absent, others⟩
      cases items with
      | nil => simp
      | cons item items =>
          simp only [List.zip_cons_cons, List.map_cons, List.nodup_cons]
          refine ⟨fun again => absent ?_, step others items⟩
          rcases List.mem_map.1 again with ⟨⟨_, _⟩, member, rfl⟩
          exact (List.of_mem_zip member).1

/-! ## Names of members -/

/--
The names that the members of a record have, in the order of an array: those
that have to be there, and the others.
-/
structure RecordNames where
  required : List String
  others : List String

namespace RecordNames

def all (names : RecordNames) : List String := names.required ++ names.others

/-- The members of a record, whether it is an object or an array. -/
def members (names : RecordNames) : Json → List (String × Json)
  | .object members => members
  | .array items => names.all.zip items
  | _ => []

/--
The document has the form of a record: an object with different members, all of
them known and none missing that has to be there, or an array of as many items.
-/
inductive Fits (names : RecordNames) : Json → Prop
  | object {members : List (String × Json)}
      (known : ∀ name ∈ members.map Prod.fst, name ∈ names.all)
      (distinct : (members.map Prod.fst).Nodup)
      (complete : ∀ name ∈ names.required, name ∈ members.map Prod.fst) :
      Fits names (.object members)
  | array {items : List Json} (complete : names.required.length ≤ items.length)
      (known : items.length ≤ names.all.length) :
      Fits names (.array items)

variable {names : RecordNames} {document : Json}

theorem fits_object_iff {members : List (String × Json)} :
    names.Fits (.object members) ↔
      (∀ name ∈ members.map Prod.fst, name ∈ names.all) ∧ (members.map Prod.fst).Nodup ∧
        ∀ name ∈ names.required, name ∈ members.map Prod.fst := by
  constructor
  · intro fits
    cases fits with
    | object known distinct complete => exact ⟨known, distinct, complete⟩
  · rintro ⟨known, distinct, complete⟩
    exact .object known distinct complete

theorem fits_array_iff {items : List Json} :
    names.Fits (.array items) ↔
      names.required.length ≤ items.length ∧ items.length ≤ names.all.length := by
  constructor
  · intro fits
    cases fits with
    | array complete known => exact ⟨complete, known⟩
  · rintro ⟨complete, known⟩
    exact .array complete known

theorem Fits.nodup (fits : names.Fits document) (distinct : names.all.Nodup) :
    ((names.members document).map Prod.fst).Nodup := by
  cases fits with
  | object known different complete => exact different
  | array complete known => exact nodup_keys_zip distinct _

theorem Fits.known (fits : names.Fits document) :
    ∀ member ∈ names.members document, member.1 ∈ names.all := by
  cases fits with
  | object known distinct complete =>
      exact fun member inside => known _ (List.mem_map.2 ⟨member, inside, rfl⟩)
  | array complete known =>
      rintro ⟨name, value⟩ member
      exact (List.of_mem_zip member).1

/-- A member that has to be there is there. -/
theorem Fits.exists_lookup (fits : names.Fits document) {name : String}
    (required : name ∈ names.required) :
    ∃ value, (names.members document).lookup name = some value := by
  have present : ∃ member ∈ names.members document, member.1 = name := by
    cases fits with
    | object known distinct complete => exact List.mem_map.1 (complete name required)
    | @array items complete known =>
        rcases List.mem_iff_getElem.1 required with ⟨position, bound, rfl⟩
        have within : position < (names.all.zip items).length := by
          rw [List.length_zip]
          omega
        refine ⟨_, List.getElem_mem within, ?_⟩
        rw [List.getElem_zip]
        exact List.getElem_append_left bound
  rcases present with ⟨member, inside, rfl⟩
  rw [← Option.isSome_iff_exists, List.lookup_isSome_iff]
  exact ⟨member, inside, beq_self_eq_true _⟩

end RecordNames

theorem mem_of_lookup {members : List (String × Json)} {name : String} {value : Json}
    (given : members.lookup name = some value) : (name, value) ∈ members := by
  rcases List.lookup_eq_some_iff.1 given with ⟨_, _, rfl, -⟩
  exact List.mem_append_right _ List.mem_cons_self

/-! ## Readers of records -/

/-- A reader of records with this shape takes their members under these names. -/
structure RecordNames.Shapes (names : RecordNames) (shape : RecordShape) : Prop where
  members : shape.members = names.all
  required : shape.required = names.required.length
  distinct : names.all.Nodup

theorem find?_missing_eq_none {names seen : List String} :
    (names.find? fun name => !seen.contains name) = none ↔ ∀ name ∈ names, name ∈ seen := by
  simp [List.find?_eq_none]

/-- The first names are among as many names as there are items if these are not fewer. -/
theorem subset_take_iff {first others : List String} (distinct : (first ++ others).Nodup)
    {count : Nat} :
    (∀ name ∈ first, name ∈ (first ++ others).take count) ↔ first.length ≤ count := by
  constructor
  · intro subset
    have fewer := (List.subperm_of_subset (List.nodup_append.1 distinct).1 subset).length_le
    rw [List.length_take] at fewer
    omega
  · intro least name member
    apply List.take_subset_take_left _ least
    rwa [List.take_left]

namespace RecordNames.Shapes

variable {names : RecordNames} {shape : RecordShape} (agree : names.Shapes shape)

include agree

theorem take_required : shape.members.take shape.required = names.required := by
  rw [agree.members, agree.required]
  exact List.take_left

theorem complete_object_eq_ok {seen : List String} :
    complete shape .members seen = .ok () ↔ ∀ name ∈ names.required, name ∈ seen := by
  rw [← find?_missing_eq_none, ← agree.take_required]
  unfold complete
  cases (shape.members.take shape.required).find? fun name => !seen.contains name <;> simp

theorem complete_array_eq_ok {count : Nat} {seen : List String} :
    complete shape (.items count) seen = .ok () ↔
      (∀ name ∈ names.required, name ∈ seen) ∧ count ≤ names.all.length := by
  rw [← find?_missing_eq_none, ← agree.take_required, ← agree.members]
  unfold complete
  cases (shape.members.take shape.required).find? fun name => !seen.contains name <;> simp

/-- The checks on the members of an object hold exactly if it has the form of a record. -/
theorem object_iff {members : List (String × Json)} :
    ((∀ name ∈ members.map Prod.fst, name ∈ shape.members ∧ name ∉ []) ∧
        (members.map Prod.fst).Nodup ∧
        complete shape .members ((members.map Prod.fst).reverse ++ []) = .ok ()) ↔
      names.Fits (.object members) := by
  rw [fits_object_iff, agree.complete_object_eq_ok, agree.members]
  simp only [List.not_mem_nil, not_false_eq_true, and_true, List.append_nil, List.mem_reverse]

/-- The checks on the items of an array hold exactly if it has the form of a record. -/
theorem array_iff {items : List Json} :
    complete shape (.items items.length) ((shape.members.take items.length).reverse ++ []) =
        .ok () ↔
      names.Fits (.array items) := by
  rw [fits_array_iff, agree.complete_array_eq_ok, agree.members]
  simp only [List.append_nil, List.mem_reverse, all, subset_take_iff agree.distinct]

/-- A record without other members is read member by member, into the values of those missing. -/
theorem record_eq_ok {α : Type} (closed : shape.closed = true)
    {set : α → String → Json → Decoded α} {draft read : α} {document : Json} :
    record shape set draft document = .ok read ↔
      names.Fits document ∧
        (names.members document).foldlM (fun draft member => set draft member.1 member.2)
          draft = .ok read := by
  cases document with
  | object members =>
      rw [record, members_eq_ok shape (fun draft member => set draft member.1 member.2)
        (readMembers shape set) (fun _ _ => by rw [readMembers])
        (fun _ _ member _ => by
          rcases member with ⟨name, value⟩
          rw [readMembers]
          simp [closed]), ← agree.object_iff, and_assoc, and_assoc]
      rfl
  | array items =>
      rw [record, items_eq_ok shape (fun draft member => set draft member.1 member.2)
        (readItems shape set items.length) (fun _ _ _ => by rw [readItems])
        (fun _ _ _ _ => by rw [readItems])
        (fun _ _ _ _ _ _ => by rw [readItems]), agree.array_iff, agree.members]
      rfl
  | _ =>
      simp only [record, reduceCtorEq, false_iff, not_and]
      exact nofun

/-- A record without other members is read member by member, and no member twice. -/
theorem record_members {α : Type} (closed : shape.closed = true)
    {set : α → String → Json → Decoded α} {draft read : α}
    {document : Json} (accepted : record shape set draft document = .ok read) :
    ((names.members document).map Prod.fst).Nodup ∧
      (names.members document).foldlM (fun draft member => set draft member.1 member.2)
        draft = .ok read := by
  rcases (agree.record_eq_ok closed).1 accepted with ⟨form, written⟩
  exact ⟨form.nodup agree.distinct, written⟩

end RecordNames.Shapes

/-! ## Members and fields -/

/-- The members of a map are read one by one, under their names. -/
theorem entries_eq_ok {decode : Json → Decoded α} {document : Json} {values : List (String × α)} :
    entries decode document = .ok values ↔
      ∃ members, document = .object members ∧
        List.Forall₂ (fun member value =>
          value.1 = member.1 ∧ decode member.2 = .ok value.2) members values := by
  have each (member : String × Json) (value : String × α) :
      (do pure (member.1, ← decode member.2)) = Except.ok value ↔
        value.1 = member.1 ∧ decode member.2 = .ok value.2 := by
    simp only [bind_eq_ok, pure_eq_ok]
    constructor
    · rintro ⟨_, decoded, rfl⟩
      exact ⟨rfl, decoded⟩
    · rintro ⟨named, decoded⟩
      exact ⟨_, decoded, Prod.ext named rfl⟩
  cases document with
  | object members => simp only [entries, mapM_eq_ok, each, Json.object.injEq, exists_eq_left']
  | _ => simp [entries]

/-- The member sets the field if it has its name, and leaves it alone else. -/
def Sets (field : α → β) (name : String) (decode : Json → Decoded β) (draft : α)
    (member : String × Json) (result : α) : Prop :=
  if member.1 = name then decode member.2 = .ok (field result) else field result = field draft

/-- A field of a record is what its member was read as, or what the draft had. -/
theorem field_of_members
    {set : α → String × Json → Decoded α} {field : α → β} {name : String}
    {decode : Json → Decoded β}
    (sets : ∀ draft member result, set draft member = .ok result →
      Sets field name decode draft member result)
    {members : List (String × Json)} (distinct : (members.map Prod.fst).Nodup)
    {draft result : α} (read : members.foldlM set draft = .ok result) :
    match members.lookup name with
    | none => field result = field draft
    | some value => decode value = .ok (field result) := by
  induction members generalizing draft with
  | nil =>
      cases read
      rfl
  | cons member rest step =>
      rcases member with ⟨key, value⟩
      simp only [List.foldlM_cons, bind_eq_ok] at read
      rcases read with ⟨written, first, others⟩
      rcases List.nodup_cons.1 distinct with ⟨absent, distinct⟩
      have tail := step distinct others
      have set := sets _ _ _ first
      by_cases same : key = name
      · subst same
        have missing : rest.lookup key = none := by
          rw [List.lookup_eq_none_iff]
          intro later member
          have different : key ≠ later.1 := fun equal =>
            absent (List.mem_map.2 ⟨later, member, equal.symm⟩)
          simpa using different
        rw [missing] at tail
        rw [List.lookup_cons_self]
        rw [tail]
        rwa [Sets, if_pos rfl] at set
      · have skipped : ((key, value) :: rest).lookup name = rest.lookup name := by
          rw [List.lookup_cons, beq_eq_false_iff_ne.2 fun equal => same equal.symm]
        rw [Sets, if_neg same] at set
        rw [skipped]
        rwa [set] at tail

end SqlScribe.Document
