import SqlScribe.Error

/-!
# Reading the parts of a document

Each function here reads one form of value from a JSON value, or says what it
found instead.  A record is an object of named members; an array is read as the
same members in the order of their positions.

Members are read in document order, so the first fault in the document is the
one that is reported.  Members that have to be present are looked for at the
end.
-/

namespace SqlScribe.Document

/-- A value read from a document, or the first fault in it. -/
abbrev Decoded (α : Type) := Except DocumentFault α

/-! ## Scalars and lists -/

def text : Json → Decoded String
  | .string value => .ok value
  | other => .error (.wrongType other .text)

/-- A whole number between two bounds, the upper one excluded. -/
def wholeWithin (least limit : Int) (wanted : Expectation) : Json → Decoded Int
  | .number (.integer value) =>
      if least ≤ value ∧ value < limit then .ok value
      else .error (.wrongValue (.number (.integer value)) wanted)
  | other => .error (.wrongType other wanted)

/-- A natural number of 64 bits. -/
def natural (value : Json) : Decoded Nat :=
  (wholeWithin 0 JsonNumber.unsignedLimit .natural value).map Int.toNat

/-- A number of bytes or of levels, which also has 64 bits. -/
def size (value : Json) : Decoded Nat :=
  (wholeWithin 0 JsonNumber.unsignedLimit .size value).map Int.toNat

/-- A whole number of 64 bits with its sign. -/
def whole (value : Json) : Decoded Int :=
  wholeWithin (-JsonNumber.signedLimit) JsonNumber.signedLimit .whole value

/-- A text of one character. -/
def character : Json → Decoded Char
  | .string value =>
      match value.toList with
      | [c] => .ok c
      | _ => .error (.wrongValue (.string value) .character)
  | other => .error (.wrongType other .character)

/-- A value that may be missing, which null says. -/
def optional {α : Type} (decode : Json → Decoded α) : Json → Decoded (Option α)
  | .null => .ok none
  | value => (decode value).map some

def list {α : Type} (decode : Json → Decoded α) : Json → Decoded (List α)
  | .array items => items.mapM decode
  | other => .error (.wrongType other .sequence)

/-- The members of an object, all of one kind; repeated names are kept. -/
def entries {α : Type} (decode : Json → Decoded α) : Json → Decoded (List (String × α))
  | .object members => members.mapM fun (name, value) => do
      pure (name, ← decode value)
  | other => .error (.wrongType other .map)

/-! ## Choices -/

/-- The choice with this name. -/
def choice {α : Type} (named : List (String × α)) (name : String) : Decoded α :=
  match named.lookup name with
  | some chosen => .ok chosen
  | none => .error (.unknownVariant name (named.map Prod.fst))

/-- The choice that a single member of an object names; it carries nothing with it. -/
def memberChoice {α : Type}
    (named : List (String × α)) (name : String) (payload : Json) : Decoded α := do
  let chosen ← choice named name
  match payload with
  | .null => pure chosen
  | other => throw (.wrongType other .nothing)

/-- One of several named choices: its name, or an object with that name as its only member. -/
def variant {α : Type} (named : List (String × α)) : Json → Decoded α
  | .string name => choice named name
  | .object [] => .error (.variantMembers none)
  | .object [(name, payload)] => memberChoice named name payload
  | .object ((name, payload) :: _ :: _) =>
      match memberChoice named name payload with
      | .ok _ => .error (.variantMembers none)
      | .error fault => .error (.variantMembers (some fault))
  | other => .error (.notVariant other)

/-! ## Records -/

/-- How a record was written. -/
inductive RecordForm where
  | members
  | items (count : Nat)
deriving DecidableEq, Repr

/-- Whether a member may come next, given the names of those before it. -/
def acceptMember (shape : RecordShape) (seen : List String) (name : String) : Decoded Unit :=
  if !shape.members.contains name then .error (.unknownMember name shape)
  else if seen.contains name then .error (.repeatedMember name)
  else .ok ()

/-- Whether a record is complete, given the names of its members, and not longer than it may be. -/
def complete (shape : RecordShape) (form : RecordForm) (seen : List String) : Decoded Unit :=
  let missing := (shape.members.take shape.required).find? fun name => !seen.contains name
  match form, missing with
  | .members, some name => .error (.missingMember name)
  | .items count, some _ => .error (.tooFewItems count shape)
  | .members, none => .ok ()
  | .items count, none =>
      if shape.members.length < count then .error (.tooManyItems count) else .ok ()

section Record

variable {α : Type} (shape : RecordShape) (set : α → String → Json → Decoded α)

/-- Reads the members of a record one after another into a draft. -/
def readMembers (seen : List String) (draft : α) : List (String × Json) → Decoded α
  | [] => do
      complete shape .members seen
      pure draft
  | (name, value) :: rest => do
      if !shape.closed && !shape.members.contains name then readMembers seen draft rest
      else
        acceptMember shape seen name
        readMembers (name :: seen) (← set draft name value) rest

/-- Reads the items of a record one after another into a draft, under the names that are left. -/
def readItems (count : Nat) (names seen : List String) (draft : α) : List Json → Decoded α
  | [] => do
      complete shape (.items count) seen
      pure draft
  | value :: rest =>
      match names with
      | [] => do
          complete shape (.items count) seen
          pure draft
      | name :: names => do
          readItems count names (name :: seen) (← set draft name value) rest

/-- Reads a record into a draft, which holds the values of members that are not there. -/
def record (draft : α) : Json → Decoded α
  | .object members => readMembers shape set [] draft members
  | .array items => readItems shape set items.length shape.members [] draft items
  | other => .error (.wrongType other (.record shape))

end Record

end SqlScribe.Document
