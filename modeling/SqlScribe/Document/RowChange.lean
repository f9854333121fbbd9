import SqlScribe.Document.Decode
import SqlScribe.RowChange

/-!
# Changes of rows in documents

A row change names a table, the identifier of a row, the values to write, and
the columns that an upsert must not overwrite.  A value is written as it is,
unless it is an object that names an operation.
-/

namespace SqlScribe.Document

/-- The member that makes an object an operation. -/
def operationMember : String := "__op"

/-- The amount of an increment, a whole number of 64 bits. -/
def incrementAmount? (members : Entries Json) : Option Int :=
  match members.get? "amount" with
  | some (.number (.integer value)) =>
      if JsonNumber.isSigned value then some value else none
  | _ => none

/-- What is written to a column: a value, or the operation that an object names. -/
def writeValue (field : String) : Json → Except SqlError WriteValue
  | .object members =>
      match Entries.get? members operationMember with
      | none => .ok (.literal (.object members))
      | some (.string "Increment") =>
          match incrementAmount? members with
          | some delta => .ok (.increment delta)
          | none => .error (.invalidValue field .incrementNotWhole)
      | some operation => .error (.unknownOperator operation.render)
  | value => .ok (.literal value)

/-- What is written to a column, in a document that does not say to which one. -/
def writtenValue (value : Json) : Decoded WriteValue :=
  (writeValue "value" value).mapError SqlError.asDocumentFault

def rowChangeShape : RecordShape :=
  ⟨"WriteDescriptor", ["table", "id", "fields", "exclude"], 1, true⟩

/-- A change of a row, with the columns that an upsert must not overwrite. -/
structure RowRequest where
  change : RowChange
  excluded : List String := []
deriving Inhabited

def setRowMember (draft : RowRequest) (name : String) (value : Json) : Decoded RowRequest :=
  match name with
  | "table" => (text value).map fun table => { draft with change := { draft.change with table } }
  | "id" =>
      (optional Except.ok value).map fun id =>
        { draft with change := { draft.change with id } }
  | "fields" =>
      (entries writtenValue value).map fun fields =>
        { draft with change := draft.change.writeAll fields }
  | "exclude" => (list text value).map fun excluded => { draft with excluded }
  | _ => .ok draft

/-- A change of a row; of several values for one column the last one counts. -/
def rowRequest (value : Json) : Decoded RowRequest :=
  record rowChangeShape setRowMember { change := { table := "" } } value

end SqlScribe.Document
