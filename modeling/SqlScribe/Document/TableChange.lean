import SqlScribe.Document.Decode
import SqlScribe.TableChange

/-!
# Changes of tables in documents

Columns are described by their content, their size and their addons; an
alteration also says what to do with the column.
-/

namespace SqlScribe.Document

/-- A number of a column size. -/
def sizeNumber? : Json → Option Nat
  | .number (.integer value) =>
      if 0 ≤ value ∧ value < ColumnSize.numberLimit then some value.toNat else none
  | _ => none

/-- A column size: a number, two numbers, or a text with one or two of them. -/
def columnSize (value : Json) : Decoded ColumnSize :=
  let none : Decoded ColumnSize := .error (.noAlternative "Raw")
  match value with
  | .string text => (ColumnSize.read text).mapError SqlError.asDocumentFault
  | .array [digits, places] =>
      match sizeNumber? digits, sizeNumber? places with
      | some digits, some places => .ok (.precision digits places)
      | _, _ => none
  | other =>
      match sizeNumber? other with
      | some digits => .ok (.length digits)
      | _ => none

def columnShape : RecordShape := ⟨"FieldDefinition", ["type", "size", "addons"], 1, true⟩

def setColumnMember (draft : ColumnSpec) (name : String) (value : Json) : Decoded ColumnSpec :=
  match name with
  | "type" => (variant ColumnContent.named value).map fun content => { draft with content }
  | "size" => (optional columnSize value).map fun size => { draft with size }
  | "addons" => (list (variant Addon.named) value).map fun addons => { draft with addons }
  | _ => .ok draft

/-- The description of a column. -/
def columnSpec (value : Json) : Decoded ColumnSpec :=
  record columnShape setColumnMember { content := .string } value

def alterationShape : RecordShape :=
  ⟨"RawAlterField", ["action", "newName", "type", "size", "addons"], 1, true⟩

/-- An alteration of a column while it is read. -/
structure AlterationDraft where
  action : ColumnAction := .add
  newName : Option String := none
  content : Option ColumnContent := none
  size : Option ColumnSize := none
  addons : List Addon := []

def setAlterationMember (draft : AlterationDraft) (name : String) (value : Json) :
    Decoded AlterationDraft :=
  match name with
  | "action" => (variant ColumnAction.named value).map fun action => { draft with action }
  | "newName" => (optional text value).map fun newName => { draft with newName }
  | "type" =>
      (optional (variant ColumnContent.named) value).map fun content => { draft with content }
  | "size" => (optional columnSize value).map fun size => { draft with size }
  | "addons" => (list (variant Addon.named) value).map fun addons => { draft with addons }
  | _ => .ok draft

/--
The alteration that a draft describes.  Dropping a column needs nothing more, a
new name is needed to rename it, and otherwise it needs a description.
-/
def AlterationDraft.finish (draft : AlterationDraft) : Decoded ColumnChange :=
  let definition : Option ColumnSpec :=
    draft.content.map fun content => ⟨content, draft.size, draft.addons⟩
  let change : ColumnChange := ⟨draft.action, draft.newName, definition⟩
  match draft.action, draft.newName, definition with
  | .drop, _, _ => .ok change
  | .rename, none, _ => .error .renameWithoutName
  | action, _, none => .error (.actionWithoutType action)
  | _, _, some _ => .ok change

/-- What an alteration does with a column. -/
def columnChange (value : Json) : Decoded ColumnChange := do
  (← record alterationShape setAlterationMember {} value).finish

def tableChangeShape : RecordShape := ⟨"SchemaDescriptor", ["table", "fields", "alter"], 1, true⟩

def setTableMember (draft : TableChange) (name : String) (value : Json) : Decoded TableChange :=
  match name with
  | "table" => (text value).map fun table => { draft with table }
  | "fields" => (entries columnSpec value).map fun columns => { draft with columns }
  | "alter" => (entries columnChange value).map fun changes => { draft with changes }
  | _ => .ok draft

/-- A change of a table. -/
def tableChange (value : Json) : Decoded TableChange :=
  record tableChangeShape setTableMember { table := "" } value

end SqlScribe.Document
