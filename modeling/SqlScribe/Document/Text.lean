import SqlScribe.Document.Query
import SqlScribe.Document.RowChange
import SqlScribe.Document.TableChange
import SqlScribe.Json.Reader

/-!
# Documents as text

A text is read as a JSON value that still has all repeated members.  The parts
of it that are plain data are settled before the document is looked at, so that
what remains repeated is a member of a record, which is a fault, or of an
ordered map, which keeps both.

Some forms are recognised from their first character when a document is read
from its text: there, a fault of such a form is a fault of the text.
-/

namespace SqlScribe.Document

/-- Why a text does not hold a document. -/
inductive TextFault where
  | notJson (fault : JsonFault)
  | refused (fault : DocumentFault)

def TextFault.message : TextFault → String
  | .notJson fault => fault.message
  | .refused fault => fault.message

/-- A fault of a document that is read from its text. -/
def whenRead : DocumentFault → TextFault
  | .tooManyItems _ => .notJson .trailingCharacters
  | .notVariant _ | .variantMembers none => .notJson .expectedValue
  | .variantMembers (some first) => whenRead first
  | fault => .refused fault

/-! ## Settling the parts that are data -/

/-- Changes the value of every member. -/
def overMembers (change : Json → Json) : Json → Json
  | .object members => .object (members.map fun (name, value) => (name, change value))
  | other => other

/-- Changes every item. -/
def overItems (change : Json → Json) : Json → Json
  | .array items => .array (items.map change)
  | other => other

/-- Changes one member of a record, wherever it stands. -/
def overMember (shape : RecordShape) (member : String) (change : Json → Json) : Json → Json
  | .object members =>
      .object (members.map fun (name, value) =>
        (name, if name = member then change value else value))
  | .array items =>
      .array (items.mapIdx fun position value =>
        if shape.members[position]? = some member then change value else value)
  | other => other

/-- Settles the operands in a constraint map. -/
def settleConstraints : Json → Json := overMembers (overMembers Json.settled)

def settleJoin : Json → Json := overMember joinShape "joinConstraints" settleConstraints

def settleSubquery (document : Json) : Json :=
  overMember subqueryShape "joins" (overItems settleJoin)
    (overMember subqueryShape "where" settleConstraints document)

def settleQuery (document : Json) : Json :=
  overMember queryShape "joins" (overItems settleJoin)
    (overMember queryShape "where" settleConstraints document)

def settleRowChange (document : Json) : Json :=
  overMember rowChangeShape "fields" (overMembers Json.settled)
    (overMember rowChangeShape "id" Json.settled document)

/-! ## Reading -/

/-- Reads a document from its text. -/
def ofText {α : Type}
    (settle : Json → Json) (decode : Json → Decoded α) (text : String) : Except TextFault α :=
  match Json.read text with
  | .error fault => .error (.notJson fault)
  | .ok document => (decode (settle document)).mapError whenRead

def queryOfText (text : String) : Except TextFault Query := ofText settleQuery query text

def rowRequestOfText (text : String) : Except TextFault RowRequest :=
  ofText settleRowChange rowRequest text

def tableChangeOfText (text : String) : Except TextFault TableChange := ofText id tableChange text

def joinOfText (text : String) : Except TextFault JoinSpec := ofText settleJoin join text

def subqueryOfText (text : String) : Except TextFault Subquery :=
  ofText settleSubquery subquery text

/-- Reads a constraint map from its text. -/
def constraintMapOfText (text : String) : Except TextFault ConstraintMap :=
  ofText settleConstraints constraints text

end SqlScribe.Document
