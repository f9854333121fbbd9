import SqlScribe.Document.Constraint
import SqlScribe.Query

/-!
# Queries in documents

A query names a table and, as far as they are needed, the columns to return,
joins, constraints, the order of the rows and which part of them to return.
-/

namespace SqlScribe.Document

/-- A column of a joined table; members it does not know are passed over. -/
def joinedColumnShape : RecordShape := ⟨"Joined", ["joinAlias", "field", "as"], 2, false⟩

def sortKeyShape : RecordShape := ⟨"SortSpec", ["field", "direction"], 1, true⟩

def queryShape : RecordShape :=
  ⟨"ReadDescriptor", ["table", "select", "joins", "where", "sort", "skip", "limit"], 1, true⟩

/-- A joined column while it is read. -/
structure JoinedColumn where
  aliasName : String := ""
  field : String := ""
  output : Option String := none

def setJoinedColumnMember (draft : JoinedColumn) (name : String) (value : Json) :
    Decoded JoinedColumn :=
  match name with
  | "joinAlias" => (text value).map fun aliasName => { draft with aliasName }
  | "field" => (text value).map fun field => { draft with field }
  | "as" => (optional text value).map fun output => { draft with output }
  | _ => .ok draft

/--
A column to return: its path, or an object that names a joined column.  Unlike
other records, this one cannot be listed in an array.
-/
def selection : Json → Decoded Selection
  | .string path => .ok (.column path)
  | .object members =>
      match readMembers joinedColumnShape setJoinedColumnMember [] {} members with
      | .ok column => .ok (.joined column.aliasName column.field column.output)
      | .error _ => .error (.noAlternative "FieldSelection")
  | _ => .error (.noAlternative "FieldSelection")

def directions : List (String × SortDirection) := [("asc", .ascending), ("desc", .descending)]

def setSortKeyMember (draft : SortKey) (name : String) (value : Json) : Decoded SortKey :=
  match name with
  | "field" => (text value).map fun field => { draft with field }
  | "direction" => (variant directions value).map fun direction => { draft with direction }
  | _ => .ok draft

/-- A field to sort by, in ascending order unless a direction is given. -/
def sortKey (value : Json) : Decoded SortKey :=
  record sortKeyShape setSortKeyMember ⟨"", .ascending⟩ value

def setQueryMember (draft : Query) (name : String) (value : Json) : Decoded Query :=
  match name with
  | "table" => (text value).map fun table => { draft with table }
  | "select" => (list selection value).map fun selection => { draft with selection }
  | "joins" => (joins value).map fun joins => { draft with joins }
  | "where" => (constraints value).map fun conditions => { draft with conditions }
  | "sort" => (list sortKey value).map fun sort => { draft with sort }
  | "skip" => (optional natural value).map fun skip => { draft with skip }
  | "limit" => (optional natural value).map fun limit => { draft with limit }
  | _ => .ok draft

/-- A query. -/
def query (value : Json) : Decoded Query :=
  record queryShape setQueryMember { table := "" } value

end SqlScribe.Document
