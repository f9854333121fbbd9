import SqlScribe.Json.Printer
import SqlScribe.Operation
import SqlScribe.Operator
import SqlScribe.Text.Quoted

/-!
# Errors

Every error is a cause, held as data; the words for it are written by the
functions `message` at the end of the module.  A document can be refused for
its form, or because what it holds is refused, so the two kinds of error refer
to each other.
-/

namespace SqlScribe

/-- Why a text is not an identifier. -/
inductive IdentifierFault where
  | emptySegment
  | tooLong
  | startCharacter (found : Char)
  | character (found : Char)
  | secondQualifier
deriving DecidableEq, Repr

/-- Why a name cannot be quoted. -/
inductive QuotingFault where
  | empty
  | holdsNul
deriving DecidableEq, Repr

/-- Why a statement would do nothing. -/
inductive EmptyStatement where
  | updateSetsNothing (table : String)
  | upsertWritesNothing (table : String)
  | tableWithoutColumns (table : String)
  | alterChangesNothing (table : String)
deriving DecidableEq, Repr

/-- The form of value that an operator takes. -/
inductive OperandForm where
  | scalar
  | text
  | truth
  | list
deriving DecidableEq, Repr

/--
A kind of record: its name, its members in the order of their positions, how
many of the first ones have to be present, and whether other members are
refused.
-/
structure RecordShape where
  name : String
  members : List String
  required : Nat
  closed : Bool := true
deriving DecidableEq, Repr

/-- What a reader of documents was looking for. -/
inductive Expectation where
  | text
  | map
  | sequence
  | natural
  | size
  | whole
  | character
  | nothing
  | variant
  | singleMember
  | record (shape : RecordShape)
deriving DecidableEq, Repr

mutual

/-- Why a value does not suit its field. -/
inductive ValueFault where
  | operand (operator : Operator) (wanted : OperandForm) (got : Json)
  | subquery (fault : DocumentFault)
  | targetKeyWithoutVia
  | identifierNotScalar (got : Json)
  | incrementNotWhole
  | incrementOutOfBounds (delta bound : Int)
  | sizeText (text : String)
  | columnTwice
  | renameWithoutName
  | actionWithoutDefinition (action : ColumnAction)

/-- Why a document does not have the form of what it should describe. -/
inductive DocumentFault where
  | missingMember (name : String)
  | repeatedMember (name : String)
  | unknownMember (name : String) (shape : RecordShape)
  | unknownVariant (name : String) (variants : List String)
  | wrongType (got : Json) (wanted : Expectation)
  | wrongValue (got : Json) (wanted : Expectation)
  | tooFewItems (count : Nat) (shape : RecordShape)
  | tooManyItems (count : Nat)
  | notVariant (got : Json)
  | variantMembers (first : Option DocumentFault)
  | noAlternative (union : String)
  | renameWithoutName
  | actionWithoutType (action : ColumnAction)
  | refused (cause : SqlError)

/-- Why there is no statement, or why it did not run. -/
inductive SqlError where
  | unknownOperator (token : String)
  | invalidIdentifier (text : String) (fault : IdentifierFault)
  | invalidValue (field : String) (fault : ValueFault)
  | missingJoinKey (aliasName : String)
  | duplicateAlias (aliasName : String)
  | unknownAlias (aliasName : String)
  | ambiguousSelection (output : String)
  | missingIdentifier (operation : RowOperation)
  | emptyStatement (reason : EmptyStatement)
  | subqueryTooDeep (limit : Nat)
  | invalidDescriptor (fault : DocumentFault)
  | unquotable (fault : QuotingFault)
  | queryFailed (statement : String) (cause : String)

end

instance : Inhabited SqlError := ⟨.unknownOperator ""⟩

instance : Inhabited DocumentFault := ⟨.renameWithoutName⟩

/-- The error as a fault of the document that holds its cause. -/
def SqlError.asDocumentFault : SqlError → DocumentFault
  | .invalidDescriptor fault => fault
  | other => .refused other

/-! ## Words -/

def IdentifierFault.message : IdentifierFault → String
  | .emptySegment => "empty identifier segment"
  | .tooLong => "longer than 64 characters"
  | .startCharacter found => "invalid start character '" ++ found.toString ++ "'"
  | .character found => "invalid character '" ++ found.toString ++ "'"
  | .secondQualifier => "at most one qualifier is allowed"

def QuotingFault.message : QuotingFault → String
  | .empty => "empty identifier"
  | .holdsNul => "identifier cannot contain NUL character"

def EmptyStatement.message : EmptyStatement → String
  | .updateSetsNothing table => "update of '" ++ table ++ "' sets no fields"
  | .upsertWritesNothing table => "upsert into '" ++ table ++ "' writes no fields"
  | .tableWithoutColumns table => "table '" ++ table ++ "' has no fields"
  | .alterChangesNothing table => "alter of '" ++ table ++ "' changes no fields"

def OperandForm.message : OperandForm → String
  | .scalar => "a scalar"
  | .text => "a string"
  | .truth => "a boolean"
  | .list => "an array"

def Expectation.message : Expectation → String
  | .text => "a string"
  | .map => "a map"
  | .sequence => "a sequence"
  | .natural => "u64"
  | .size => "usize"
  | .whole => "i64"
  | .character => "a character"
  | .nothing => "unit"
  | .variant => "string or map"
  | .singleMember => "map with a single key"
  | .record shape => "struct " ++ shape.name

/-- The value as a message names it: its kind, and for a scalar the value itself. -/
def Json.described : Json → String
  | .null => "null"
  | .bool value => "boolean `" ++ String.ofList (Json.boolText value) ++ "`"
  | .number (.integer value) => "integer `" ++ String.ofList (decimalText value) ++ "`"
  | .number (.real value) =>
      "floating point `" ++ String.ofList (JsonNumber.text (.real value)) ++ "`"
  | .string value => "string " ++ Text.quoted value
  | .array _ => "sequence"
  | .object _ => "map"

/-- The names that would have been accepted. -/
def oneOf (names : List String) : String :=
  let marked := names.map fun name => "`" ++ name ++ "`"
  match marked with
  | [only] => only
  | [left, right] => left ++ " or " ++ right
  | several => "one of " ++ ", ".intercalate several

/-- A count of elements in words. -/
def elementCount (count : Nat) : String :=
  toString count ++ (if count = 1 then " element" else " elements")

mutual

def ValueFault.message : ValueFault → String
  | .operand operator wanted got =>
      "'" ++ operator.token ++ "' expects " ++ wanted.message ++ ", got " ++ got.render
  | .subquery fault => "invalid subquery: " ++ fault.message
  | .targetKeyWithoutVia => "targetKey only applies to via joins"
  | .identifierNotScalar got => "expected a scalar, got " ++ got.render
  | .incrementNotWhole => "increment amount must be an integer"
  | .incrementOutOfBounds delta bound =>
      "increment " ++ toString delta ++ " exceeds the bound of " ++ toString bound
  | .sizeText text => "expected N or P,S, got '" ++ text ++ "'"
  | .columnTwice => "column defined twice"
  | .renameWithoutName => "rename requires a new name"
  | .actionWithoutDefinition action => action.label ++ " requires a definition"

def DocumentFault.message : DocumentFault → String
  | .missingMember name => "missing field `" ++ name ++ "`"
  | .repeatedMember name => "duplicate field `" ++ name ++ "`"
  | .unknownMember name shape =>
      "unknown field `" ++ name ++ "`, expected " ++ oneOf shape.members
  | .unknownVariant name variants =>
      "unknown variant `" ++ name ++ "`, expected " ++ oneOf variants
  | .wrongType got wanted => "invalid type: " ++ got.described ++ ", expected " ++ wanted.message
  | .wrongValue got wanted => "invalid value: " ++ got.described ++ ", expected " ++ wanted.message
  | .tooFewItems count shape =>
      "invalid length " ++ toString count ++ ", expected struct " ++ shape.name ++ " with " ++
        elementCount shape.members.length
  | .tooManyItems count =>
      "invalid length " ++ toString count ++ ", expected fewer elements in array"
  | .notVariant got =>
      "invalid type: " ++ got.described ++ ", expected " ++ Expectation.variant.message
  | .variantMembers _ => "invalid value: map, expected " ++ Expectation.singleMember.message
  | .noAlternative union => "data did not match any variant of untagged enum " ++ union
  | .renameWithoutName => "rename requires newName"
  | .actionWithoutType action => action.label ++ " requires a type"
  | .refused cause => cause.message

def SqlError.message : SqlError → String
  | .unknownOperator token => "Unknown operator: " ++ token
  | .invalidIdentifier text fault => "Invalid identifier '" ++ text ++ "': " ++ fault.message
  | .invalidValue field fault => "Invalid value for '" ++ field ++ "': " ++ fault.message
  | .missingJoinKey aliasName => "Missing join key for alias '" ++ aliasName ++ "'"
  | .duplicateAlias aliasName => "Duplicate alias: " ++ aliasName
  | .unknownAlias aliasName => "Unknown alias: " ++ aliasName
  | .ambiguousSelection output => "Ambiguous selection: " ++ output
  | .missingIdentifier operation => "Missing identifier: " ++ operation.name ++ " requires an id"
  | .emptyStatement reason => "Empty statement: " ++ reason.message
  | .subqueryTooDeep limit =>
      "Subquery nesting exceeds maximum depth of " ++ toString limit
  | .invalidDescriptor fault => "Invalid descriptor: " ++ fault.message
  | .unquotable fault => "Escape error: " ++ fault.message
  | .queryFailed _ _ => "Query failed"

end

end SqlScribe
