import SqlScribe.Binary64
import SqlScribe.Entries

/-!
# JSON values

Values as documents hold them: whole numbers stay whole, every other number is
a double, and the members of an object keep their order.

The type also holds documents in which an object names a member twice.  What
such a document means is for its reader to say: a record refuses it, an ordered
map keeps both members, and plain data is *settled*, so that each name stands
once, at its first position, with its last value.
-/

namespace SqlScribe

/-- A JSON number: whole, or a double. -/
inductive JsonNumber where
  | integer (value : Int)
  | real (value : Binary64)
deriving DecidableEq, Repr, Inhabited

namespace JsonNumber

/-- Whole numbers without a sign lie below this bound, `2 ^ 64`. -/
def unsignedLimit : Nat := 0x10000000000000000

/-- Whole numbers with a sign lie between the negative of this bound, `2 ^ 63`, and the bound. -/
def signedLimit : Nat := 0x8000000000000000

/-- Whether a whole number has at most 64 bits, its sign included. -/
def isSigned (value : Int) : Bool := -signedLimit ≤ value && value < signedLimit

end JsonNumber

/-- A JSON value whose objects list their members in document order. -/
inductive Json where
  | null
  | bool (value : Bool)
  | number (value : JsonNumber)
  | string (value : String)
  | array (items : List Json)
  | object (members : List (String × Json))
deriving Repr, Inhabited

namespace Json

/-- A whole number. -/
def integer (value : Int) : Json := .number (.integer value)

/-- Neither an array nor an object. -/
def isScalar : Json → Bool
  | .array _ | .object _ => false
  | _ => true

mutual

def decEq : (left right : Json) → Decidable (left = right)
  | .null, .null => isTrue rfl
  | .bool a, .bool b =>
      if h : a = b then isTrue (h ▸ rfl) else isFalse (fun e => h (by injection e))
  | .number a, .number b =>
      if h : a = b then isTrue (h ▸ rfl) else isFalse (fun e => h (by injection e))
  | .string a, .string b =>
      if h : a = b then isTrue (h ▸ rfl) else isFalse (fun e => h (by injection e))
  | .array a, .array b =>
      match decEqItems a b with
      | isTrue h => isTrue (h ▸ rfl)
      | isFalse h => isFalse (fun e => h (by injection e))
  | .object a, .object b =>
      match decEqMembers a b with
      | isTrue h => isTrue (h ▸ rfl)
      | isFalse h => isFalse (fun e => h (by injection e))
  | .null, .bool _ | .null, .number _ | .null, .string _ | .null, .array _ | .null, .object _
  | .bool _, .null | .bool _, .number _ | .bool _, .string _ | .bool _, .array _
  | .bool _, .object _ | .number _, .null | .number _, .bool _ | .number _, .string _
  | .number _, .array _ | .number _, .object _ | .string _, .null | .string _, .bool _
  | .string _, .number _ | .string _, .array _ | .string _, .object _ | .array _, .null
  | .array _, .bool _ | .array _, .number _ | .array _, .string _ | .array _, .object _
  | .object _, .null | .object _, .bool _ | .object _, .number _ | .object _, .string _
  | .object _, .array _ => isFalse (fun e => by injection e)

def decEqItems : (left right : List Json) → Decidable (left = right)
  | [], [] => isTrue rfl
  | [], _ :: _ | _ :: _, [] => isFalse (fun e => by injection e)
  | a :: as, b :: bs =>
      match decEq a b, decEqItems as bs with
      | isTrue h, isTrue hs => isTrue (h ▸ hs ▸ rfl)
      | isFalse h, _ => isFalse (fun e => h (by injection e))
      | _, isFalse hs => isFalse (fun e => hs (by injection e))

def decEqMembers : (left right : List (String × Json)) → Decidable (left = right)
  | [], [] => isTrue rfl
  | [], _ :: _ | _ :: _, [] => isFalse (fun e => by injection e)
  | (j, a) :: as, (k, b) :: bs =>
      match decEq a b, decEqMembers as bs with
      | isTrue h, isTrue hs =>
          if hk : j = k then isTrue (h ▸ hs ▸ hk ▸ rfl)
          else isFalse (fun e => hk (by injection e with first; injection first))
      | isFalse h, _ => isFalse (fun e => h (by injection e with first; injection first))
      | _, isFalse hs => isFalse (fun e => hs (by injection e))

end

instance : DecidableEq Json := decEq

mutual

/-- The value as plain data: of members with one name only the last value is kept. -/
def settled : Json → Json
  | .array items => .array (settledItems items)
  | .object members =>
      .object ((settledMembers members).foldl (fun kept m => Entries.put m.1 m.2 kept) [])
  | scalar => scalar

/-- Every item settled. -/
def settledItems : List Json → List Json
  | [] => []
  | item :: rest => item.settled :: settledItems rest

/-- Every member's value settled; the members themselves are all kept. -/
def settledMembers : List (String × Json) → Entries Json
  | [] => []
  | (name, value) :: rest => (name, value.settled) :: settledMembers rest

end

end Json

end SqlScribe
