/-!
# The supply of generated aliases

Embedded queries get aliases of their own, so that a query over a table can
stand inside another query over the same table.  One scope serves a whole
statement.  Aliases have the form `sq<depth>_<number>`; numbers count up per
depth of nesting and skip every name that is taken.

A search for a free number looks at as many candidates as there are taken
names: the candidates are all different, so one more candidate than that cannot
be taken as well.
-/

namespace SqlScribe

/-- The generated alias with this number at this depth. -/
def generatedAlias (depth number : Nat) : String :=
  "sq" ++ toString depth ++ "_" ++ toString number

/-- The names in use in a statement, and the next number to try at each depth. -/
structure AliasScope where
  taken : List String
  next : List (Nat × Nat)
deriving DecidableEq, Repr, Inhabited

namespace AliasScope

def empty : AliasScope := ⟨[], []⟩

def isTaken (scope : AliasScope) (name : String) : Bool := scope.taken.contains name

/-- Marks a name as used. -/
def reserve (scope : AliasScope) (name : String) : AliasScope :=
  { scope with taken := name :: scope.taken }

/-- The next number to try at a depth. -/
def nextNumber (scope : AliasScope) (depth : Nat) : Nat :=
  ((scope.next.find? fun entry => entry.1 == depth).map Prod.snd).getD 0

/-- The first number from `number` on whose alias is not taken, among `candidates + 1` of them. -/
def firstFree (taken : List String) (depth : Nat) : (candidates number : Nat) → Nat
  | 0, number => number
  | candidates + 1, number =>
      if taken.contains (generatedAlias depth number) then
        firstFree taken depth candidates (number + 1)
      else number

/-- The number that the next alias at a depth will have. -/
def freeNumber (scope : AliasScope) (depth : Nat) : Nat :=
  firstFree scope.taken depth scope.taken.length (scope.nextNumber depth)

/-- Hands out an alias that is not taken, and takes it. -/
def allocate (scope : AliasScope) (depth : Nat) : String × AliasScope :=
  let number := scope.freeNumber depth
  let aliasName := generatedAlias depth number
  (aliasName, ⟨aliasName :: scope.taken, (depth, number + 1) :: scope.next⟩)

end AliasScope

end SqlScribe
