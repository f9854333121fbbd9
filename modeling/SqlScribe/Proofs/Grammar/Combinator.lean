import SqlScribe.Proofs.Lexis.Literal

/-!
# Parsers of tokens

A parser takes what it reads off the front of some tokens.  It decides by the
next token how to go on, so that nothing is read twice.

`Parses` says that a parser reads exactly these tokens and gives this value,
whatever comes after them but a token that would make it read on.
-/

namespace SqlScribe.Grammar

open Lexis

/-- Reads something off the front of some tokens. -/
abbrev Parser (α : Type) := StateT (List Token) Option α

variable {α β : Type}

/-! ## Parsers -/

/-- Goes on in one way after a token if it comes next, and in another way if it does not. -/
def branch (token : Token) (present absent : Parser α) : Parser α := fun tokens =>
  match tokens with
  | first :: rest => if first = token then present rest else absent (first :: rest)
  | [] => absent []

def expect (token : Token) : Parser Unit := branch token (pure ()) failure

def name : Parser String := fun tokens =>
  match tokens with
  | .name identifier :: rest => some (identifier, rest)
  | _ => none

def string : Parser String := fun tokens =>
  match tokens with
  | .string value :: rest => some (value, rest)
  | _ => none

/-- A number that consists of digits only. -/
def natural : Parser Nat := fun tokens =>
  match tokens with
  | .number text :: rest =>
      if text.toList.all Char.isDigit then some (Nat.ofDigitChars 10 text.toList 0, rest) else none
  | _ => none

/-- Reads at most so many items with commas between them, and at least one. -/
def separated (item : Parser α) : Nat → Parser (List α)
  | 0 => failure
  | bound + 1 => do
      let first ← item
      branch (.symbol ",")
        (do
          let others ← separated item bound
          pure (first :: others))
        (pure [first])

/-! ## What a parser reads -/

/-- The tokens do not begin with one of these. -/
def Avoids (marks tokens : List Token) : Prop := ∀ token ∈ tokens.head?, token ∉ marks

namespace Avoids

variable {marks others rest : List Token} {token : Token}

theorem nil : Avoids marks [] := by
  intro token member
  cases member

theorem cons (different : token ∉ marks) : Avoids marks (token :: rest) := by
  intro first member
  cases member
  exact different

theorem mono (avoids : Avoids marks rest) (fewer : others ⊆ marks) : Avoids others rest :=
  fun token member present => avoids token member (fewer present)

end Avoids

/--
The parser reads these tokens and gives the value, unless one of the marks
comes after them.
-/
def Parses (parser : Parser α) (marks tokens : List Token) (value : α) : Prop :=
  ∀ rest, Avoids marks rest → parser (tokens ++ rest) = some (value, rest)

section Laws

variable {parser present absent : Parser α} {next : α → Parser β}
variable {marks others first second tokens : List Token} {token : Token} {value : α} {result : β}

theorem Parses.mono (own : Parses parser others tokens value) (fewer : others ⊆ marks) :
    Parses parser marks tokens value :=
  fun rest avoids => own rest (avoids.mono fewer)

theorem Parses.pure (marks : List Token) (value : α) :
    Parses (Pure.pure value : Parser α) marks [] value :=
  fun _ _ => rfl

/-- One parser after another; what the second one reads must not belong to the first. -/
theorem Parses.bind
    (own : Parses parser others first value)
    (other : Parses (next value) marks second result)
    (apart : ∀ rest, Avoids marks rest → Avoids others (second ++ rest)) :
    Parses (parser >>= next) marks (first ++ second) result := by
  intro rest avoids
  show (parser (first ++ second ++ rest)).bind (fun read => next read.1 read.2) = _
  rw [List.append_assoc, own _ (apart rest avoids)]
  exact other rest avoids

/-- A parser that never reads on, before another one. -/
theorem Parses.andThen
    (own : Parses parser [] first value) (other : Parses (next value) marks second result) :
    Parses (parser >>= next) marks (first ++ second) result :=
  own.bind other fun _ _ _ _ => List.not_mem_nil

/-- A parser whose value only changes form. -/
theorem Parses.map {change : α → β} (own : Parses parser marks tokens value) :
    Parses (parser >>= fun read => Pure.pure (change read)) marks tokens (change value) := by
  have whole : Parses (parser >>= fun read => Pure.pure (change read)) marks (tokens ++ [])
      (change value) :=
    own.bind (Parses.pure marks (change value)) fun _ avoids => avoids
  rw [List.append_nil] at whole
  exact whole

theorem branch_present (own : Parses present marks tokens value) :
    Parses (branch token present absent) marks (token :: tokens) value := by
  intro rest avoids
  show (if token = token then present (tokens ++ rest) else _) = _
  rw [if_pos rfl]
  exact own rest avoids

/-- Nothing that the parser can go on with begins with the token. -/
theorem branch_absent
    (own : Parses absent marks tokens value)
    (apart : ∀ rest, Avoids marks rest → Avoids [token] (tokens ++ rest)) :
    Parses (branch token present absent) marks tokens value := by
  intro rest avoids
  have different := apart rest avoids
  have reads := own rest avoids
  cases spelled : tokens ++ rest with
  | nil =>
      rw [spelled] at reads
      exact reads
  | cons head others =>
      rw [spelled] at different reads
      have other : head ≠ token := fun same =>
        different head rfl (List.mem_singleton.2 same)
      show (if head = token then present others else absent (head :: others)) = _
      rw [if_neg other]
      exact reads

/-- The token does not come next, as another one does. -/
theorem branch_other
    {head : Token} (different : head ≠ token)
    (own : Parses absent marks (head :: tokens) value) :
    Parses (branch token present absent) marks (head :: tokens) value :=
  branch_absent own fun _ _ => Avoids.cons fun same => different (List.mem_singleton.1 same)

/-- The token does not come next, as nothing is read and the token is a mark. -/
theorem branch_end (own : Parses absent marks [] value) (marked : token ∈ marks) :
    Parses (branch token present absent) marks [] value :=
  branch_absent own fun _ avoids => avoids.mono (by simpa using marked)

end Laws

/-! ## Single tokens and lists -/

theorem expect_parses (token : Token) : Parses (expect token) [] [token] () :=
  branch_present (Parses.pure [] ())

theorem Parses.expect_then
    {next : Unit → Parser α} {marks tokens : List Token} {token : Token} {value : α}
    (own : Parses (next ()) marks tokens value) :
    Parses (expect token >>= next) marks (token :: tokens) value :=
  (expect_parses token).andThen own

/-- A token after which there is nothing left to read. -/
theorem expect_last {marks : List Token} {token : Token} {value : α} :
    Parses (expect token >>= fun _ => pure value) marks [token] value :=
  (expect_parses token).andThen (Parses.pure marks value)

theorem name_parses (identifier : String) : Parses name [] [.name identifier] identifier :=
  fun _ _ => rfl

theorem string_parses (value : String) : Parses string [] [.string value] value := fun _ _ => rfl

theorem natural_parses (value : Nat) : Parses natural [] [.number (toString value)] value := by
  intro rest _
  have digits : (Nat.toDigits 10 value).all Char.isDigit = true :=
    List.all_eq_true.2 (Binary64.hasDigits_decimal value).2
  have spelled : (toString value).toList = Nat.toDigits 10 value := Nat.toList_repr
  show (if (toString value).toList.all Char.isDigit then
    some (Nat.ofDigitChars 10 (toString value).toList 0, rest) else none) = _
  rw [spelled, if_pos digits, Nat.ofDigitChars_ten_toDigits]

/-- Tokens with commas between them are at least as many as there are commas. -/
theorem length_le_separatedTokens (items : List (List Token)) :
    items.length ≤ (separatedTokens items).length + 1 := by
  induction items with
  | nil => simp
  | cons item rest step =>
      cases rest with
      | nil => simp [separatedTokens]
      | cons next others =>
          simp only [separatedTokens, List.length_append, List.length_cons] at step ⊢
          omega

theorem separated_parses
    {parser : Parser β} {marks others : List Token} {read : α → List Token} {value : α → β}
    {items : List α} {bound : Nat}
    (each : ∀ item ∈ items, Parses parser others (read item) (value item))
    (free : .symbol "," ∉ others)
    (fewer : others ⊆ marks)
    (marked : .symbol "," ∈ marks)
    (nonempty : items ≠ [])
    (enough : items.length ≤ bound) :
    Parses (separated parser bound) marks (separatedTokens (items.map read)) (items.map value) := by
  induction items generalizing bound with
  | nil => exact absurd rfl nonempty
  | cons item rest step =>
      cases bound with
      | zero => cases enough
      | succ bound =>
          have own := each item List.mem_cons_self
          cases rest with
          | nil =>
              have whole : Parses (separated parser (bound + 1)) marks (read item ++ [])
                  [value item] :=
                own.bind (branch_end (Parses.pure marks _) marked) fun _ avoids =>
                  avoids.mono fewer
              rw [List.append_nil] at whole
              exact whole
          | cons next more =>
              have tail := step (fun other member => each other (List.mem_cons_of_mem _ member))
                (List.cons_ne_nil _ _) (Nat.le_of_succ_le_succ enough)
              exact own.bind (branch_present tail.map) fun _ _ => Avoids.cons free

end SqlScribe.Grammar
