import SqlScribe.Proofs.Checked
import SqlScribe.Proofs.Lexis.Literal
import SqlScribe.Statement.Fragment

/-!
# The tokens of fragments

A statement is written fragment by fragment, and some fragments only end where
the next one begins.  `Spelled` gives the tokens of a list of fragments that is
followed by the end of a token, and `Opening` those of one that has ended its
tokens itself; a list that begins with the end of a token `Follows` any other.
-/

namespace SqlScribe.Lexis

open Checked

variable {fragments first second : List Fragment} {tokens others : List Token}

/-- The fragments can be written, and have these tokens up to the end of the last one. -/
def Spelled (fragments : List Fragment) (tokens : List Token) : Prop :=
  ∃ text, Fragment.texts fragments = .ok text ∧ Reads text tokens

/-- The fragments can be written, and have these tokens, of which the last one is complete. -/
def Opening (fragments : List Fragment) (tokens : List Token) : Prop :=
  ∃ text, Fragment.texts fragments = .ok text ∧ Opens text tokens

/-- What can be written begins with the end of a token, if it is not empty. -/
def Follows (fragments : List Fragment) : Prop :=
  ∀ text, Fragment.texts fragments = .ok text → Broken text

theorem texts_append {text : List Char} :
    Fragment.texts (first ++ second) = .ok text ↔
      ∃ front back, Fragment.texts first = .ok front ∧ Fragment.texts second = .ok back ∧
        text = front ++ back := by
  induction first generalizing text with
  | nil => simp [Fragment.texts]
  | cons fragment rest step =>
      simp only [List.cons_append, Fragment.texts, bind_eq_ok, pure_eq_ok, step]
      constructor
      · rintro ⟨own, written, _, ⟨front, back, head, tail, rfl⟩, rfl⟩
        exact ⟨own ++ front, back, ⟨own, written, front, head, rfl⟩, tail, by simp⟩
      · rintro ⟨_, back, ⟨own, written, front, head, rfl⟩, tail, rfl⟩
        exact ⟨own, written, front ++ back, ⟨front, back, head, tail, rfl⟩, by simp⟩

theorem texts_singleton {fragment : Fragment} {text : List Char} :
    Fragment.texts [fragment] = .ok text ↔ fragment.text = .ok text := by
  simp [Fragment.texts]

/-! ## Putting fragments together -/

theorem Opening.spelled (own : Opening fragments tokens) : Spelled fragments tokens := by
  rcases own with ⟨text, written, opens⟩
  exact ⟨text, written, opens.reads⟩

theorem Opening.append_spelled (own : Opening first tokens) (other : Spelled second others) :
    Spelled (first ++ second) (tokens ++ others) := by
  rcases own with ⟨front, head, opens⟩
  rcases other with ⟨back, tail, reads⟩
  exact ⟨front ++ back, texts_append.2 ⟨front, back, head, tail, rfl⟩, opens.append_reads reads⟩

theorem Spelled.append
    (own : Spelled first tokens) (other : Spelled second others) (follows : Follows second) :
    Spelled (first ++ second) (tokens ++ others) := by
  rcases own with ⟨front, head, reads⟩
  rcases other with ⟨back, tail, more⟩
  have whole := reads.append more (follows back tail)
  exact ⟨front ++ back, texts_append.2 ⟨front, back, head, tail, rfl⟩, whole⟩

theorem Spelled.nil : Spelled [] [] := ⟨[], rfl, Reads.nil⟩

/-- The lexer finds the tokens of fragments in their text. -/
theorem Spelled.lex (own : Spelled fragments tokens) :
    ∃ text, Fragment.texts fragments = .ok text ∧ lex (String.ofList text) = .ok tokens := by
  rcases own with ⟨text, written, reads⟩
  rw [← String.toList_ofList (l := text)] at reads
  exact ⟨text, written, reads.lex⟩

theorem Follows.nil : Follows [] := by
  intro text written
  cases written
  exact Broken.nil

theorem Follows.append (own : Follows first) (other : Follows second) : Follows (first ++ second) := by
  intro text written
  rcases texts_append.1 written with ⟨front, back, head, tail, rfl⟩
  exact (own front head).append (other back tail)

/-- A piece of code that begins with the end of a token. -/
theorem follows_code
    {code : String} {rest : List Fragment} (begins : code.toList.head?.any isBreak = true) :
    Follows (.code code :: rest) := by
  intro text written
  simp only [Fragment.texts, Fragment.text, bind_eq_ok, pure_eq_ok] at written
  rcases written with ⟨_, head, back, -, rfl⟩
  cases head
  rcases spelled : code.toList with _ | ⟨c, others⟩
  · rw [spelled] at begins
    cases begins
  · rw [spelled] at begins
    exact Broken.cons begins

/-! ## Single fragments -/

theorem opening_fixed
    {text : List Char} (fixed : Fragment.texts fragments = .ok text)
    (through : run .between text = .ok (tokens, .between)) : Opening fragments tokens :=
  ⟨text, fixed, opens_of_run through⟩

theorem spelled_name {name : String} (quotable : Quotable name) :
    Spelled [.name name] [.name name] :=
  ⟨_, texts_singleton.2 quotable.quotedName, reads_quotedName name⟩

theorem opening_qualifier {name : String} (quotable : Quotable name) :
    Opening [.name name, .code "."] [.name name, .symbol "."] := by
  have split : [.name name, .code "."] = [Fragment.name name] ++ [.code "."] := rfl
  have quoted : Fragment.texts [.name name] = .ok (quotedSegment name.toList) :=
    texts_singleton.2 quotable.quotedName
  rw [split]
  exact ⟨_, texts_append.2 ⟨_, ['.'], quoted, rfl, rfl⟩, opens_qualifier name⟩

theorem spelled_value (value : Json) : Spelled [.value value] (valueTokens value) :=
  ⟨_, texts_singleton.2 rfl, reads_value value⟩

theorem spelled_number (value : Int) : Spelled [.number value] (numberTokens (decimalText value)) :=
  ⟨_, texts_singleton.2 rfl, reads_number (.integer value)⟩

theorem spelled_natural (value : Nat) : Spelled [.number value] [.number (toString value)] :=
  ⟨_, texts_singleton.2 rfl, reads_decimal value⟩

/-! ## Clauses -/

/-- What begins with the end of a token and then has these tokens. -/
structure Clause (fragments : List Fragment) (tokens : List Token) : Prop where
  spelled : Spelled fragments tokens
  follows : Follows fragments

namespace Clause

theorem nil : Clause [] [] := ⟨Spelled.nil, Follows.nil⟩

theorem append (own : Clause first tokens) (other : Clause second others) :
    Clause (first ++ second) (tokens ++ others) :=
  ⟨own.spelled.append other.spelled other.follows, own.follows.append other.follows⟩

/-- A clause with a piece of code that is complete before the rest begins. -/
theorem opened
    {code : String} (begins : code.toList.head?.any isBreak = true)
    (own : Opening [.code code] tokens) (other : Spelled second others) :
    Clause (.code code :: second) (tokens ++ others) :=
  ⟨own.append_spelled other, follows_code begins⟩

/-- A clause that is a piece of code with a word at its end. -/
theorem fixed
    {code : String} {front : List Token} {seen : List Char}
    (begins : code.toList.head?.any isBreak = true)
    (through : run .between code.toList = .ok (front, .word seen))
    (whole : front ++ [.word (String.ofList seen)] = tokens) : Clause [.code code] tokens := by
  rw [← whole]
  have reads := reads_of_run through Mode.settles_word
  exact ⟨⟨_, texts_singleton.2 rfl, reads⟩, follows_code begins⟩

end Clause

theorem Spelled.clause (own : Spelled first tokens) (other : Clause second others) :
    Spelled (first ++ second) (tokens ++ others) :=
  own.append other.spelled other.follows

/-! ## Lists -/

/-- Lists of fragments with commas between them have the tokens of the lists, and commas. -/
theorem spelled_separated {α : Type}
    {write : α → List Fragment} {read : α → List Token} {items : List α}
    (each : ∀ item ∈ items, Spelled (write item) (read item)) :
    Spelled (Fragment.separated (items.map write)) (separatedTokens (items.map read)) := by
  have comma : Opening [.code ", "] [.symbol ","] := opening_fixed rfl rfl
  induction items with
  | nil => exact Spelled.nil
  | cons item rest step =>
      cases rest with
      | nil => exact each item List.mem_cons_self
      | cons next others =>
          have tail := comma.append_spelled
            (step fun other member => each other (List.mem_cons_of_mem _ member))
          exact (each item List.mem_cons_self).append tail (follows_code rfl)

end SqlScribe.Lexis
