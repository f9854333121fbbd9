import SqlScribe.Escape

/-!
# The words of SQL text

A database takes a text apart into tokens before it looks at anything else.
The lexer follows the rules of MySQL in its default mode: names stand between
backticks, strings between single or double quotes with backslash escapes, and
a quote that is doubled inside belongs to the text.  A comment is a fault here,
and so is a text that ends inside a name or a string.

`Reads` says which tokens a piece of text contributes when it is followed by a
character that ends any token; `Opens` says so of a piece that has ended its
last token itself.
-/

namespace SqlScribe.Lexis

/-! ## Tokens and modes -/

inductive Token where
  | word (text : String)
  | name (identifier : String)
  | string (value : String)
  | number (text : String)
  | symbol (text : String)
deriving DecidableEq, Repr

inductive LexicalFault where
  | comment
  | unterminated
  | malformedNumber
deriving DecidableEq, Repr

/-- What the lexer is in the middle of, with the characters seen so far. -/
inductive Mode where
  | between
  | word (seen : List Char)
  | name (seen : List Char)
  /-- After a backtick inside a name, which ends it or stands for itself with the next one. -/
  | closingName (seen : List Char)
  | string (quote : Char) (seen : List Char)
  | escape (quote : Char) (seen : List Char)
  | closingString (quote : Char) (seen : List Char)
  | whole (seen : List Char)
  | fraction (seen : List Char)
  | exponentMark (seen : List Char)
  | exponentSign (seen : List Char)
  | exponent (seen : List Char)
  | minus
  | dashes
  | slash
  | operator (seen : List Char)
deriving DecidableEq, Repr

/-- The tokens that a character completes, and the mode after it. -/
abbrev Move := Except LexicalFault (List Token × Mode)

/-- The mark before a name and behind it. -/
def backtick : Char := '\x60'

/-- The characters of keywords and of names without quotes. -/
def isWordPart (c : Char) : Bool := c.isAlphanum || c == '_' || c == '$' || 0x80 ≤ c.toNat

/-- The operators of several characters, each with its beginnings. -/
def operators : List (List Char) :=
  ["<", "<=", "<=>", "<>", "<<", ">", ">=", ">>", "!", "!=", "=", "|", "||", "&", "&&", ":",
    ":="].map String.toList

/-- What an escape in a string stands for; the escaped wildcards of patterns stay escaped. -/
def unescaped : Char → List Char
  | '0' => ['\x00']
  | 'b' => ['\x08']
  | 't' => ['\t']
  | 'n' => ['\n']
  | 'r' => ['\r']
  | 'Z' => ['\x1a']
  | '%' => ['\\', '%']
  | '_' => ['\\', '_']
  | c => [c]

namespace Mode

/-- A character where no token has begun. -/
def start (c : Char) : Move :=
  if c.isWhitespace then .ok ([], .between)
  else if c = backtick then .ok ([], .name [])
  else if c = '\x27' ∨ c = '"' then .ok ([], .string c [])
  else if c = '#' then .error .comment
  else if c = '-' then .ok ([], .minus)
  else if c = '/' then .ok ([], .slash)
  else if c.isDigit then .ok ([], .whole [c])
  else if isWordPart c then .ok ([], .word [c])
  else if [c] ∈ operators then .ok ([], .operator [c])
  else .ok ([.symbol (String.singleton c)], .between)

/-- A character that ends some tokens and may begin another one. -/
def after (tokens : List Token) (c : Char) : Move :=
  (start c).map fun move => (tokens ++ move.1, move.2)

/-- A character inside a number after its whole part. -/
def numeral (seen : List Char) (c : Char) : Move :=
  if isWordPart c || c == '.' then .error .malformedNumber
  else after [.number (String.ofList seen)] c

def step : Mode → Char → Move
  | .between, c => start c
  | .word seen, c =>
      if isWordPart c then .ok ([], .word (seen ++ [c])) else after [.word (String.ofList seen)] c
  | .name seen, c =>
      if c = backtick then .ok ([], .closingName seen) else .ok ([], .name (seen ++ [c]))
  | .closingName seen, c =>
      if c = backtick then .ok ([], .name (seen ++ [c]))
      else after [.name (String.ofList seen)] c
  | .string quote seen, c =>
      if c = '\\' then .ok ([], .escape quote seen)
      else if c = quote then .ok ([], .closingString quote seen)
      else .ok ([], .string quote (seen ++ [c]))
  | .escape quote seen, c => .ok ([], .string quote (seen ++ unescaped c))
  | .closingString quote seen, c =>
      if c = quote then .ok ([], .string quote (seen ++ [c]))
      else after [.string (String.ofList seen)] c
  | .whole seen, c =>
      if c.isDigit then .ok ([], .whole (seen ++ [c]))
      else if c = '.' then .ok ([], .fraction (seen ++ [c]))
      else if c = 'e' ∨ c = 'E' then .ok ([], .exponentMark (seen ++ [c]))
      else numeral seen c
  | .fraction seen, c =>
      if c.isDigit then .ok ([], .fraction (seen ++ [c]))
      else if c = 'e' ∨ c = 'E' then .ok ([], .exponentMark (seen ++ [c]))
      else numeral seen c
  | .exponentMark seen, c =>
      if c.isDigit then .ok ([], .exponent (seen ++ [c]))
      else if c = '+' ∨ c = '-' then .ok ([], .exponentSign (seen ++ [c]))
      else .error .malformedNumber
  | .exponentSign seen, c =>
      if c.isDigit then .ok ([], .exponent (seen ++ [c])) else .error .malformedNumber
  | .exponent seen, c =>
      if c.isDigit then .ok ([], .exponent (seen ++ [c])) else numeral seen c
  | .minus, c => if c = '-' then .ok ([], .dashes) else after [.symbol "-"] c
  | .dashes, c =>
      if c = '-' then .ok ([.symbol "-"], .dashes)
      else if c.isWhitespace || c.toNat < 0x20 then .error .comment
      else after [.symbol "-", .symbol "-"] c
  | .slash, c => if c = '*' then .error .comment else after [.symbol "/"] c
  | .operator seen, c =>
      if seen ++ [c] ∈ operators then .ok ([], .operator (seen ++ [c]))
      else after [.symbol (String.ofList seen)] c

/-- The tokens that the end of the text completes. -/
def finish : Mode → Except LexicalFault (List Token)
  | .between => .ok []
  | .word seen => .ok [.word (String.ofList seen)]
  | .closingName seen => .ok [.name (String.ofList seen)]
  | .closingString _ seen => .ok [.string (String.ofList seen)]
  | .whole seen | .fraction seen | .exponent seen => .ok [.number (String.ofList seen)]
  | .minus => .ok [.symbol "-"]
  | .slash => .ok [.symbol "/"]
  | .operator seen => .ok [.symbol (String.ofList seen)]
  | .name _ | .string _ _ | .escape _ _ => .error .unterminated
  | .exponentMark _ | .exponentSign _ => .error .malformedNumber
  | .dashes => .error .comment

end Mode

/-- The tokens of the rest of a text. -/
def scan (mode : Mode) : List Char → Except LexicalFault (List Token)
  | [] => mode.finish
  | c :: rest =>
      match mode.step c with
      | .ok (tokens, next) => (scan next rest).map (tokens ++ ·)
      | .error fault => .error fault

/-- The tokens of a text. -/
def lex (text : String) : Except LexicalFault (List Token) := scan .between text.toList

/-! ## Pieces of text -/

/-- Puts tokens before those of the rest. -/
def emit (tokens : List Token) (rest : Except LexicalFault (List Token)) :
    Except LexicalFault (List Token) :=
  rest.map (tokens ++ ·)

@[simp]
theorem emit_nil (rest : Except LexicalFault (List Token)) : emit [] rest = rest := by
  cases rest <;> rfl

@[simp]
theorem emit_emit (first second : List Token) (rest : Except LexicalFault (List Token)) :
    emit first (emit second rest) = emit (first ++ second) rest := by
  cases rest <;> simp [emit, Except.map]

/-- The characters that end every token that they are not a part of. -/
def isBreak (c : Char) : Bool := c == ' ' || c == ',' || c == '(' || c == ')'

/-- The text is empty or begins with a character that ends tokens. -/
def Broken (text : List Char) : Prop := ∀ c ∈ text.head?, isBreak c

/-- The piece contributes these tokens, whatever comes after it. -/
def Opens (text : List Char) (tokens : List Token) : Prop :=
  ∀ rest, scan .between (text ++ rest) = emit tokens (scan .between rest)

/-- The piece contributes these tokens if nothing or the end of a token comes after it. -/
def Reads (text : List Char) (tokens : List Token) : Prop :=
  ∀ rest, Broken rest → scan .between (text ++ rest) = emit tokens (scan .between rest)

namespace Broken

theorem nil : Broken [] := by
  intro c member
  cases member

theorem cons {c : Char} {rest : List Char} (ends : isBreak c) : Broken (c :: rest) := by
  intro other member
  cases member
  exact ends

theorem append {first second : List Char} (own : Broken first) (other : Broken second) :
    Broken (first ++ second) := by
  cases first with
  | nil => exact other
  | cons c rest => exact own

end Broken

section Pieces

variable {first second text : List Char} {tokens others pending : List Token}

theorem Opens.reads (own : Opens text tokens) : Reads text tokens := fun rest _ => own rest

theorem Opens.append_reads (own : Opens first tokens) (other : Reads second others) :
    Reads (first ++ second) (tokens ++ others) := by
  intro rest broken
  rw [List.append_assoc, own, other rest broken, emit_emit]

theorem Reads.nil : Reads [] [] := by
  intro rest _
  exact (emit_nil _).symm

theorem Reads.append
    (own : Reads first tokens) (other : Reads second others) (broken : Broken second) :
    Reads (first ++ second) (tokens ++ others) := by
  intro rest after
  rw [List.append_assoc, own _ (broken.append after), other rest after, emit_emit]

theorem Reads.lex {text : String} (own : Reads text.toList tokens) : lex text = .ok tokens := by
  have whole := own [] Broken.nil
  rw [List.append_nil] at whole
  rw [Lexis.lex, whole]
  show Except.ok (tokens ++ []) = _
  rw [List.append_nil]

/-! ## Running through a piece -/

/-- The tokens of a piece of text, and the mode after it. -/
def run (mode : Mode) : List Char → Move
  | [] => .ok ([], mode)
  | c :: rest =>
      match mode.step c with
      | .ok (tokens, next) => (run next rest).map fun move => (tokens ++ move.1, move.2)
      | .error fault => .error fault

variable {mode middle final : Mode}

theorem run_cons
    {c : Char} {rest : List Char}
    (head : mode.step c = .ok (tokens, middle)) (tail : run middle rest = .ok (others, final)) :
    run mode (c :: rest) = .ok (tokens ++ others, final) := by
  rw [run, head]
  show (run middle rest).map _ = _
  rw [tail]
  rfl

theorem run_skip
    {c : Char} (head : mode.step c = .ok ([], middle)) (rest : List Char) :
    run mode (c :: rest) = run middle rest := by
  rw [run, head]
  show (run middle rest).map _ = _
  cases run middle rest <;> rfl

theorem run_append
    (head : run mode first = .ok (tokens, middle)) (tail : run middle second = .ok (others, final)) :
    run mode (first ++ second) = .ok (tokens ++ others, final) := by
  induction first generalizing mode tokens with
  | nil =>
      cases head
      exact tail
  | cons c rest step =>
      rw [run] at head
      split at head
      · rename_i completed next moved
        cases through : run next rest with
        | error fault =>
            rw [through] at head
            cases head
        | ok move =>
            rw [through] at head
            cases head
            rw [List.append_assoc]
            exact run_cons moved (step through)
      · cases head

theorem scan_of_run
    (through : run mode text = .ok (tokens, middle)) (rest : List Char) :
    scan mode (text ++ rest) = emit tokens (scan middle rest) := by
  induction text generalizing mode tokens with
  | nil =>
      cases through
      exact (emit_nil _).symm
  | cons c others step =>
      rw [run] at through
      rw [List.cons_append, scan]
      split at through
      · rename_i completed next moved
        cases onward : run next others with
        | error fault =>
            rw [onward] at through
            cases through
        | ok move =>
            rw [onward] at through
            cases through
            show emit completed _ = _
            rw [step onward, emit_emit]
      · cases through

theorem opens_of_run (through : run .between text = .ok (tokens, .between)) : Opens text tokens :=
  scan_of_run through

/-- The end of a token completes these tokens in this mode. -/
def Mode.Settles (mode : Mode) (pending : List Token) : Prop :=
  mode.finish = .ok pending ∧ ∀ c, isBreak c → mode.step c = Mode.after pending c

theorem reads_of_run
    (through : run .between text = .ok (tokens, mode)) (settles : mode.Settles pending) :
    Reads text (tokens ++ pending) := by
  intro rest broken
  rw [scan_of_run through, ← emit_emit]
  apply congrArg (emit tokens)
  cases rest with
  | nil =>
      rw [scan, settles.1]
      show _ = Except.ok (pending ++ [])
      rw [List.append_nil]
  | cons c others =>
      rw [scan, settles.2 c (broken c rfl), Mode.after, scan, Mode.step]
      cases Mode.start c with
      | error fault => rfl
      | ok move =>
          show emit (pending ++ move.1) _ = emit pending (emit move.1 _)
          rw [emit_emit]

end Pieces

/-! ## Modes in which a token can end -/

namespace Mode

variable {seen : List Char}

theorem isBreak_cases {c : Char} (ends : isBreak c) : c = ' ' ∨ c = ',' ∨ c = '(' ∨ c = ')' := by
  simpa [isBreak, or_assoc] using ends

theorem settles_word : (word seen).Settles [.word (String.ofList seen)] := by
  constructor
  · rfl
  · intro c ends
    rcases isBreak_cases ends with rfl | rfl | rfl | rfl <;> rfl

theorem settles_closingName : (closingName seen).Settles [.name (String.ofList seen)] := by
  constructor
  · rfl
  · intro c ends
    rcases isBreak_cases ends with rfl | rfl | rfl | rfl <;> rfl

theorem settles_closingString :
    (closingString '\x27' seen).Settles [.string (String.ofList seen)] := by
  constructor
  · rfl
  · intro c ends
    rcases isBreak_cases ends with rfl | rfl | rfl | rfl <;> rfl

theorem settles_whole : (whole seen).Settles [.number (String.ofList seen)] := by
  constructor
  · rfl
  · intro c ends
    rcases isBreak_cases ends with rfl | rfl | rfl | rfl <;> rfl

theorem settles_fraction : (fraction seen).Settles [.number (String.ofList seen)] := by
  constructor
  · rfl
  · intro c ends
    rcases isBreak_cases ends with rfl | rfl | rfl | rfl <;> rfl

theorem settles_exponent : (exponent seen).Settles [.number (String.ofList seen)] := by
  constructor
  · rfl
  · intro c ends
    rcases isBreak_cases ends with rfl | rfl | rfl | rfl <;> rfl

end Mode

end SqlScribe.Lexis
