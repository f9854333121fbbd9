import SqlScribe.Column
import SqlScribe.Escape
import SqlScribe.Proofs.Lexis.Numeral
import SqlScribe.Proofs.Pieces

/-!
# Names and values in SQL text

A quoted name is one token, and so is a string literal; each gives back what
was quoted.  The literal of a value consists of the tokens of the value, and
the type of a column of a word and the numbers of its size.
-/

namespace SqlScribe

namespace Lexis

variable {c : Char} {seen text : List Char}

/-! ## Names -/

theorem run_segment (seen segment : List Char) :
    run (.name seen)
        (segment.flatMap fun c => if c = backtick then [backtick, backtick] else [c]) =
      .ok ([], .name (seen ++ segment)) := by
  induction segment generalizing seen with
  | nil => simp [run]
  | cons c rest step =>
      have own : run (.name seen) (if c = backtick then [backtick, backtick] else [c]) =
          .ok ([], .name (seen ++ [c])) := by
        by_cases quote : c = backtick
        · subst quote
          rfl
        · have inside : (Mode.name seen).step c = .ok ([], .name (seen ++ [c])) := by
            simp [Mode.step, quote]
          rw [if_neg quote]
          exact run_cons inside rfl
      have others := step (seen ++ [c])
      rw [List.append_assoc] at others
      exact run_append own others

theorem quotedSegment_eq (segment : List Char) :
    quotedSegment segment =
      backtick :: segment.flatMap (fun c => if c = backtick then [backtick, backtick] else [c]) ++
        [backtick] :=
  rfl

theorem run_quotedSegment (segment : List Char) :
    run .between (quotedSegment segment) = .ok ([], .closingName segment) := by
  have opened : Mode.between.step backtick = .ok ([], .name []) := rfl
  have closed : run (.name segment) [backtick] = .ok ([], .closingName segment) := rfl
  rw [quotedSegment_eq]
  exact run_cons opened (run_append (run_segment [] segment) closed)

/-- The name can be quoted, as a whole. -/
structure Quotable (name : String) : Prop where
  nonempty : name.toList ≠ []
  nulFree : '\x00' ∉ name.toList
  undotted : '.' ∉ name.toList

theorem Quotable.quotedName {name : String} (quotable : Quotable name) :
    quotedName name = .ok (quotedSegment name.toList) := by
  rw [SqlScribe.quotedName, if_neg quotable.nonempty, if_neg quotable.nulFree,
    Text.splitAt_of_not_mem quotable.undotted]
  rfl

/-- A quoted name is one token. -/
theorem reads_quotedName (name : String) : Reads (quotedSegment name.toList) [.name name] := by
  have segment := reads_of_run (run_quotedSegment name.toList) Mode.settles_closingName
  rw [String.ofList_toList] at segment
  exact segment

/-- A dot after a quoted name ends it. -/
theorem opens_qualifier (name : String) :
    Opens (quotedSegment name.toList ++ ['.']) [.name name, .symbol "."] := by
  have dot : run (.closingName name.toList) ['.'] =
      .ok ([.name (String.ofList name.toList), .symbol "."], .between) := rfl
  rw [String.ofList_toList] at dot
  exact opens_of_run (run_append (run_quotedSegment name.toList) dot)

/-! ## Strings -/

theorem run_literalChar (seen : List Char) (c : Char) :
    run (.string '\x27' seen) (literalChar c) = .ok ([], .string '\x27' (seen ++ [c])) := by
  unfold literalChar
  split
  case h_10 zero backspace tab newline back substitute double single backslash =>
    have inside : (Mode.string '\x27' seen).step c = .ok ([], .string '\x27' (seen ++ [c])) := by
      simp only [Mode.step]
      rw [if_neg backslash, if_neg single]
    exact run_cons inside rfl
  all_goals rfl

theorem run_literal (seen text : List Char) :
    run (.string '\x27' seen) (text.flatMap literalChar) =
      .ok ([], .string '\x27' (seen ++ text)) := by
  induction text generalizing seen with
  | nil => simp [run]
  | cons c rest step =>
      have others := step (seen ++ [c])
      rw [List.append_assoc] at others
      exact run_append (run_literalChar seen c) others

theorem reads_stringLiteral (text : List Char) :
    Reads (stringLiteral text) [.string (String.ofList text)] := by
  have opened : Mode.between.step '\x27' = .ok ([], .string '\x27' []) := rfl
  have closed : run (.string '\x27' text) ['\x27'] = .ok ([], .closingString '\x27' text) := rfl
  have inside := run_append (run_literal [] text) closed
  exact reads_of_run (run_cons opened inside) Mode.settles_closingString

/-! ## Values -/

/-- The tokens between which there is a comma. -/
def separatedTokens : List (List Token) → List Token
  | [] => []
  | [item] => item
  | item :: next :: rest => item ++ .symbol "," :: separatedTokens (next :: rest)

mutual

/-- The tokens of a value: an array is the list of its items, and an object the text of its JSON. -/
def valueTokens : Json → List Token
  | .null => [.word "NULL"]
  | .bool true => [.word "true"]
  | .bool false => [.word "false"]
  | .number value => numberTokens value.text
  | .string value => [.string value]
  | .array items => itemTokens items
  | .object members => [.string (Json.render (.object members))]

def itemTokens : List Json → List Token
  | [] => []
  | [value] => valueTokens value
  | value :: next :: rest => valueTokens value ++ .symbol "," :: itemTokens (next :: rest)

end

theorem opens_comma : Opens [',', ' '] [.symbol ","] := opens_of_run rfl

theorem reads_word {word : String}
    (through : run .between word.toList = .ok ([], .word word.toList)) :
    Reads word.toList [.word word] := by
  have whole := reads_of_run through Mode.settles_word
  rw [String.ofList_toList] at whole
  exact whole

mutual

theorem reads_value : ∀ value : Json, Reads value.literal (valueTokens value)
  | .null => reads_word rfl
  | .bool true => reads_word rfl
  | .bool false => reads_word rfl
  | .number value => reads_number value
  | .string value => by
      have whole := reads_stringLiteral value.toList
      rw [String.ofList_toList] at whole
      exact whole
  | .array items => reads_items items
  | .object members => reads_stringLiteral _

theorem reads_items : ∀ items : List Json, Reads (Json.literalList items) (itemTokens items)
  | [] => Reads.nil
  | [value] => reads_value value
  | value :: next :: rest => by
      have others := opens_comma.append_reads (reads_items (next :: rest))
      have broken : Broken ([',', ' '] ++ Json.literalList (next :: rest)) := Broken.cons rfl
      have whole := (reads_value value).append others broken
      rw [← List.append_assoc] at whole
      exact whole

end

/-! ## Column types -/

/-- The tokens of a column type: a word, and the numbers of a size if there is one. -/
def typeTokens (sqlType : String) : List Token :=
  match Text.splitOnce? '(' sqlType.toList with
  | none => [.word sqlType]
  | some (word, size) =>
      .word (String.ofList word) :: .symbol "(" ::
        separatedTokens
          ((Text.splitAt ',' size.dropLast).map fun number => [.number (String.ofList number)]) ++
        [.symbol ")"]

theorem reads_typeName (content : ColumnContent) :
    Reads content.typeName.toList [.word content.typeName] := by
  cases content <;> exact reads_word rfl

theorem reads_decimal (n : Nat) :
    Reads (Nat.toDigits 10 n) [.number (String.ofList (Nat.toDigits 10 n))] := by
  have numeral := isNumeral_whole (Binary64.hasDigits_decimal n)
  have whole := reads_numeral numeral
  rw [numberTokens_of_numeral numeral] at whole
  exact whole

/-- No mark of a size stands among digits. -/
theorem not_mem_decimal {mark : Char} (plain : mark.isDigit = false) (n : Nat) :
    mark ∉ Nat.toDigits 10 n := by
  intro member
  have digit := (Binary64.hasDigits_decimal n).2 mark member
  rw [plain] at digit
  cases digit

/-- The tokens of a size with its parentheses. -/
def sizeTokens : ColumnSize → List Token
  | .length digits => [.symbol "(", .number (toString digits), .symbol ")"]
  | .precision digits places =>
      [.symbol "(", .number (toString digits), .symbol ",", .number (toString places), .symbol ")"]

theorem typeTokens_append {word : String} (plain : '(' ∉ word.toList) (size : List Char) :
    typeTokens (word ++ String.ofList ('(' :: (size ++ [')']))) =
      .word word :: .symbol "(" ::
        separatedTokens
          ((Text.splitAt ',' size).map fun number => [.number (String.ofList number)]) ++
        [.symbol ")"] := by
  rw [typeTokens, String.toList_append, String.toList_ofList, Text.splitOnce?_append plain]
  simp only [List.dropLast_concat, String.ofList_toList]

theorem sizeText_eq (size : ColumnSize) :
    size.text = String.ofList ('(' ::
      ((match size with
        | .length digits => Nat.toDigits 10 digits
        | .precision digits places =>
            Nat.toDigits 10 digits ++ ',' :: Nat.toDigits 10 places) ++ [')'])) := by
  rw [← String.toList_inj]
  cases size <;> simp [ColumnSize.text]

/-- The type of a column is the type of its content, with a size if it has one. -/
theorem typeTokens_sqlType (spec : ColumnSpec) :
    typeTokens spec.sqlType =
      .word spec.content.typeName ::
        ((spec.size.or spec.content.size?).map sizeTokens).getD [] := by
  have plain : '(' ∉ spec.content.typeName.toList := by
    cases spec.content <;> decide
  unfold ColumnSpec.sqlType
  split
  · rename_i size sized
    rw [sized, sizeText_eq, typeTokens_append plain]
    cases size with
    | length digits =>
        rw [Text.splitAt_of_not_mem (not_mem_decimal rfl digits)]
        rfl
    | precision digits places =>
        rw [Text.splitAt_append (not_mem_decimal rfl digits),
          Text.splitAt_of_not_mem (not_mem_decimal rfl places)]
        rfl
  · rename_i missing
    have unsized : Text.splitOnce? '(' spec.content.typeName.toList = none := by
      cases spec.content <;> rfl
    rw [missing, typeTokens, unsized]
    rfl

theorem reads_size (size : ColumnSize) : Reads size.text.toList (sizeTokens size) := by
  have opened : Opens ['('] [.symbol "("] := opens_of_run rfl
  have closed : Opens [')'] [.symbol ")"] := opens_of_run rfl
  have comma : Opens [','] [.symbol ","] := opens_of_run rfl
  rw [sizeText_eq, String.toList_ofList]
  cases size with
  | length digits =>
      have inside := (reads_decimal digits).append closed.reads (Broken.cons rfl)
      exact opened.append_reads inside
  | precision digits places =>
      have numbers := (reads_decimal digits).append (comma.append_reads (reads_decimal places))
        (Broken.cons rfl)
      have inside := numbers.append closed.reads (Broken.cons rfl)
      exact opened.append_reads inside

theorem reads_sqlType (spec : ColumnSpec) :
    Reads spec.sqlType.toList (typeTokens spec.sqlType) := by
  have own := reads_typeName spec.content
  rw [typeTokens_sqlType]
  unfold ColumnSpec.sqlType
  split
  · rename_i size sized
    have broken : Broken size.text.toList := by
      rw [sizeText_eq, String.toList_ofList]
      exact Broken.cons rfl
    rw [sized, String.toList_append]
    exact own.append (reads_size size) broken
  · rename_i missing
    rw [missing]
    exact own

end Lexis

end SqlScribe
