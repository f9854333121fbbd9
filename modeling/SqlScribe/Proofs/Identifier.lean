import SqlScribe.Proofs.Checked
import SqlScribe.Query.Names

/-!
# Accepted names

`IsIdentifier` is what the checks of names establish, and `HasNameForm` is the
same said character by character: `isIdentifier_iff`.  The lemmas read every
check backwards: from its success to the form of the name, and to the fact that
the name comes back unchanged.
-/

namespace SqlScribe

/-- The name passes the check of a segment. -/
def IsIdentifier (name : String) : Prop := segmentFault? name.toList = none

theorem checkSegment_eq_ok {whole : String} {segment : List Char} {name : String} :
    checkSegment whole segment = .ok name ↔
      IsIdentifier name ∧ name.toList = segment := by
  unfold checkSegment IsIdentifier
  constructor
  · intro accepted
    split at accepted
    · cases accepted
    · rename_i faultless
      cases accepted
      simpa using faultless
  · rintro ⟨faultless, rfl⟩
    simp [faultless]

theorem checkName_eq_ok {name accepted : String} :
    checkName name = .ok accepted ↔ IsIdentifier name ∧ accepted = name := by
  rw [checkName, checkSegment_eq_ok, String.toList_inj]
  constructor
  · rintro ⟨identifier, rfl⟩
    exact ⟨identifier, rfl⟩
  · rintro ⟨identifier, rfl⟩
    exact ⟨identifier, rfl⟩

theorem segmentFault?_cons_eq_none {first : Char} {rest : List Char} :
    segmentFault? (first :: rest) = none ↔
      Text.byteLength (first :: rest) ≤ longestIdentifier ∧ isIdentifierStart first ∧
        ∀ c ∈ rest, isIdentifierPart c := by
  rw [segmentFault?]
  generalize Text.byteLength (first :: rest) = length
  by_cases long : longestIdentifier < length
  · simp [long, Nat.not_le.2 long]
  · cases started : isIdentifierStart first <;> simp [long, Nat.not_lt.1 long]

theorem isIdentifier_iff_characters {name : String} :
    IsIdentifier name ↔
      ∃ first rest, name.toList = first :: rest ∧ isIdentifierStart first ∧
        (∀ c ∈ rest, isIdentifierPart c) ∧ Text.byteLength name.toList ≤ longestIdentifier := by
  unfold IsIdentifier
  cases name.toList with
  | nil => simp [segmentFault?]
  | cons first rest =>
      rw [segmentFault?_cons_eq_none]
      constructor
      · rintro ⟨short, start, parts⟩
        exact ⟨first, rest, rfl, start, parts, short⟩
      · rintro ⟨_, _, ⟨⟩, start, parts, short⟩
        exact ⟨short, start, parts⟩

/--
The name begins with a letter or an underscore and goes on with letters, digits,
underscores and dollar signs.
-/
def SpelledAsName (name : String) : Prop :=
  ∃ first rest, name.toList = first :: rest ∧
    (first = '_' ∨ 'A' ≤ first ∧ first ≤ 'Z' ∨ 'a' ≤ first ∧ first ≤ 'z') ∧
    ∀ c ∈ rest, c = '_' ∨ c = '$' ∨ 'A' ≤ c ∧ c ≤ 'Z' ∨ 'a' ≤ c ∧ c ≤ 'z' ∨ '0' ≤ c ∧ c ≤ '9'

/-- The name is spelled as one and has at most 64 bytes. -/
structure HasNameForm (name : String) : Prop where
  spelled : SpelledAsName name
  short : name.utf8ByteSize ≤ 64

theorem byteLength_toList (text : String) : Text.byteLength text.toList = text.utf8ByteSize := by
  have spelled (characters : List Char) :
      Text.byteLength characters = (String.ofList characters).utf8ByteSize := by
    induction characters with
    | nil => rfl
    | cons c rest step => simp [step]
  rw [spelled, String.ofList_toList]

theorem isAlpha_iff {c : Char} : c.isAlpha ↔ 'A' ≤ c ∧ c ≤ 'Z' ∨ 'a' ≤ c ∧ c ≤ 'z' := by
  have letter : c.isAlpha =
      (decide ('A' ≤ c ∧ c ≤ 'Z') || (decide ('a' ≤ c) && decide (c ≤ 'z'))) := rfl
  simp only [letter, Bool.or_eq_true, Bool.and_eq_true, decide_eq_true_eq]

theorem isIdentifierStart_iff {c : Char} :
    isIdentifierStart c ↔ c = '_' ∨ 'A' ≤ c ∧ c ≤ 'Z' ∨ 'a' ≤ c ∧ c ≤ 'z' := by
  simp only [isIdentifierStart, Bool.or_eq_true, beq_iff_eq, isAlpha_iff]

theorem isIdentifierPart_iff {c : Char} :
    isIdentifierPart c ↔ c = '_' ∨ c = '$' ∨ 'A' ≤ c ∧ c ≤ 'Z' ∨ 'a' ≤ c ∧ c ≤ 'z' ∨
      '0' ≤ c ∧ c ≤ '9' := by
  have digit : c.isDigit = (decide ('0' ≤ c) && decide (c ≤ '9')) := rfl
  simp only [isIdentifierPart, Char.isAlphanum, digit, Bool.or_eq_true, Bool.and_eq_true,
    decide_eq_true_eq, beq_iff_eq, isAlpha_iff, or_assoc]

/-- A character of a name takes one byte. -/
theorem utf8Size_of_isIdentifierPart {c : Char} (part : isIdentifierPart c) : c.utf8Size = 1 := by
  rw [Char.utf8Size_eq_one_iff]
  rcases isIdentifierPart_iff.1 part with rfl | rfl | ⟨-, last⟩ | ⟨-, last⟩ | ⟨-, last⟩
  · decide
  · decide
  · exact UInt32.le_trans last (by decide)
  · exact UInt32.le_trans last (by decide)
  · exact UInt32.le_trans last (by decide)

theorem byteLength_of_parts {text : List Char} (parts : ∀ c ∈ text, isIdentifierPart c) :
    Text.byteLength text = text.length := by
  induction text with
  | nil => rfl
  | cons c rest step =>
      rw [List.forall_mem_cons] at parts
      rw [Text.byteLength_cons, step parts.2, utf8Size_of_isIdentifierPart parts.1,
        List.length_cons, Nat.add_comm]

/-- A character of a name is a letter, a digit, an underscore or a dollar sign. -/
theorem SpelledAsName.part {name : String} (spelled : SpelledAsName name)
    {c : Char} (member : c ∈ name.toList) : isIdentifierPart c := by
  rcases spelled with ⟨first, rest, written, start, parts⟩
  rw [isIdentifierPart_iff]
  rw [written, List.mem_cons] at member
  rcases member with rfl | later
  · rcases start with underscore | upper | lower
    · exact .inl underscore
    · exact .inr (.inr (.inl upper))
    · exact .inr (.inr (.inr (.inl lower)))
  · exact parts c later

/-- The check of a name accepts exactly the names of this form. -/
theorem isIdentifier_iff {name : String} : IsIdentifier name ↔ HasNameForm name := by
  simp only [isIdentifier_iff_characters, byteLength_toList, isIdentifierStart_iff,
    isIdentifierPart_iff]
  constructor
  · rintro ⟨first, rest, spelled, start, parts, short⟩
    exact ⟨⟨first, rest, spelled, start, parts⟩, short⟩
  · rintro ⟨⟨first, rest, spelled, start, parts⟩, short⟩
    exact ⟨first, rest, spelled, start, parts, short⟩

theorem checkName_eq_ok_iff {name accepted : String} :
    checkName name = .ok accepted ↔ HasNameForm name ∧ accepted = name := by
  rw [checkName_eq_ok, isIdentifier_iff]

theorem fault_of_checkName {name : String} {cause : SqlError}
    (refused : checkName name = .error cause) : ∃ fault, cause = .invalidIdentifier name fault := by
  unfold checkName checkSegment at refused
  split at refused
  · cases refused
    exact ⟨_, rfl⟩
  · cases refused

/-- A character of an accepted name is a letter, a digit, an underscore or a dollar sign. -/
theorem IsIdentifier.part {name : String} (identifier : IsIdentifier name)
    {c : Char} (member : c ∈ name.toList) : isIdentifierPart c :=
  (isIdentifier_iff.1 identifier).spelled.part member

theorem IsIdentifier.no_dot {name : String} (identifier : IsIdentifier name) :
    '.' ∉ name.toList := by
  intro member
  exact absurd (identifier.part member) (by decide)

open Checked

/-- What was read of a path: accepted names, which joined by a dot are the path again. -/
theorem ColumnPath.parse_eq_ok {text : String} {path : ColumnPath}
    (read : ColumnPath.parse text = .ok path) :
    IsIdentifier path.name ∧ (∀ qualifier ∈ path.qualifier, IsIdentifier qualifier) ∧
      match path.qualifier with
      | none => text = path.name
      | some qualifier => text = qualifier ++ "." ++ path.name := by
  have joined := Text.joined_splitAt '.' text.toList
  unfold ColumnPath.parse at read
  split at read
  · rename_i name pieces
    simp only [bind_eq_ok, pure_eq_ok, checkSegment_eq_ok] at read
    rcases read with ⟨accepted, ⟨identifier, rfl⟩, rfl⟩
    rw [pieces] at joined
    exact ⟨identifier, by simp, (String.toList_inj.1 joined).symm⟩
  · rename_i qualifier name pieces
    simp only [bind_eq_ok, pure_eq_ok, checkSegment_eq_ok] at read
    rcases read with ⟨acceptedQualifier, ⟨qualified, rfl⟩, accepted, ⟨identifier, rfl⟩, rfl⟩
    rw [pieces] at joined
    refine ⟨identifier, by simpa using qualified, String.toList_inj.1 ?_⟩
    simpa [Text.joinWith] using joined.symm
  · cases read

/-- A path has a qualifier exactly if it holds a dot. -/
theorem ColumnPath.qualifier_eq_none_iff {text : String} {path : ColumnPath}
    (read : ColumnPath.parse text = .ok path) :
    path.qualifier = none ↔ '.' ∉ text.toList := by
  rcases ColumnPath.parse_eq_ok read with ⟨identifier, -, written⟩
  rcases path with ⟨_ | qualifier, name⟩
  · obtain rfl : text = name := written
    simpa using identifier.no_dot
  · obtain rfl : text = qualifier ++ "." ++ name := written
    simp

namespace Names

/-- A bare path belongs to the owner; a qualified one names something that is in scope. -/
theorem resolveIn_eq_ok {names : Names} {owner path : String} {column : ColumnRef} :
    names.resolveIn owner path = .ok column ↔
      ∃ parsed, ColumnPath.parse path = .ok parsed ∧
        (∀ qualifier ∈ parsed.qualifier, qualifier ∈ names.all) ∧
        column = ⟨some (parsed.qualifier.getD owner), parsed.name⟩ := by
  simp only [resolveIn, bind_eq_ok]
  refine exists_congr fun parsed => and_congr_right fun _ => ?_
  rcases parsed with ⟨_ | qualifier, name⟩
  · simp
  · by_cases known : qualifier ∈ names.all
    · simp [knows, known]
    · simp [knows, known]

end Names

end SqlScribe
