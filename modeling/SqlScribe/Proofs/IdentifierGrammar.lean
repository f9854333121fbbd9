import SqlScribe.Proofs.Identifier
import SqlScribe.Proofs.Pieces

/-!
# The grammar of identifiers

A path is a name, or a qualifier and a name with a dot between them.  The limit
on a name is checked in bytes, but only characters of one byte pass the check,
so it is a limit on characters: `hasNameForm_iff`.

No name holds a dot, so a path that was put together from names is cut into
these names again: `ColumnPath.parse_eq_ok_iff` says of every text what is read.
-/

namespace SqlScribe

open Checked

/-! ## Lengths -/

/-- The name is spelled as one and has at most 64 characters. -/
structure IsPathPart (name : String) : Prop where
  spelled : SpelledAsName name
  short : name.length ≤ 64

theorem hasNameForm_iff {name : String} : HasNameForm name ↔ IsPathPart name := by
  have size (spelled : SpelledAsName name) : name.utf8ByteSize = name.length := by
    rw [← byteLength_toList, ← String.length_toList]
    exact byteLength_of_parts fun _ => spelled.part
  constructor
  · rintro ⟨spelled, short⟩
    exact ⟨spelled, size spelled ▸ short⟩
  · rintro ⟨spelled, short⟩
    exact ⟨spelled, (size spelled).symm ▸ short⟩

theorem isIdentifier_iff_isPathPart {name : String} : IsIdentifier name ↔ IsPathPart name :=
  isIdentifier_iff.trans hasNameForm_iff

/-! ## Paths -/

/-- The text of a path: the name, behind the qualifier and a dot if there is one. -/
def ColumnPath.text : ColumnPath → String
  | ⟨none, name⟩ => name
  | ⟨some qualifier, name⟩ => qualifier ++ "." ++ name

/-- A path is read from its text, if its parts are names, and from no other text. -/
theorem ColumnPath.parse_eq_ok_iff {text : String} {path : ColumnPath} :
    ColumnPath.parse text = .ok path ↔
      (IsIdentifier path.name ∧ ∀ qualifier ∈ path.qualifier, IsIdentifier qualifier) ∧
        path.text = text := by
  constructor
  · intro read
    rcases ColumnPath.parse_eq_ok read with ⟨named, qualified, written⟩
    refine ⟨⟨named, qualified⟩, ?_⟩
    rcases path with ⟨_ | qualifier, name⟩
    · exact written.symm
    · exact written.symm
  · rintro ⟨⟨named, qualified⟩, rfl⟩
    rcases path with ⟨_ | qualifier, name⟩
    · have checked : checkSegment name name.toList = .ok name := checkSegment_eq_ok.2 ⟨named, rfl⟩
      rw [ColumnPath.text, ColumnPath.parse, Text.splitAt_of_not_mem named.no_dot]
      exact bind_eq_ok.2 ⟨name, checked, rfl⟩
    · have front := qualified qualifier rfl
      have pieces : Text.splitAt '.' (qualifier ++ "." ++ name).toList =
          [qualifier.toList, name.toList] := by
        rw [String.toList_append, String.toList_append, List.append_assoc]
        exact (Text.splitAt_append front.no_dot _).trans
          (congrArg _ (Text.splitAt_of_not_mem named.no_dot))
      rw [ColumnPath.text, ColumnPath.parse, pieces]
      exact bind_eq_ok.2 ⟨qualifier, checkSegment_eq_ok.2 ⟨front, rfl⟩,
        bind_eq_ok.2 ⟨name, checkSegment_eq_ok.2 ⟨named, rfl⟩, rfl⟩⟩

/-- A path is read from every name, and from two names with a dot between them. -/
theorem ColumnPath.exists_parse_iff {text : String} :
    (∃ path, ColumnPath.parse text = .ok path) ↔
      IsIdentifier text ∨
        ∃ qualifier name, IsIdentifier qualifier ∧ IsIdentifier name ∧
          text = qualifier ++ "." ++ name := by
  simp only [ColumnPath.parse_eq_ok_iff]
  constructor
  · rintro ⟨⟨_ | qualifier, name⟩, ⟨named, qualified⟩, rfl⟩
    · exact .inl named
    · exact .inr ⟨qualifier, name, qualified qualifier rfl, named, rfl⟩
  · rintro (named | ⟨qualifier, name, qualified, named, rfl⟩)
    · exact ⟨⟨none, text⟩, ⟨named, by simp⟩, rfl⟩
    · exact ⟨⟨some qualifier, name⟩, ⟨named, by simpa using qualified⟩, rfl⟩

theorem ColumnPath.simple_eq_ok_iff {text : String} {path : ColumnPath} :
    ColumnPath.simple text = .ok path ↔ IsIdentifier text ∧ path = ⟨none, text⟩ := by
  simp only [ColumnPath.simple, bind_eq_ok, pure_eq_ok, checkName_eq_ok]
  constructor
  · rintro ⟨_, ⟨named, rfl⟩, rfl⟩
    exact ⟨named, rfl⟩
  · rintro ⟨named, rfl⟩
    exact ⟨text, ⟨named, rfl⟩, rfl⟩

/--
A path is read from a text exactly if this is a name, or two names with a dot
between them, and the text is that of the path.  A text is accepted as a name
without qualifier exactly if it is one, and comes back unchanged.
-/
theorem identifiers_read_by_grammar :
    (∀ text, (∃ path, ColumnPath.parse text = .ok path) ↔
        IsPathPart text ∨
          ∃ qualifier name, IsPathPart qualifier ∧ IsPathPart name ∧
            text = qualifier ++ "." ++ name) ∧
      (∀ text path, ColumnPath.parse text = .ok path ↔
        (IsPathPart path.name ∧ ∀ qualifier ∈ path.qualifier, IsPathPart qualifier) ∧
          path.text = text) ∧
      (∀ text path, ColumnPath.simple text = .ok path ↔ IsPathPart text ∧ path = ⟨none, text⟩) ∧
      ∀ text name, checkName text = .ok name ↔ IsPathPart text ∧ name = text := by
  simp only [← isIdentifier_iff_isPathPart]
  exact ⟨fun _ => ColumnPath.exists_parse_iff, fun _ _ => ColumnPath.parse_eq_ok_iff,
    fun _ _ => ColumnPath.simple_eq_ok_iff, fun _ _ => checkName_eq_ok⟩

end SqlScribe
