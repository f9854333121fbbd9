import Mathlib
import SqlScribe.CommandLine.Settings
import SqlScribe.Proofs.Compile.Success
import SqlScribe.Proofs.Lexis.Literal

/-!
# Keys that name several columns

A key of a substring constraint is cut at every delimiter before its columns
are read, so a key that was joined from paths gives these paths back only if
the delimiter occurs in none of them.

Checking the settings does not keep delimiters from occurring in paths: it
accepts every delimiter.  Keys are safe for all paths exactly with a delimiter
that is neither the dot nor a character of names.
-/

namespace SqlScribe

open Checked Compile

/-! ## Columns of a key -/

/-- The key that paths are joined to. -/
def joinedKey (delimiter : Char) (paths : List String) : String :=
  String.ofList (Text.joinWith [delimiter] (paths.map String.toList))

/-- What a pattern is matched with: one column itself, or several put together. -/
def searchedIn : List ColumnRef → Expr
  | [column] => .column column
  | columns => .concat columns

theorem searchedIn_of_length_ne {columns : List ColumnRef} (several : columns.length ≠ 1) :
    searchedIn columns = .concat columns := by
  unfold searchedIn
  split
  · exact absurd rfl several
  · rfl

theorem searchedIn_injective {first second : List ColumnRef}
    (same : searchedIn first = searchedIn second) : first = second := by
  unfold searchedIn at same
  split at same <;> split at same <;> cases same <;> rfl

variable {config : Config} {names : Names} {owner field : String} {paths : List String}

/-- The path is that of a column, as the names in scope resolve it. -/
def Names.Resolves (names : Names) (owner : String) (path : String) (column : ColumnRef) : Prop :=
  names.resolveIn owner path = .ok column

/-- A substring is looked for in the columns whose paths are the pieces of the key. -/
theorem patternSubject_anywhere_eq_ok {subject : Expr} :
    patternSubject config names owner field .anywhere = .ok subject ↔
      ∃ columns,
        List.Forall₂ (names.Resolves owner)
          ((Text.splitAt config.hasDelimiter field.toList).map String.ofList) columns ∧
        subject = searchedIn columns := by
  simp only [patternSubject, true_and]
  by_cases several : config.hasDelimiter ∈ field.toList
  · rw [if_pos several]
    simp only [map_eq_ok, mapM_eq_ok, List.forall₂_map_left_iff]
    refine exists_congr fun columns => and_congr_right fun resolved => ?_
    have count : columns.length ≠ 1 := by
      rw [← resolved.length_eq]
      exact fun single => Text.length_splitAt_eq_one_iff.1 single several
    rw [searchedIn_of_length_ne count]
  · rw [if_neg several, Text.splitAt_of_not_mem several]
    simp only [map_eq_ok, List.map_singleton, String.ofList_toList, List.forall₂_cons_left_iff,
      List.forall₂_nil_left_iff]
    constructor
    · rintro ⟨column, resolved, rfl⟩
      exact ⟨[column], ⟨column, [], resolved, rfl, rfl⟩, rfl⟩
    · rintro ⟨_, ⟨column, _, resolved, rfl, rfl⟩, rfl⟩
      exact ⟨column, resolved, rfl⟩

theorem yields_substring {depth : Nat} {text : String} {before after : CompileState} {expr : Expr} :
    Yields (constraintExpr config depth names owner field (.matching .anywhere text))
        before expr after ↔
      ∃ subject, patternSubject config names owner field .anywhere = .ok subject ∧
        expr = .like subject ("%" ++ text ++ "%") ∧ after = before := by
  simp only [constraintExpr, yields_bind, yields_lift, yields_pure, Affix.pattern]
  constructor
  · rintro ⟨subject, _, ⟨resolved, rfl⟩, rfl, rfl⟩
    exact ⟨subject, resolved, rfl, rfl⟩
  · rintro ⟨subject, resolved, rfl, rfl⟩
    exact ⟨subject, _, ⟨resolved, rfl⟩, rfl, rfl⟩

/--
A substring constraint on the key that paths are joined to becomes a pattern on
the columns of these paths, in order.
-/
def SearchesPaths (config : Config) (names : Names) (owner : String) (paths : List String) : Prop :=
  ∃ columns, List.Forall₂ (names.Resolves owner) paths columns ∧
    ∀ depth text before,
      Yields
        (constraintExpr config depth names owner (joinedKey config.hasDelimiter paths)
          (.matching .anywhere text))
        before (.like (searchedIn columns) ("%" ++ text ++ "%")) before

/-- The key that paths in scope are joined to gives them back if no path holds the delimiter. -/
theorem searchesPaths_iff (nonempty : paths ≠ [])
    (inScope : ∀ path ∈ paths, PathInScope names.all path) :
    SearchesPaths config names owner paths ↔
      ∀ path ∈ paths, config.hasDelimiter ∉ path.toList := by
  have some : paths.map String.toList ≠ [] := by simpa using nonempty
  have pieces : Text.splitAt config.hasDelimiter (joinedKey config.hasDelimiter paths).toList =
      (paths.map String.toList).flatMap (Text.splitAt config.hasDelimiter) := by
    rw [joinedKey, String.toList_ofList, Text.splitAt_joinWith some]
  constructor
  · rintro ⟨columns, resolved, compiled⟩
    rcases yields_substring.1 (compiled 0 "" default) with ⟨subject, read, same, -⟩
    rcases patternSubject_anywhere_eq_ok.1 read with ⟨others, each, rfl⟩
    rw [Expr.like.injEq] at same
    obtain rfl := searchedIn_injective same.1
    have counts := each.length_eq.trans resolved.length_eq.symm
    rw [pieces, List.length_map, ← List.length_map String.toList, Text.length_pieces_eq_iff,
      List.forall_mem_map] at counts
    exact counts
  · intro free
    have each : ∀ path ∈ paths, ∃ column, names.resolveIn owner path = .ok column :=
      fun path member => Names.exists_resolveIn_iff.2 (inScope path member)
    rcases exists_mapM_iff.2 each with ⟨columns, read⟩
    have resolved := mapM_eq_ok.1 read
    refine ⟨columns, resolved, fun depth text before => yields_substring.2 ⟨_, ?_, rfl, rfl⟩⟩
    refine patternSubject_anywhere_eq_ok.2 ⟨columns, ?_, rfl⟩
    have back : Text.splitAt config.hasDelimiter (joinedKey config.hasDelimiter paths).toList =
        paths.map String.toList := by
      rw [joinedKey, String.toList_ofList]
      exact Text.splitAt_joinWith_of_free some (List.forall_mem_map.2 free)
    have same : (paths.map String.toList).map String.ofList = paths := by simp
    rw [back, same]
    exact resolved

/-! ## Delimiters -/

/-- A path that can be read consists of characters of names and of dots. -/
theorem isPart_of_mem_path {path : String} {parsed : ColumnPath} {c : Char}
    (read : ColumnPath.parse path = .ok parsed) (member : c ∈ path.toList) :
    c = '.' ∨ isIdentifierPart c := by
  rcases ColumnPath.parse_eq_ok read with ⟨named, qualified, written⟩
  rcases parsed with ⟨_ | qualifier, name⟩
  · obtain rfl : path = name := written
    exact .inr (named.part member)
  · obtain rfl : path = qualifier ++ "." ++ name := written
    have places : c ∈ qualifier.toList ∨ c = '.' ∨ c ∈ name.toList := by simpa using member
    rcases places with front | dot | back
    · exact .inr ((qualified qualifier rfl).part front)
    · exact .inl dot
    · exact .inr (named.part back)

/-- Every character of names stands in some name, and the dot in a qualified one. -/
theorem exists_path_with {mark : Char} (unsafeMark : mark = '.' ∨ isIdentifierPart mark) :
    ∃ path, PathInScope ["t"] path ∧ mark ∈ path.toList := by
  rcases unsafeMark with rfl | part
  · refine ⟨"t.a", ⟨⟨some "t", "a"⟩, by rfl, by simp⟩, by decide⟩
  · have undotted : '.' ∉ ['_', mark] := by
      rw [List.mem_cons, List.mem_singleton]
      rintro (clash | rfl)
      · exact absurd clash (by decide)
      · exact absurd part (by decide)
    have short : Text.byteLength ['_', mark] ≤ longestIdentifier := by
      have size := Char.utf8Size_le_four mark
      have first : Char.utf8Size '_' = 1 := by decide
      simp only [Text.byteLength_cons, Text.byteLength_nil, longestIdentifier]
      omega
    have accepted : IsIdentifier (String.ofList ['_', mark]) :=
      isIdentifier_iff_characters.2 ⟨'_', [mark], String.toList_ofList, by decide,
        by simpa using part, by rwa [String.toList_ofList]⟩
    refine ⟨String.ofList ['_', mark], ⟨⟨none, String.ofList ['_', mark]⟩, ?_, by simp⟩, by simp⟩
    have checked : checkSegment (String.ofList ['_', mark]) ['_', mark] =
        .ok (String.ofList ['_', mark]) :=
      checkSegment_eq_ok.2 ⟨accepted, String.toList_ofList⟩
    rw [ColumnPath.parse, String.toList_ofList, Text.splitAt_of_not_mem undotted]
    exact bind_eq_ok.2 ⟨_, checked, rfl⟩

/-- Whatever paths in scope a key is joined from, it is a search in their columns. -/
def Config.SplitsKeys (config : Config) : Prop :=
  ∀ names owner paths, paths ≠ [] → (∀ path ∈ paths, PathInScope names.all path) →
    SearchesPaths config names owner paths

theorem Config.splitsKeys_iff :
    config.SplitsKeys ↔ config.hasDelimiter ≠ '.' ∧ ¬ isIdentifierPart config.hasDelimiter := by
  constructor
  · intro splits
    rw [← not_or]
    intro clash
    rcases exists_path_with clash with ⟨path, inScope, member⟩
    have single : ∀ other ∈ [path], PathInScope (⟨"t", [], []⟩ : Names).all other := by
      simpa [Names.all] using inScope
    have searched := splits ⟨"t", [], []⟩ "t" [path] (List.cons_ne_nil _ _) single
    exact (searchesPaths_iff (List.cons_ne_nil _ _) single).1 searched path List.mem_cons_self
      member
  · rintro ⟨noDot, noPart⟩ names owner paths nonempty inScope
    refine (searchesPaths_iff nonempty inScope).2 fun path member inside => ?_
    rcases inScope path member with ⟨parsed, read, -⟩
    exact (isPart_of_mem_path read inside).elim noDot noPart

/-- The check of the settings accepts every delimiter. -/
theorem CommandLine.checkSettings_delimiter
    (accepted : checkSettings config = .ok config) (delimiter : Char) :
    checkSettings { config with hasDelimiter := delimiter } =
      .ok { config with hasDelimiter := delimiter } := by
  unfold checkSettings at accepted ⊢
  cases named : checkName config.identifierKey with
  | error fault =>
      rw [named] at accepted
      cases accepted
  | ok name =>
      by_cases positive : 0 < config.maxIncrement
      · simp [positive]
      · simp [named, positive] at accepted

/--
With settings that were checked, a key gives back the paths that it was joined
from exactly if the delimiter stands in none of them.  It always does with a
delimiter that paths cannot hold, but the check does not ask for one.
-/
theorem delimited_keys_split_iff
    {config : Config} (accepted : CommandLine.checkSettings config = .ok config) :
    (∀ names owner paths, paths ≠ [] → (∀ path ∈ paths, PathInScope names.all path) →
      (SearchesPaths config names owner paths ↔
        ∀ path ∈ paths, config.hasDelimiter ∉ path.toList)) ∧
      (config.SplitsKeys ↔ config.hasDelimiter ≠ '.' ∧ ¬ isIdentifierPart config.hasDelimiter) ∧
      ∀ delimiter, CommandLine.checkSettings { config with hasDelimiter := delimiter } =
        .ok { config with hasDelimiter := delimiter } :=
  ⟨fun _ _ _ nonempty inScope => searchesPaths_iff nonempty inScope, Config.splitsKeys_iff,
    CommandLine.checkSettings_delimiter accepted⟩

theorem delimited_keys_split_iff_ownedPets :
    CommandLine.checkSettings { hasDelimiter := '+' } = .ok { hasDelimiter := '+' } ∧
      SearchesPaths { hasDelimiter := '+' } ⟨"pets", ["owner"], []⟩ "pets"
        ["first_name", "owner.last_name"] := by
  have accepted : CommandLine.checkSettings { hasDelimiter := '+' } =
      .ok { hasDelimiter := '+' } := by
    cbv
  have safe : ('+' : Char) ≠ '.' ∧ ¬ isIdentifierPart '+' := by decide
  have bare : ColumnPath.parse "first_name" = .ok ⟨none, "first_name"⟩ := by cbv
  have qualified : ColumnPath.parse "owner.last_name" = .ok ⟨some "owner", "last_name"⟩ := by cbv
  refine ⟨accepted, (delimited_keys_split_iff accepted).2.1.2 safe _ _ _ (by simp) ?_⟩
  simp only [List.forall_mem_cons]
  exact ⟨⟨_, bare, by simp⟩, ⟨_, qualified, by simp [Names.all]⟩, by simp⟩

/-- A query for pets in whose first name there is a letter. -/
def petsByFirstName : Query where
  table := "pets"
  conditions := ⟨[⟨"first_name", [.matching .anywhere "a"]⟩]⟩

/-- A column whose name holds the delimiter is taken for two others, and neither is asked for. -/
theorem delimited_keys_misread_firstName :
    CommandLine.settingsOfText "[compiler]\nhas_delimiter = \"_\"\n" =
        .ok { hasDelimiter := '_' } ∧
      PathInScope (⟨"pets", [], []⟩ : Names).all "first_name" ∧
      ¬ SearchesPaths { hasDelimiter := '_' } ⟨"pets", [], []⟩ "pets" ["first_name"] ∧
      (petsByFirstName.toSql { hasDelimiter := '_' } .find).1 =
        .ok "SELECT * FROM `pets` WHERE CONCAT(`pets`.`first`, `pets`.`name`) LIKE '%a%'" := by
  have bare : ColumnPath.parse "first_name" = .ok ⟨none, "first_name"⟩ := by cbv
  have inScope : PathInScope (⟨"pets", [], []⟩ : Names).all "first_name" := ⟨_, bare, by simp⟩
  refine ⟨rfl, inScope, fun searched => ?_, by cbv⟩
  have free := (searchesPaths_iff (by simp) (by simpa using inScope)).1 searched
  exact absurd (free "first_name" List.mem_cons_self) (by decide)

end SqlScribe
