import SqlScribe.Proofs.ByteOffsets
import SqlScribe.Proofs.Identifier
import SqlScribe.Proofs.SessionRuns

/-!
# What events show of a statement

A text in UTF-8 can be cut at an offset where a byte begins a character, and at
its ends: `isBoundary`.  From a limit inside a character `backOff` goes back
byte by byte, at most to the beginning of the text, and so ends at the last
boundary within the limit.

`slicedSql?` shortens a statement in this way and fails where it would cut a
character in two.  `slicedSql?_eq` says that it never does, and that it finds
the text that the events show.
-/

namespace SqlScribe

/-! ## Boundaries -/

namespace Text

variable {text : String} {offset limit : Nat}

/-- Whether a byte offset is an end of a text, or that of a byte that begins a character. -/
def isBoundary (text : String) (offset : Nat) : Bool :=
  if offset = 0 then true
  else if inside : offset < text.toByteArray.size then
    decide text.toByteArray[offset].IsUTF8FirstByte
  else decide (offset = text.toByteArray.size)

/-- The boundaries of a text are the lengths of its beginnings. -/
theorem isBoundary_iff :
    isBoundary text offset ↔ ∃ front back, text = front ++ back ∧ front.utf8ByteSize = offset := by
  have valid : isBoundary text offset ↔ (⟨offset⟩ : String.Pos.Raw).IsValid text := by
    unfold isBoundary
    split
    · rename_i start
      subst start
      exact iff_of_true rfl String.Pos.Raw.isValid_zero
    · rw [String.Pos.Raw.isValid_iff_isUTF8FirstByte]
      split
      · rename_i inside
        have before : (⟨offset⟩ : String.Pos.Raw) < text.rawEndPos := inside
        have notEnd : (⟨offset⟩ : String.Pos.Raw) ≠ text.rawEndPos :=
          fun same => Nat.ne_of_lt inside (congrArg String.Pos.Raw.byteIdx same)
        rw [decide_eq_true_iff, or_iff_right notEnd, exists_prop_of_true before]
        rfl
      · rename_i outside
        have notBefore : ¬ (⟨offset⟩ : String.Pos.Raw) < text.rawEndPos := outside
        rw [decide_eq_true_iff, String.Pos.Raw.ext_iff]
        simp [notBefore]
  rw [valid, String.Pos.Raw.isValid_iff_exists_append]
  simp only [String.Pos.Raw.ext_iff, String.byteIdx_rawEndPos, eq_comm (a := offset)]

/-- The offset at which a search for a boundary ends that goes back byte by byte. -/
def backOff (text : String) : Nat → Nat
  | 0 => 0
  | offset + 1 => if isBoundary text (offset + 1) then offset + 1 else backOff text offset

theorem isBoundary_backOff (text : String) (limit : Nat) :
    isBoundary text (backOff text limit) := by
  induction limit with
  | zero => rfl
  | succ limit step =>
      rw [backOff]
      split
      · assumption
      · exact step

theorem backOff_le (text : String) (limit : Nat) : backOff text limit ≤ limit := by
  induction limit with
  | zero => exact Nat.le_refl 0
  | succ limit step =>
      rw [backOff]
      split
      · exact Nat.le_refl _
      · exact Nat.le_succ_of_le step

/-- No boundary within the limit is passed over. -/
theorem le_backOff (boundary : isBoundary text offset) (within : offset ≤ limit) :
    offset ≤ backOff text limit := by
  induction limit with
  | zero => exact within
  | succ limit step =>
      rw [backOff]
      split
      · exact within
      · rename_i inside
        have different : offset ≠ limit + 1 := by
          rintro rfl
          exact inside boundary
        exact step (by omega)

/-- This beginning of a text ends between two characters, and is the longest within the limit. -/
structure IsLongestFront (limit : Nat) (text front : String) : Prop where
  begins : ∃ back, text = front ++ back
  boundary : isBoundary text front.utf8ByteSize
  within : front.utf8ByteSize ≤ limit
  longest : ∀ offset ≤ limit, isBoundary text offset → offset ≤ front.utf8ByteSize

theorem isLongestFront_fit (limit : Nat) (text : String) :
    IsLongestFront limit text (String.ofList (fit limit text.toList)) := by
  obtain ⟨rest, parts⟩ := fit_isPrefix limit text.toList
  have begins : text = String.ofList (fit limit text.toList) ++ String.ofList rest := by
    rw [← String.ofList_append, parts, String.ofList_toList]
  have size : (String.ofList (fit limit text.toList)).utf8ByteSize =
      byteLength (fit limit text.toList) := by
    rw [← byteLength_toList, String.toList_ofList]
  refine ⟨⟨_, begins⟩, isBoundary_iff.2 ⟨_, _, begins, rfl⟩, ?_, ?_⟩
  · rw [size]
    exact byteLength_fit_le limit text.toList
  · intro offset within boundary
    rcases isBoundary_iff.1 boundary with ⟨front, back, joined, rfl⟩
    have shorter : front.toList <+: text.toList := ⟨back.toList, by rw [joined, String.toList_append]⟩
    rw [← byteLength_toList] at within ⊢
    obtain ⟨more, longer⟩ := fit_maximal limit text.toList front.toList shorter within
    rw [size, ← longer, byteLength_append]
    exact Nat.le_add_right _ _

/-- The search ends behind the longest beginning within the limit. -/
theorem IsLongestFront.backOff_eq {front : String} (fits : IsLongestFront limit text front) :
    backOff text limit = front.utf8ByteSize :=
  Nat.le_antisymm (fits.longest _ (backOff_le text limit) (isBoundary_backOff text limit))
    (le_backOff fits.boundary fits.within)

/-- The beginning of a text up to an offset, which has to be between two characters. -/
def front? (text : String) (offset : Nat) : Option String :=
  (cut? offset text.toList).map fun parts => String.ofList parts.1

/-- A text, cut at the last boundary within a limit if it is longer. -/
def truncated? (limit : Nat) (text : String) : Option String :=
  if text.utf8ByteSize ≤ limit then some text else front? text (backOff text limit)

theorem front?_append (front back : String) :
    front? (front ++ back) front.utf8ByteSize = some front := by
  rw [front?, ← byteLength_toList, String.toList_append, cut?_append, Option.map_some,
    String.ofList_toList]

theorem IsLongestFront.front?_backOff {front : String} (fits : IsLongestFront limit text front) :
    front? text (backOff text limit) = some front := by
  obtain ⟨back, rfl⟩ := fits.begins
  rw [fits.backOff_eq, front?_append]

end Text

/-! ## Statements -/

namespace Event

open Text

/-- The text of a statement for an event, if no cut fails. -/
def slicedSql? (limit : Option Nat) (sql : String) : Option String :=
  match limit with
  | none => some sql
  | some limit =>
      if limit < sql.utf8ByteSize then (truncated? limit sql).map (· ++ "...") else some sql

variable {limit : Nat} {sql : String}

theorem shownSql_of_fits (fits : sql.utf8ByteSize ≤ limit) : shownSql (some limit) sql = sql := by
  rw [← byteLength_toList] at fits
  exact if_pos fits

theorem shownSql_of_exceeds (exceeds : limit < sql.utf8ByteSize) :
    shownSql (some limit) sql = String.ofList (fit limit sql.toList) ++ "..." := by
  rw [← byteLength_toList] at exceeds
  have shortened : shownSql (some limit) sql =
      String.ofList (fit limit sql.toList ++ ['.', '.', '.']) := if_neg (Nat.not_le.2 exceeds)
  rw [shortened, String.ofList_append]

theorem slicedSql?_eq (limit : Option Nat) (sql : String) :
    slicedSql? limit sql = some (shownSql limit sql) := by
  cases limit with
  | none => rfl
  | some limit =>
      rw [slicedSql?]
      split
      · rename_i exceeds
        rw [truncated?, if_neg (Nat.not_le.2 exceeds),
          (isLongestFront_fit limit sql).front?_backOff, shownSql_of_exceeds exceeds]
        rfl
      · rename_i fits
        rw [shownSql_of_fits (Nat.not_lt.1 fits)]

end Event

/-! ## Sessions -/

/-- The events of a statement show it at its beginning, and show no other text of it later. -/
theorem Session.events_execute (shownBytes : Option Nat) (sql : String) (before : Rehearsal) :
    ∃ last, ((Session.execute Rehearsal.answer shownBytes sql).run before).1.2 =
        [.executing (StatementKind.ofSql sql) (Event.shownSql shownBytes sql), last] ∧
      ∀ text, ("sql", text) ∈ last.fields → text = Event.shownSql shownBytes sql := by
  unfold Session.execute
  simp only [StateT.run_bind, Call.run_answer]
  cases Call.nextAnswer before.answers with
  | ok outcome =>
      refine ⟨_, rfl, fun text member => ?_⟩
      cases outcome.rows <;> simp [Event.fields] at member
  | error cause =>
      refine ⟨_, rfl, fun text member => ?_⟩
      simpa [Event.fields] using member

/--
The search for the end of what is shown comes to an end and cuts no character
in two, whatever the limit.  The events of a statement show all of it if there
is no limit, or if it has no more bytes than that; otherwise they show the
longest beginning within the limit that ends between two characters, and three
dots.
-/
theorem shown_statements_fit (limit : Option Nat) (sql : String) :
    Event.slicedSql? limit sql = some (Event.shownSql limit sql) ∧
      (∀ before, ∃ last, ((Session.execute Rehearsal.answer limit sql).run before).1.2 =
          [.executing (StatementKind.ofSql sql) (Event.shownSql limit sql), last] ∧
        ∀ text, ("sql", text) ∈ last.fields → text = Event.shownSql limit sql) ∧
      ((∀ bytes ∈ limit, sql.utf8ByteSize ≤ bytes) → Event.shownSql limit sql = sql) ∧
      ∀ bytes ∈ limit, bytes < sql.utf8ByteSize →
        ∃ front, Text.IsLongestFront bytes sql front ∧
          Event.shownSql limit sql = front ++ "..." := by
  refine ⟨Event.slicedSql?_eq limit sql, Session.events_execute limit sql, ?_, ?_⟩
  · intro fits
    cases limit with
    | none => rfl
    | some bytes => exact Event.shownSql_of_fits (fits bytes rfl)
  · rintro bytes rfl exceeds
    exact ⟨_, Text.isLongestFront_fit bytes sql, Event.shownSql_of_exceeds exceeds⟩

/-- A limit inside the two bytes of the last character, and one that leaves nothing. -/
theorem shown_statements_fit_accent :
    (∃ front, Text.IsLongestFront 8 "SELECT \u00e9" front ∧
        Event.shownSql (some 8) "SELECT \u00e9" = front ++ "...") ∧
      Event.shownSql (some 8) "SELECT \u00e9" = "SELECT ..." ∧
      Event.slicedSql? (some 0) "\u00e9" = some "..." := by
  refine ⟨(shown_statements_fit (some 8) "SELECT \u00e9").2.2.2 8 rfl (by decide), rfl, ?_⟩
  exact (shown_statements_fit (some 0) "\u00e9").1

end SqlScribe
