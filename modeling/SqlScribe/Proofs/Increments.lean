import SqlScribe.Document.Text
import SqlScribe.Proofs.Document.Record
import SqlScribe.Proofs.RowAcceptance
import SqlScribe.Proofs.RowCalls

/-!
# Increments stay within their bound

An increment reaches a statement from an object in a document that names the
operation, or from a call; nothing else is taken for one.  Wherever a statement
holds it, in a row to insert, in an UPDATE, or for a row that is there already,
its magnitude is within that of the configured bound.

Magnitudes are compared as exact integers.  Words of 64 bits give the same
result, the least one included, whose negation is not a signed word any more.
-/

namespace SqlScribe

open Checked Lexis

/-! ## Increments of documents -/

namespace Document

/-- An object that names the operation to increment, with a whole amount of 64 bits. -/
def SaysIncrement (value : Json) (delta : Int) : Prop :=
  ∃ members, value = .object members ∧
    Entries.get? members "__op" = some (.string "Increment") ∧
    Entries.get? members "amount" = some (.integer delta) ∧ -2 ^ 63 ≤ delta ∧ delta < 2 ^ 63

theorem incrementAmount?_eq_some {members : Entries Json} {delta : Int} :
    incrementAmount? members = some delta ↔
      members.get? "amount" = some (.integer delta) ∧ -2 ^ 63 ≤ delta ∧ delta < 2 ^ 63 := by
  unfold incrementAmount?
  split
  · rename_i amount found
    have range : JsonNumber.isSigned amount = true ↔ -2 ^ 63 ≤ amount ∧ amount < 2 ^ 63 := by
      rw [JsonNumber.isSigned, Bool.and_eq_true, decide_eq_true_eq, decide_eq_true_eq]
      rfl
    rw [Option.ite_none_right_eq_some, range, found]
    constructor
    · rintro ⟨within, ⟨⟩⟩
      exact ⟨rfl, within⟩
    · rintro ⟨⟨⟩, within⟩
      exact ⟨within, rfl⟩
  · rename_i other
    simp only [reduceCtorEq, false_iff, not_and]
    intro found
    exact absurd found (other delta)

/-- Just the objects that say so are taken for increments. -/
theorem writeValue_eq_increment {field : String} {value : Json} {delta : Int} :
    writeValue field value = .ok (.increment delta) ↔ SaysIncrement value delta := by
  cases value with
  | object members =>
      simp only [SaysIncrement, Json.object.injEq, exists_eq_left', ← incrementAmount?_eq_some]
      rw [writeValue]
      split
      · rename_i missing
        have unnamed : Entries.get? members "__op" = none := missing
        simp [unnamed]
      · rename_i increments
        have named : Entries.get? members "__op" = some (.string "Increment") := increments
        rw [named]
        cases incrementAmount? members <;> simp
      · rename_i operation other found
        have named : Entries.get? members "__op" = some operation := found
        have different : operation ≠ .string "Increment" := other
        simp [named, different]
  | _ => simp [writeValue, SaysIncrement]

theorem writtenValue_eq_increment {value : Json} {delta : Int} :
    writtenValue value = .ok (.increment delta) ↔ SaysIncrement value delta := by
  rw [writtenValue, mapError_eq_ok, writeValue_eq_increment]

def rowChangeNames : RecordNames where
  required := ["table"]
  others := ["id", "fields", "exclude"]

theorem rowChangeNames_shapes : rowChangeNames.Shapes rowChangeShape := ⟨rfl, rfl, by decide⟩

/-- A document of a row change says to increment a column. -/
def IncrementsColumn (document : Json) (column : String) (delta : Int) : Prop :=
  ∃ fields value, ("fields", .object fields) ∈ rowChangeNames.members document ∧
    (column, value) ∈ fields ∧ SaysIncrement value delta

end Document

namespace Entries

theorem mem_of_mem_put {α : Type} {name : String} {value : α} {entries : Entries α}
    {entry : String × α} (member : entry ∈ entries.put name value) :
    entry = (name, value) ∨ entry ∈ entries := by
  induction entries with
  | nil => exact .inl (List.mem_singleton.1 member)
  | cons first rest step =>
      rw [put] at member
      split at member
      · exact (List.mem_cons.1 member).imp_right (List.mem_cons_of_mem _)
      · rcases List.mem_cons.1 member with rfl | later
        · exact .inr List.mem_cons_self
        · exact (step later).imp_right (List.mem_cons_of_mem _)

end Entries

namespace RowChange

theorem mem_of_mem_writeAll {change : RowChange} {values : List (String × WriteValue)}
    {field : String × WriteValue} (member : field ∈ (change.writeAll values).fields) :
    field ∈ change.fields ∨ field ∈ values := by
  unfold writeAll at member
  induction values generalizing change with
  | nil => exact .inl member
  | cons entry rest step =>
      rcases step member with earlier | later
      · rcases Entries.mem_of_mem_put earlier with rfl | before
        · exact .inr List.mem_cons_self
        · exact .inl before
      · exact .inr (List.mem_cons_of_mem _ later)

end RowChange

namespace Document

/-- All increments of a request are said by its document. -/
def RowRequest.SaidBy (document : Json) (request : RowRequest) : Prop :=
  ∀ column delta, (column, .increment delta) ∈ request.change.fields →
    IncrementsColumn document column delta

/-- A member of a row change adds the increments that it says, and no others. -/
theorem saidBy_setRowMember {document : Json} {draft result : RowRequest}
    {name : String} {value : Json} (present : (name, value) ∈ rowChangeNames.members document)
    (set : setRowMember draft name value = .ok result) (before : draft.SaidBy document) :
    result.SaidBy document := by
  unfold setRowMember at set
  split at set
  · rcases map_eq_ok.1 set with ⟨_, -, rfl⟩
    exact before
  · rcases map_eq_ok.1 set with ⟨_, -, rfl⟩
    exact before
  · rcases map_eq_ok.1 set with ⟨values, read, rfl⟩
    rcases entries_eq_ok.1 read with ⟨fields, rfl, each⟩
    intro column delta member
    rcases RowChange.mem_of_mem_writeAll member with earlier | added
    · exact before column delta earlier
    · rcases exists_of_forall₂ each _ added with ⟨field, written, rfl, decoded⟩
      exact ⟨fields, field.2, present, written, writtenValue_eq_increment.1 decoded⟩
  · rcases map_eq_ok.1 set with ⟨_, -, rfl⟩
    exact before
  · cases set
    exact before

theorem saidBy_of_rowRequest {document : Json} {request : RowRequest}
    (read : rowRequest document = .ok request) : request.SaidBy document := by
  refine foldlM_induct (fun member present draft result set before => ?_)
    (rowChangeNames_shapes.record_members rfl read).2 fun column delta member => ?_
  · exact saidBy_setRowMember present set before
  · simp at member

example :
    rowRequest (.object
      [("table", .string "counters"),
        ("fields", .object
          [("hits", .object [("__op", .string "Increment"), ("amount", .integer (-3))]),
            ("note", .object [("amount", .integer 3)])])]) =
      .ok
        { change :=
          { table := "counters"
            fields := [("hits", .increment (-3)),
              ("note", .literal (.object [("amount", .integer 3)]))] } } := by
  cbv

/-- A text is read as the document that it holds, once its data is settled. -/
theorem exists_document_of_text {text : String} {request : RowRequest}
    (read : rowRequestOfText text = .ok request) :
    ∃ document, Json.read text = .ok document ∧
      rowRequest (settleRowChange document) = .ok request := by
  rw [rowRequestOfText, ofText] at read
  split at read
  · cases read
  · rename_i document parsed
    exact ⟨document, parsed, mapError_eq_ok.1 read⟩

end Document

/-! ## Increments of statements -/

namespace RowChange

variable {config : Config} {change : RowChange} {operation : RowOperation}
variable {excluded : List String} {column : String} {delta : Int}

/-- The change increments the column, within the bound. -/
def Increments (config : Config) (change : RowChange) (column : String) (delta : Int) : Prop :=
  (column, .increment delta) ∈ change.fields ∧ config.Admits delta

/-- An INSERT writes the identifier, a given value, or the amount of an increment. -/
inductive InsertedFrom (config : Config) (change : RowChange) (column : String) : Json → Prop
  | identifier {id : Json} (key : column = config.identifierKey) (given : change.id = some id) :
      InsertedFrom config change column id
  | literal {value : Json} (field : (column, .literal value) ∈ change.fields) :
      InsertedFrom config change column value
  | increment {delta : Int} (increments : change.Increments config column delta) :
      InsertedFrom config change column (.integer delta)

/-- Assignments increment columns as the change does. -/
def IncrementsAll (config : Config) (change : RowChange) (assignments : List Assignment) : Prop :=
  ∀ assignment ∈ assignments, ∀ delta, assignment.value = .increment delta →
    change.Increments config assignment.column delta

/-- All increments in a statement are those of the change, within the bound. -/
inductive BoundsIncrements (config : Config) (change : RowChange) : Statement → Prop
  | insert {statement : Insert}
      (inserted : List.Forall₂ (InsertedFrom config change) statement.columns statement.values)
      (overwritten : change.IncrementsAll config statement.onDuplicate) :
      BoundsIncrements config change (.insert statement)
  | update {statement : Update} (assigned : change.IncrementsAll config statement.assignments) :
      BoundsIncrements config change (.update statement)
  | delete (statement : Delete) : BoundsIncrements config change (.delete statement)

theorem increments_of_writable (writable : ∀ field ∈ change.fields, Writable config field)
    (member : (column, .increment delta) ∈ change.fields) :
    change.Increments config column delta :=
  ⟨member, (writable _ member).2⟩

theorem insertedFrom_insertedRow (writable : ∀ field ∈ change.fields, Writable config field) :
    List.Forall₂ (InsertedFrom config change) ((insertedRow config change).map Prod.fst)
      ((insertedRow config change).map Prod.snd) := by
  rw [List.forall₂_map_left_iff, List.forall₂_map_right_iff, List.forall₂_same]
  rintro ⟨column, value⟩ member
  rcases mem_insertedRow.1 member with ⟨key, -, given⟩ | ⟨written, field, rfl⟩
  · exact .identifier key given
  · cases written with
    | literal value => exact .literal field
    | increment delta => exact .increment (increments_of_writable writable field)

theorem incrementsAll_assigned (writable : ∀ field ∈ change.fields, Writable config field) :
    change.IncrementsAll config
      (change.fields.map fun field => ⟨field.1, field.2.assigned⟩) := by
  rintro assignment member delta increments
  rcases List.mem_map.1 member with ⟨⟨column, written⟩, field, rfl⟩
  cases written with
  | literal value => cases increments
  | increment amount =>
      cases increments
      exact increments_of_writable writable field

/--
The assignments for a row that is there check no increment themselves: those of
the row to insert were checked, excluded columns included.
-/
theorem incrementsAll_duplicateAssignments
    (writable : ∀ field ∈ change.fields, Writable config field) :
    change.IncrementsAll config (duplicateAssignments config excluded change.fields) := by
  rintro assignment member delta increments
  rcases mem_duplicateAssignments.1 member with ⟨column, written, field, -, -, rfl⟩
  cases written with
  | literal value => cases increments
  | increment amount =>
      cases increments
      exact increments_of_writable writable field

theorem boundsIncrements_of_statement {statement : Statement}
    (compiled : change.statement config operation excluded = .ok statement) :
    BoundsIncrements config change statement := by
  cases statement_eq_ok.1 compiled with
  | create insertable =>
      exact .insert (insertedFrom_insertedRow insertable.fields) fun _ none => nomatch none
  | update updatable given => exact .update (incrementsAll_assigned updatable.fields)
  | destroy selectable given => exact .delete _
  | upsert upsertable row =>
      refine .insert (insertedFrom_insertedRow upsertable.fields) ?_
      dsimp only
      split
      · intro assignment member delta increments
        cases List.mem_singleton.1 member
        cases increments
      · exact incrementsAll_duplicateAssignments upsertable.fields

/-- An increment beyond the bound leaves nothing but the removal of the row. -/
theorem not_accepted_of_increment (member : (column, .increment delta) ∈ change.fields)
    (beyond : ¬ config.Admits delta) (writes : operation ≠ .destroy) :
    ¬ change.Accepted config operation excluded := by
  have unwritable : ¬ ∀ field ∈ change.fields, Writable config field :=
    fun writable => beyond (writable _ member).2
  cases operation with
  | create => exact fun accepted => unwritable (create_accepted_iff.1 accepted).fields
  | update => exact fun accepted => unwritable (update_accepted_iff.1 accepted).fields
  | destroy => exact absurd rfl writes
  | upsert => exact fun accepted => unwritable (upsert_accepted_iff.1 accepted).fields

/-- An increment of a change that calls build is one of the calls' own. -/
theorem mem_writes_of_build {table : String} {calls : List RowCall} {field : String × WriteValue}
    (member : field ∈ (build table calls).fields) : ∃ call ∈ calls, field ∈ call.writes := by
  rcases (records_build.last field.1 field.2).1 member with ⟨before, after, writes, -⟩
  exact List.mem_flatMap.1 (writes ▸ List.mem_append_right _ List.mem_cons_self)

end RowChange

/-! ## Magnitudes of words -/

/-- The magnitude of a word of 64 bits, by a negation that wraps around. -/
def wordMagnitude (word : Int64) : UInt64 :=
  if word < 0 then (-word).toUInt64 else word.toUInt64

theorem toNat_wordMagnitude (word : Int64) : (wordMagnitude word).toNat = word.toInt.natAbs := by
  have range : word.toBitVec.toNat < 2 ^ 64 := word.toBitVec.isLt
  have signed : word.toInt = if 2 * word.toBitVec.toNat < 2 ^ 64 then (word.toBitVec.toNat : Int)
      else word.toBitVec.toNat - (2 ^ 64 : Nat) := BitVec.toInt_eq_toNat_cond _
  have negated : (-word).toUInt64.toNat = (2 ^ 64 - word.toBitVec.toNat) % 2 ^ 64 :=
    BitVec.toNat_neg word.toBitVec
  have unsigned : word.toUInt64.toNat = word.toBitVec.toNat := rfl
  have negative : word < 0 ↔ word.toInt < 0 := Int64.lt_iff_toInt_lt
  rw [wordMagnitude]
  by_cases below : word < 0
  · have sign := negative.1 below
    rw [if_pos below, negated]
    omega
  · have sign := mt negative.2 below
    rw [if_neg below, unsigned]
    omega

/-- The magnitude of the least word is no signed word, and still exact. -/
example : (wordMagnitude Int64.minValue).toNat = 2 ^ 63 := by decide

theorem admits_iff_words {config : Config} {bound delta : Int64}
    (same : config.maxIncrement = bound.toInt) :
    config.Admits delta.toInt ↔ wordMagnitude delta ≤ wordMagnitude bound := by
  rw [Config.Admits, same, UInt64.le_iff_toNat_le, toNat_wordMagnitude, toNat_wordMagnitude]

/--
A document says every increment of its request, and a text does so by the
document that it holds; every increment of a built change is written by one of
its calls.  A statement has the increments of its change, within the bound; no
change with one beyond the bound is written.  Words of 64 bits decide this.
-/
theorem increments_within_bound (config : Config) :
    (∀ document request, Document.rowRequest document = .ok request →
        request.SaidBy document) ∧
      (∀ text request, Document.rowRequestOfText text = .ok request →
        ∃ document, Json.read text = .ok document ∧
          request.SaidBy (Document.settleRowChange document)) ∧
      (∀ table calls column delta,
        (column, .increment delta) ∈ (RowChange.build table calls).fields →
        ∃ call ∈ calls, (column, .increment delta) ∈ call.writes) ∧
      (∀ field value delta, Document.writeValue field value = .ok (.increment delta) ↔
        Document.SaysIncrement value delta) ∧
      (∀ change operation excluded sql,
        (RowChange.toSql config change operation excluded).1 = .ok sql →
        ∃ statement, change.statement config operation excluded = .ok statement ∧
          lex sql = .ok statement.tokens ∧ change.BoundsIncrements config statement) ∧
      (∀ change : RowChange, ∀ column delta, (column, .increment delta) ∈ change.fields →
        ¬ config.Admits delta → ∀ operation ≠ .destroy, ∀ excluded,
          ¬ change.Accepted config operation excluded) ∧
      ∀ bound delta : Int64, config.maxIncrement = bound.toInt →
        (config.Admits delta.toInt ↔ wordMagnitude delta ≤ wordMagnitude bound) := by
  refine ⟨fun _ _ => Document.saidBy_of_rowRequest, ?_,
    fun _ _ _ _ => RowChange.mem_writes_of_build, fun _ _ _ => Document.writeValue_eq_increment, ?_,
    fun _ _ _ member beyond _ writes _ => RowChange.not_accepted_of_increment member beyond writes,
    fun _ _ => admits_iff_words⟩
  · intro text request read
    rcases Document.exists_document_of_text read with ⟨document, parsed, taken⟩
    exact ⟨document, parsed, Document.saidBy_of_rowRequest taken⟩
  · intro change operation excluded sql written
    rcases RowChange.tokens_of_toSql written with ⟨statement, compiled, -, tokens⟩
    exact ⟨statement, compiled, tokens, RowChange.boundsIncrements_of_statement compiled⟩

end SqlScribe
