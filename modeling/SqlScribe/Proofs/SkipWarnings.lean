import Mathlib
import SqlScribe.Document.Query
import SqlScribe.Proofs.Injection
import SqlScribe.Proofs.EmbeddedSelects

/-!
# Warnings about pages without a limit

A SELECT that passes over rows but has no limit gets a LIMIT clause that returns
no rows, and its query reports so while it is compiled.  `Warns` says of two
states of the compiler which reports came between them.  A whole compilation
reports the SELECTs with such a clause, at every depth, one by one.

An operation may change the LIMIT clause after that, and then the report of the
outermost SELECT is wrong.  `skip_warnings_spec` says what is reported beyond
the clauses in the text: nothing in a search, and that one report otherwise.
-/

namespace SqlScribe

open Compile
open Checked
open Lexis

/-! ## Due warnings -/

/-- The event warns that a SELECT returns no rows because of its LIMIT clause. -/
def Event.isSkipWarning (event : Event) : Bool :=
  event.level == .warn &&
    event.message == "skip without limit renders LIMIT skip, 0 and matches no rows"

/-- The warning about a SELECT that passes over rows without a limit. -/
def Select.skipWarning? (select : Select) : Option Event :=
  match select.limit with
  | ⟨some skip, none⟩ => some (.skipWithoutLimit select.source.name skip)
  | _ => none

/-- The warning about the SELECT that a query becomes. -/
def Query.skipWarning? (query : Query) : Option Event :=
  match query.skip, query.limit with
  | some skip, none => some (.skipWithoutLimit query.table skip)
  | _, _ => none

/-- The warnings about some SELECTs. -/
def skipWarnings (selects : List Select) : List Event := selects.filterMap Select.skipWarning?

/-- The SELECTs inside a condition. -/
def Expr.selects (around : List Select) (expr : Expr) : List Select :=
  (expr.embeddedSelects around).map EmbeddedSelect.select

/-- The SELECTs inside the joins and the condition of a SELECT. -/
def Select.inner (around : List Select) (select : Select) : List Select :=
  (select.joins.flatMap fun join => join.condition.selects around) ++
    select.condition.elim [] (Expr.selects around)

theorem Select.map_embeddedSelects (around : List Select) (select : Select) :
    (select.embeddedSelects around).map EmbeddedSelect.select =
      select.inner (select :: around) := by
  rw [embeddedSelects_eq, inner, List.map_append, List.map_flatMap]
  cases select.condition <;> rfl

theorem Select.all_eq (select : Select) : select.all = select :: select.inner [select] := by
  rw [all, map_embeddedSelects]

theorem Expr.selects_inSelect (around : List Select) (column : ColumnRef) (select : Select)
    (negated : Bool) :
    (Expr.inSelect (.column column) select negated).selects around =
      select :: select.inner (select :: around) := by
  rw [← Select.map_embeddedSelects]
  rfl

/-- A warning tells the table and the skip of its SELECT, whose clause leaves no rows. -/
theorem Select.skipWarning?_eq_some {select : Select} {event : Event} :
    select.skipWarning? = some event ↔
      ∃ skip, select.limit = ⟨some skip, none⟩ ∧
        event = .skipWithoutLimit select.source.name skip := by
  rcases select with ⟨projection, source, joins, condition, order, _ | skip, _ | count⟩ <;>
    simp [skipWarning?, eq_comm]

theorem skipWarnings_cons (select : Select) (rest : List Select) :
    skipWarnings (select :: rest) = select.skipWarning?.toList ++ skipWarnings rest := by
  rw [skipWarnings, List.filterMap_cons]
  cases select.skipWarning? <;> rfl

theorem isSkipWarning_of_mem {selects : List Select} {event : Event}
    (member : event ∈ skipWarnings selects) : event.isSkipWarning = true := by
  rcases List.mem_filterMap.1 member with ⟨select, -, due⟩
  rcases Select.skipWarning?_eq_some.1 due with ⟨skip, -, rfl⟩
  simp [Event.isSkipWarning, Event.level, Event.message]

/-- A warning carries the skip and the table of its SELECT. -/
theorem fields_of_mem_skipWarnings {selects : List Select} {event : Event}
    (member : event ∈ skipWarnings selects) :
    ∃ select ∈ selects, ∃ skip, select.limit = ⟨some skip, none⟩ ∧
      event.fields = [("skip", toString skip), ("table", select.source.name)] := by
  rcases List.mem_filterMap.1 member with ⟨select, listed, due⟩
  rcases Select.skipWarning?_eq_some.1 due with ⟨skip, limited, rfl⟩
  exact ⟨select, listed, skip, limited, rfl⟩

/-! ## Warnings that a compilation reports -/

/-- Between the states these SELECTs were warned about, in some order, and nothing was reported else. -/
def CompileState.Warns (before : CompileState) (selects : List Select) (after : CompileState) : Prop :=
  ∃ reported, after.events = before.events ++ reported ∧ reported.Perm (skipWarnings selects)

namespace CompileState.Warns

variable {before middle after : CompileState} {first second : List Select}

theorem nothing (silent : after.events = before.events) : before.Warns [] after :=
  ⟨[], by rw [silent, List.append_nil], .nil⟩

theorem append (own : before.Warns first middle) (other : middle.Warns second after) :
    before.Warns (first ++ second) after := by
  rcases own with ⟨early, reached, due⟩
  rcases other with ⟨late, ended, dueLater⟩
  refine ⟨early ++ late, by rw [ended, reached, List.append_assoc], ?_⟩
  rw [skipWarnings, List.filterMap_append]
  exact due.append dueLater

/-- The order of the SELECTs does not matter. -/
theorem perm (warned : before.Warns first after) (same : first.Perm second) :
    before.Warns second after := by
  rcases warned with ⟨reported, reached, due⟩
  exact ⟨reported, reached, due.trans (same.filterMap _)⟩

theorem addsUp : CompileState.AddsUp CompileState.Warns where
  nothing _ := nothing rfl
  append := append

end CompileState.Warns

variable {config : Config} {depth : Nat} {names : Names} {owner : String}
variable {before after : CompileState} {around : List Select}

/-- Wherever the constraint is compiled, it warns about the SELECTs in its condition. -/
def Constraint.WarnsOwn (config : Config) (constraint : Constraint) : Prop :=
  ∀ {depth : Nat} {names : Names} {owner field : String} {before : CompileState} {expr : Expr}
    {after : CompileState} {around : List Select},
    Yields (constraintExpr config depth names owner field constraint) before expr after →
    before.Warns (expr.selects around) after

/-- The SELECTs inside a condition are those inside its parts. -/
theorem Expr.selects_gathered (around : List Select) : Expr.Gathered (Expr.selects around) where
  truth := rfl
  column _ := rfl
  concat _ := rfl
  literal _ := rfl
  compare _ _ _ := by simp only [selects, embeddedSelects, List.map_append]
  like _ _ := rfl
  nullCheck _ _ := rfl
  inList _ _ _ := rfl
  and _ := by
    simp only [selects, embeddedSelects, Expr.allEmbeddedSelects_eq, List.map_flatMap]
    rfl
  group _ := rfl

theorem QueryFrame.warns_of_source {frame : QueryFrame} {source : TableRef}
    (yields : Yields (frame.source config depth) before source after) : before.Warns [] after := by
  have given := (yields_source.1 yields).2.2.2
  split at given
  · exact .nothing (given.2 ▸ rfl)
  · exact .nothing (given.2 ▸ rfl)

theorem QueryFrame.name_of_source {frame : QueryFrame} {source : TableRef}
    (yields : Yields (frame.source config depth) before source after) :
    source.name = frame.table := by
  have given := (yields_source.1 yields).2.2.2
  split at given
  · exact given.1 ▸ rfl
  · exact given.1 ▸ rfl

/-- A query reports its own SELECT last. -/
theorem Query.warns_of_reported {query : Query} {select : Select} {state : CompileState}
    (own : select.skipWarning? = query.skipWarning?) :
    state.Warns [select] (query.reported state) := by
  refine ⟨skipWarnings [select], ?_, .refl _⟩
  rw [skipWarnings_cons, own]
  rcases query with ⟨_, _, _, _, _, _ | skip, _ | limit, _⟩ <;>
    simp [Query.reported, Query.skipWarning?, skipWarnings]

theorem Query.skipWarning?_of_yields {query : Query} {enclosing : List String} {select : Select}
    (yields : Yields (query.compileAt config depth enclosing) before select after) :
    select.skipWarning? = query.skipWarning? := by
  rcases yields_compileAt.1 yields with ⟨_, _, _, _, sourced, -, -, -, -, -, limited, -⟩
  have named : select.source.name = query.table := QueryFrame.name_of_source sourced
  rw [Select.skipWarning?, Query.skipWarning?, limited, named]
  cases query.skip <;> cases query.limit <;> rfl

theorem Query.warns_of_yields {query : Query} {enclosing : List String} {select : Select}
    (each : ∀ constraint ∈ query.constraints, constraint.WarnsOwn config)
    (yields : Yields (query.compileAt config depth enclosing) before select after) :
    before.Warns (select :: select.inner around) after := by
  have own := Query.skipWarning?_of_yields yields
  rcases CompileState.Warns.addsUp.of_query (Expr.selects_gathered around)
      (fun constraint member => each constraint member) yields with
    ⟨named, filtered, sourced, inside, rfl⟩
  have all := (QueryFrame.warns_of_source sourced).append
    (inside.append (query.warns_of_reported own))
  exact all.perm (List.perm_append_singleton _ _)

/-- A constraint warns about the SELECTs in its condition. -/
theorem Constraint.warnsOwn (constraint : Constraint) : constraint.WarnsOwn config := by
  induction constraint using Constraint.query_induction config with
  | plain constraint plain =>
      intro depth names owner field before expr after around yields
      rcases (yields_of_plain plain).1 yields with ⟨subject, read, rfl, rfl⟩
      rw [predicate_gathered (Expr.selects_gathered around) plain read]
      exact .nothing rfl
  | inQuery negated subquery inside =>
      intro depth names owner field before expr after around yields
      rcases yields_inQuery.1 yields with ⟨column, select, -, compiled, rfl⟩
      rw [Expr.selects_inSelect]
      exact Query.warns_of_yields inside compiled

/-- A query warns about the SELECTs of its statement, its own one among them. -/
theorem Query.warnings_of_statement {query : Query} {select : Select} (around : List Select)
    (compiled : (query.statement config).1 = .ok select) :
    select.skipWarning? = query.skipWarning? ∧
      (query.statement config).2.Perm (skipWarnings (select :: select.inner around)) := by
  rcases Query.statement_eq_ok.1 compiled with ⟨after, yields⟩
  refine ⟨Query.skipWarning?_of_yields yields, ?_⟩
  have warned : CompileState.Warns ⟨.empty, []⟩ (select :: select.inner around) after :=
    Query.warns_of_yields (fun constraint _ => constraint.warnsOwn) yields
  rcases warned with ⟨reported, reached, due⟩
  have events : (query.statement config).2 = after.events :=
    congrArg (fun result => result.2.events) yields
  rw [events, reached]
  exact due

/-! ## SELECTs in the text -/

/-- Every SELECT inside the condition is written in it. -/
def Expr.Shows (expr : Expr) : Prop :=
  ∀ around, ∀ inner ∈ expr.selects around, inner.tokens <:+: expr.tokens

theorem Expr.shows_of_none {expr : Expr} (none : ∀ around, expr.selects around = []) : expr.Shows := by
  intro around inner member
  rw [none around] at member
  cases member

theorem Expr.furtherTokens_within {parts : List Expr} :
    ∀ part ∈ parts, part.tokens <:+: Expr.furtherTokens parts := by
  induction parts with
  | nil => exact List.forall_mem_nil _
  | cons first rest step =>
      refine List.forall_mem_cons.2 ⟨⟨[.word "AND"], Expr.furtherTokens rest, rfl⟩, ?_⟩
      exact fun part member => (step part member).trans (List.suffix_append _ _).isInfix

theorem Expr.shows_inherited : Expr.Inherited Expr.Shows where
  truth := shows_of_none fun _ => rfl
  and := by
    intro parts each around inner member
    rw [(Expr.selects_gathered around).and] at member
    rcases List.mem_flatMap.1 member with ⟨part, present, inside⟩
    refine (each part present around inner inside).trans ?_
    cases parts with
    | nil => cases present
    | cons first rest =>
        rw [Expr.tokens]
        rcases List.mem_cons.1 present with rfl | later
        · exact (List.prefix_append _ _).isInfix
        · exact (Expr.furtherTokens_within part later).trans (List.suffix_append _ _).isInfix
  group := by
    intro inside shows around inner member
    exact (shows around inner member).trans ⟨[.symbol "("], [.symbol ")"], rfl⟩

theorem Join.clauseTokens_within {joins : List Join} :
    ∀ join ∈ joins, join.condition.tokens <:+: Join.clauseTokens joins := by
  induction joins with
  | nil => exact List.forall_mem_nil _
  | cons first rest step =>
      rcases first with ⟨table, condition⟩
      refine List.forall_mem_cons.2 ⟨?_, fun join member => ?_⟩
      · rw [Join.clauseTokens, Join.tokens]
        exact ⟨.word "LEFT" :: .word "OUTER" :: .word "JOIN" :: table.tokens ++ [.word "ON"],
          Join.clauseTokens rest, by simp⟩
      · exact (step join member).trans (List.suffix_append _ _).isInfix

/-- Every SELECT inside the clauses of the SELECT is written in them. -/
def Select.Shows (select : Select) : Prop :=
  (∀ join ∈ select.joins, join.condition.Shows) ∧ ∀ condition ∈ select.condition, condition.Shows

theorem Join.clauseTokens_within_select (select : Select) :
    Join.clauseTokens select.joins <:+: select.tokens := by
  rcases select with ⟨projection, source, joins, _ | condition, order, limit⟩
  · rw [Select.tokens]
    refine ⟨.word "SELECT" :: projection.tokens ++ .word "FROM" :: source.tokens,
      OrderKey.clauseTokens order ++ limit.tokens, ?_⟩
    simp only [List.append_assoc, List.cons_append, List.nil_append]
  · rw [Select.tokens]
    refine ⟨.word "SELECT" :: projection.tokens ++ .word "FROM" :: source.tokens,
      .word "WHERE" :: condition.tokens ++ (OrderKey.clauseTokens order ++ limit.tokens), ?_⟩
    simp only [List.append_assoc, List.cons_append]

theorem Select.condition_within {select : Select} :
    ∀ condition ∈ select.condition, condition.tokens <:+: select.tokens := by
  rintro condition given
  rcases select with ⟨projection, source, joins, _ | _, order, limit⟩
  · cases given
  · cases given
    rw [Select.tokens]
    refine ⟨.word "SELECT" :: projection.tokens ++ .word "FROM" :: source.tokens ++
      Join.clauseTokens joins ++ [.word "WHERE"], OrderKey.clauseTokens order ++ limit.tokens, ?_⟩
    simp only [List.append_assoc, List.cons_append, List.nil_append]

/-- The clause of a SELECT about the part of its rows comes last. -/
theorem Select.limit_suffix (select : Select) : select.limit.tokens <:+ select.tokens := by
  rcases select with ⟨projection, source, joins, _ | condition, order, limit⟩ <;>
    exact List.suffix_append _ _

/-- A SELECT and all that it has inside are written in its text. -/
theorem Select.Shows.within {select : Select} (shows : select.Shows) (around : List Select) :
    ∀ inner ∈ select :: select.inner around, inner.tokens <:+: select.tokens := by
  refine List.forall_mem_cons.2 ⟨List.infix_refl _, fun inner member => ?_⟩
  rcases List.mem_append.1 member with joined | filtered
  · rcases List.mem_flatMap.1 joined with ⟨join, present, inside⟩
    exact (shows.1 join present around inner inside).trans <|
      (Join.clauseTokens_within join present).trans (Join.clauseTokens_within_select select)
  · cases given : select.condition with
    | none =>
        rw [given] at filtered
        cases filtered
    | some condition =>
        rw [given] at filtered
        exact (shows.2 condition given around inner filtered).trans
          (Select.condition_within condition given)

theorem Expr.shows_cases (config : Config) :
    CompileCases config (fun _ _ _ _ _ expr => expr.Shows) fun _ _ _ select => select.Shows where
  compare _ := shows_of_none fun _ => rfl
  matching resolved := by
    rcases patternSubject_eq_ok resolved with ⟨column, -, rfl⟩ | ⟨-, columns, -, rfl⟩
    · exact shows_of_none fun _ => rfl
    · exact shows_of_none fun _ => rfl
  present _ := shows_of_none fun _ => rfl
  inList := by
    intro _ _ _ _ _ values _ _
    cases values with
    | nil => exact shows_of_none fun _ => rfl
    | cons first rest => exact shows_of_none fun _ => rfl
  inQuery := by
    intro _ _ _ _ negated _ column _ select _ _ shows around inner member
    rw [Expr.selects_inSelect] at member
    refine (shows.within _ inner member).trans ?_
    exact ⟨ColumnRef.tokens column ++ membershipTokens negated, [.symbol ")"], by simp [Expr.tokens]⟩
  query := by
    intro _ _ _ _ compiled
    refine ⟨fun join present => ?_, ?_⟩
    · rcases exists_of_forall₂ compiled.joins join present with ⟨_, -, joined⟩
      rcases joined.condition with ⟨via, path, -, -, -, -, -, same⟩ | ⟨groups, -, -, -, same, parts⟩
      · rw [same]
        exact shows_of_none fun _ => rfl
      · rw [same]
        refine Expr.shows_inherited.onCondition fun group written part inside => ?_
        rcases parts.mem group written part inside with ⟨_, -, _, -, shows⟩
        exact shows
    · rcases compiled.condition with ⟨groups, same, parts⟩
      rw [same]
      refine Expr.shows_inherited.whereClause fun group written part inside => ?_
      rcases parts.mem group written part inside with ⟨_, -, _, -, shows⟩
      exact shows

/-! ## Statements -/

/-- An operation changes no clause that can hold a query. -/
theorem Select.Shows.adapted {select : Select} (shows : select.Shows) (operation : ReadOperation) :
    (Query.adapted select operation).Shows := by
  cases operation <;> exact shows

theorem Query.inner_adapted (around : List Select) (select : Select) (operation : ReadOperation) :
    (Query.adapted select operation).inner around = select.inner around := by
  cases operation <;> rfl

/-- Only a search keeps the part of the rows that a query asked for. -/
theorem Query.skipWarning?_adapted (select : Select) (operation : ReadOperation) :
    (Query.adapted select operation).skipWarning? =
      if operation = .find then select.skipWarning? else none := by
  rcases select with ⟨projection, source, joins, condition, order, _ | skip, _ | count⟩ <;>
    cases operation <;> rfl

/-- The warning that a query gives rise to although its text does not call for it. -/
def Query.needlessWarnings (query : Query) (operation : ReadOperation) : List Event :=
  if operation = .find then [] else query.skipWarning?.toList

theorem Query.needlessWarnings_eq_nil {query : Query} {operation : ReadOperation} :
    query.needlessWarnings operation = [] ↔ operation = .find ∨ query.skipWarning? = none := by
  by_cases search : operation = .find
  · simp [needlessWarnings, search]
  · simp [needlessWarnings, search]

/-- The warnings of a query are those of its text and the needless ones. -/
theorem Query.skipWarnings_adapted {query : Query} {select : Select}
    (own : select.skipWarning? = query.skipWarning?) (operation : ReadOperation) :
    (skipWarnings (select :: select.inner [Query.adapted select operation])).Perm
      (skipWarnings (Query.adapted select operation).all ++ query.needlessWarnings operation) := by
  rw [Select.all_eq, skipWarnings_cons, skipWarnings_cons, Query.inner_adapted,
    Query.skipWarning?_adapted, needlessWarnings, own]
  by_cases search : operation = .find
  · rw [if_pos search, if_pos search, List.append_nil]
  · rw [if_neg search, if_neg search]
    exact List.perm_append_comm

/-- How the warnings of a request compare with its text, that of this SELECT. -/
structure Query.WarnedFor (query : Query) (operation : ReadOperation) (shown : Select)
    (sql : String) (events : List Event) : Prop where
  tokens : lex sql = .ok shown.tokens
  /-- Every SELECT stands in the text, and its LIMIT clause comes last in it. -/
  written : ∀ inner ∈ shown.all, inner.tokens <:+: shown.tokens ∧ inner.limit.tokens <:+ inner.tokens
  reported : (events.filter Event.isSkipWarning).Perm
    (skipWarnings shown.all ++ query.needlessWarnings operation)
  /-- A warning about a SELECT in the text carries its skip and its table. -/
  carried : ∀ event ∈ skipWarnings shown.all, ∃ inner ∈ shown.all, ∃ skip,
    inner.limit = ⟨some skip, none⟩ ∧
      event.fields = [("skip", toString skip), ("table", inner.source.name)]
  /-- The SELECTs that are warned about are those of the text, unless the LIMIT was changed. -/
  truthful : (events.filter Event.isSkipWarning).Perm (skipWarnings shown.all) ↔
    operation = .find ∨ query.skipWarning? = none

theorem Query.toSql_eq_compiled {query : Query} {operation : ReadOperation} {sql : String}
    {events : List Event} (written : query.toSql config operation = (.ok sql, events)) :
    events = (query.statement config).2 ++ [.compiled (.read operation) query.table sql] := by
  simp only [Query.toSql] at written
  split at written
  · rename_i text found
    cases found.symm.trans (congrArg Prod.fst written)
    exact (congrArg Prod.snd written).symm
  · rename_i cause found
    cases found.symm.trans (congrArg Prod.fst written)

/--
A request that gets a text is warned about each SELECT in the text whose LIMIT
clause skips rows and then returns none, and beyond that only about the clause
that the operation took away from the outermost SELECT.
-/
theorem skip_warnings_spec {query : Query} {operation : ReadOperation} {sql : String}
    {events : List Event} (written : query.toSql config operation = (.ok sql, events)) :
    ∃ select, (query.statement config).1 = .ok select ∧
      query.WarnedFor operation (Query.adapted select operation) sql events := by
  have request : (Request.read query operation).toSql config = .ok sql :=
    congrArg Prod.fst written
  rcases Request.tokens_of_toSql request with ⟨statement, stated, -, tokens⟩
  rcases map_eq_ok.1 stated with ⟨select, compiled, rfl⟩
  have shows := ((Expr.shows_cases config).statement compiled).adapted operation
  rcases Query.warnings_of_statement [Query.adapted select operation] compiled with ⟨own, due⟩
  have warnings : events.filter Event.isSkipWarning = (query.statement config).2 := by
    rw [Query.toSql_eq_compiled written, List.filter_append,
      List.filter_eq_self.2 fun event member => isSkipWarning_of_mem (due.subset member)]
    exact List.append_nil _
  have reported := due.trans (Query.skipWarnings_adapted own operation)
  refine ⟨select, compiled, tokens, fun inner member => ?_, warnings ▸ reported,
    fun event member => fields_of_mem_skipWarnings member, ?_⟩
  · rw [Select.all_eq] at member
    exact ⟨shows.within _ inner member, inner.limit_suffix⟩
  · rw [warnings, ← Query.needlessWarnings_eq_nil]
    constructor
    · intro same
      have lengths := (reported.symm.trans same).length_eq
      rw [List.length_append] at lengths
      exact List.eq_nil_of_length_eq_zero (by omega)
    · intro none
      rwa [none, List.append_nil] at reported

/-- The first page of the rows that are in another page; neither page has a length. -/
def pageInPage : Query :=
  { table := "t"
    conditions :=
      ⟨[⟨"x", [.inQuery false ⟨"u", "id", .empty, [], some 2, none⟩]⟩]⟩
    skip := some 5 }

def pageInPageText : String :=
  "SELECT * FROM \x60t\x60 WHERE \x60t\x60.\x60x\x60 IN (SELECT \x60sq1_0\x60.\x60id\x60 " ++
    "FROM \x60u\x60 AS \x60sq1_0\x60 LIMIT 2, 0) LIMIT 5, 1"

def pageInPageSelect : Select :=
  ⟨.all, ⟨"t", none⟩, [],
    some (.inSelect (.column ⟨some "t", "x"⟩)
      ⟨.columns [⟨⟨some "sq1_0", "id"⟩, none⟩], ⟨"u", some "sq1_0"⟩, [], none, [],
        ⟨some 2, none⟩⟩
      false),
    [], ⟨some 5, none⟩⟩

/-- The text has one such clause, and two are warned about. -/
theorem skip_warnings_spec_pageInPage :
    ∃ events, pageInPage.toSql {} .first = (.ok pageInPageText, events) ∧
      events.filter Event.isSkipWarning = [.skipWithoutLimit "u" 2, .skipWithoutLimit "t" 5] ∧
      skipWarnings (Query.adapted pageInPageSelect .first).all = [.skipWithoutLimit "u" 2] ∧
      pageInPage.WarnedFor .first (Query.adapted pageInPageSelect .first) pageInPageText events := by
  have written : pageInPage.toSql {} .first =
      (.ok pageInPageText, [.skipWithoutLimit "u" 2, .skipWithoutLimit "t" 5,
        .compiled (.read .first) "t" pageInPageText]) := by cbv
  have known : (pageInPage.statement {}).1 = .ok pageInPageSelect := by cbv
  rcases skip_warnings_spec written with ⟨select, compiled, warned⟩
  cases known.symm.trans compiled
  exact ⟨_, written, rfl, rfl, warned⟩

/-- A count of rows with a skip, which a count pays no regard to. -/
def skippedCount : Json := .object [("table", .string "t"), ("skip", .integer 3)]

def skippedCountText : String := "SELECT COUNT(*) AS \x60count\x60 FROM \x60t\x60"

/-- A count is warned about a clause that its text does not have. -/
theorem skip_warnings_needless_skippedCount :
    ∃ query select, Document.query skippedCount = .ok query ∧
      (query.statement {}).1 = .ok select ∧
      query.toSql {} .count =
        (.ok skippedCountText,
          [.skipWithoutLimit "t" 3, .compiled (.read .count) "t" skippedCountText]) ∧
      lex skippedCountText = .ok (Query.adapted select .count).tokens ∧
      skipWarnings (Query.adapted select .count).all = [] := by
  refine ⟨{ table := "t", skip := some 3 }, ⟨.all, ⟨"t", none⟩, [], none, [], ⟨some 3, none⟩⟩, ?_⟩
  exact ⟨by cbv, by cbv, by cbv, by cbv, rfl⟩

end SqlScribe
