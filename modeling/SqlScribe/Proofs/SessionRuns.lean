import Mathlib
import SqlScribe.Proofs.ValidNames
import SqlScribe.Session

/-!
# Runs of a session

A program asks a session for one thing after another.  The database is rehearsed:
it notes every statement that reaches it, and answers from a queue, with an empty
outcome once the queue is used up.

`Call.run_rehearsed` says what comes of a run of any length.  The statements of those
calls that have one reach the database in order and unchanged, each takes one
answer, and each call gives what its own statement and its own answer make of it.
How much of a statement the events show has no part in this.
-/

namespace SqlScribe

open Compile

/-! ## Errors from before a statement is sent -/

/-- The error was found while a statement was built, so no database has seen the statement. -/
def SqlError.IsConstruction : SqlError → Prop
  | .queryFailed _ _ => False
  | _ => True

theorem SqlError.IsRefusal.isConstruction {cause : SqlError} (refusal : cause.IsRefusal) :
    cause.IsConstruction := by
  cases cause with
  | queryFailed statement answer => exact refusal
  | _ => trivial

/-- A read without a text was refused while its statement was built: writing it never fails. -/
theorem Query.isConstruction_of_toSql {config : Config} {query : Query}
    {operation : ReadOperation} {cause : SqlError}
    (failed : (query.toSql config operation).1 = .error cause) : cause.IsConstruction := by
  have request : (Request.read query operation).toSql config = .error cause := failed
  cases compiled : (query.statement config).1 with
  | ok select =>
      have statement : (Request.read query operation).statement config =
          .ok (.select (Query.adapted select operation)) := by
        rw [Request.statement, compiled]
        rfl
      rcases Request.exists_toSql statement with ⟨sql, -, written⟩
      cases request.symm.trans written
  | error early =>
      rw [Request.toSql_eq, Request.statement, compiled] at request
      cases request
      have fails : Fails (query.compileAt config 0 []) ⟨.empty, []⟩ cause := compiled
      rcases Query.failsRightly _ _ fails with refusal | ⟨rfl, -⟩
      · exact refusal.isConstruction
      · trivial

/-! ## Calls -/

/-- What a program asks a session for; a query comes with the settings that it was built under. -/
inductive Call where
  | execute (sql : String)
  | fetchAll (settings : Config) (query : Query)
  | fetchFirst (settings : Config) (query : Query)

/-- What a call gives if nothing fails. -/
inductive Reply where
  | outcome (outcome : Outcome)
  | rows (rows : List Row)
  | first (row : Option Row)
deriving DecidableEq, Repr

namespace Call

/-- The statement that a call sends to the database. -/
def sql : Call → Except SqlError String
  | .execute sql => .ok sql
  | .fetchAll settings query => (query.toSql settings .find).1
  | .fetchFirst settings query => (query.toSql settings .first).1

/-- The statements of those calls that have one. -/
def statements (calls : List Call) : List String := calls.filterMap fun call => call.sql.toOption

/-- What a call reads off the outcome of its statement. -/
def reading : Call → Outcome → Reply
  | .execute _, outcome => .outcome outcome
  | .fetchAll _ _, outcome => .rows (outcome.rows.getD [])
  | .fetchFirst _ _, outcome => .first (outcome.rows.getD []).head?

/-- What a call gives for the answer to its statement. -/
def answered (call : Call) (sql : String) : Except String Outcome → Except SqlError Reply
  | .ok outcome => .ok (call.reading outcome)
  | .error cause => .error (.queryFailed sql cause)

/-- Performs a call in a session under some settings. -/
def perform {m : Type → Type} [Monad m] (run : Runner m) (config : Config) :
    Call → m (Except SqlError Reply × List Event)
  | .execute sql => do
      let (outcome, events) ← Session.execute run config.logMaxSqlLength sql
      pure (outcome.map .outcome, events)
  | .fetchAll settings query => do
      let (rows, events) ← Session.fetchAll run settings query
      pure (rows.map .rows, events)
  | .fetchFirst settings query => do
      let (row, events) ← Session.fetchFirst run settings query
      pure (row.map .first, events)

/-- Performs calls one after another on a rehearsed database. -/
def run (config : Config) (calls : List Call) (before : Rehearsal) :
    List (Except SqlError Reply) × Rehearsal :=
  let (performed, after) := (calls.mapM (perform Rehearsal.answer config)).run before
  (performed.map Prod.fst, after)

/-- What comes of a call whose statement, if it has one, gets this answer. -/
structure Served
    (call : Call) (answer : Except String Outcome) (result : Except SqlError Reply) : Prop where
  /-- A query that does not compile gives the error that was found in it. -/
  refused : ∀ cause, call.sql = .error cause → result = .error cause ∧ cause.IsConstruction
  returned : ∀ sql outcome, call.sql = .ok sql → answer = .ok outcome →
    result = .ok (call.reading outcome)
  failed : ∀ sql cause, call.sql = .ok sql → answer = .error cause →
    result = .error (.queryFailed sql cause)

theorem isConstruction_of_sql {call : Call} {cause : SqlError} (failed : call.sql = .error cause) :
    cause.IsConstruction := by
  cases call with
  | execute sql => cases failed
  | fetchAll settings query => exact Query.isConstruction_of_toSql failed
  | fetchFirst settings query => exact Query.isConstruction_of_toSql failed

theorem served_of_refused {call : Call} {cause : SqlError} (refused : call.sql = .error cause)
    (answer : Except String Outcome) : call.Served answer (.error cause) where
  refused := by
    intro other same
    cases refused.symm.trans same
    exact ⟨rfl, isConstruction_of_sql refused⟩
  returned := fun sql outcome sent => by cases refused.symm.trans sent
  failed := fun sql failure sent => by cases refused.symm.trans sent

theorem served_of_answered {call : Call} {sql : String} (sent : call.sql = .ok sql)
    (answer : Except String Outcome) : call.Served answer (call.answered sql answer) where
  refused := fun cause refused => by cases sent.symm.trans refused
  returned := by
    rintro other outcome same rfl
    cases sent.symm.trans same
    rfl
  failed := by
    rintro other cause same rfl
    cases sent.symm.trans same
    rfl

/-! ## One call -/

/-- The answer that the database gives next; there is an empty outcome when none is left. -/
def nextAnswer (answers : List (Except String Outcome)) : Except String Outcome :=
  answers.head?.getD (.ok {})

theorem run_answer (sql : String) (before : Rehearsal) :
    (Rehearsal.answer sql).run before =
      (nextAnswer before.answers, ⟨before.answers.tail, before.sent ++ [sql]⟩) := by
  rcases before with ⟨_ | _, sent⟩ <;> rfl

/-- A statement reaches the database whole, whatever the events show of it. -/
theorem run_execute (shownBytes : Option Nat) (sql : String) (before : Rehearsal) :
    ∃ events, (Session.execute Rehearsal.answer shownBytes sql).run before =
      (((nextAnswer before.answers).mapError (SqlError.queryFailed sql), events),
        ⟨before.answers.tail, before.sent ++ [sql]⟩) := by
  unfold Session.execute
  simp only [StateT.run_bind, run_answer]
  cases nextAnswer before.answers with
  | ok outcome => exact ⟨_, rfl⟩
  | error cause => exact ⟨_, rfl⟩

/-- A query that does not compile never reaches the database. -/
theorem run_fetch_of_refused {config : Config} {query : Query} {operation : ReadOperation}
    {cause : SqlError} (refused : (query.toSql config operation).1 = .error cause)
    (before : Rehearsal) :
    ∃ events, (Session.fetch Rehearsal.answer config query operation).run before =
      ((.error cause, events), before) := by
  unfold Session.fetch
  rcases compiled : query.toSql config operation with ⟨outcome, events⟩
  rw [compiled] at refused
  cases refused
  exact ⟨events, rfl⟩

theorem run_fetch_of_sent {config : Config} {query : Query} {operation : ReadOperation}
    {sql : String} (sent : (query.toSql config operation).1 = .ok sql) (before : Rehearsal) :
    ∃ events, (Session.fetch Rehearsal.answer config query operation).run before =
      (((nextAnswer before.answers).mapError (SqlError.queryFailed sql), events),
        ⟨before.answers.tail, before.sent ++ [sql]⟩) := by
  unfold Session.fetch
  rcases compiled : query.toSql config operation with ⟨outcome, events⟩
  rw [compiled] at sent
  cases sent
  rcases run_execute config.logMaxSqlLength sql before with ⟨more, executed⟩
  simp only [StateT.run_bind, executed]
  exact ⟨events ++ more, rfl⟩

/-- What a call leaves of a rehearsal. -/
def leaves (call : Call) (before : Rehearsal) : Rehearsal :=
  match call.sql with
  | .error _ => before
  | .ok sql => ⟨before.answers.tail, before.sent ++ [sql]⟩

/-- One call is served with the next answer, and takes it only for a statement that was sent. -/
theorem run_perform (config : Config) (call : Call) (before : Rehearsal) :
    ∃ result events, (call.perform Rehearsal.answer config).run before =
        ((result, events), call.leaves before) ∧
      call.Served (nextAnswer before.answers) result := by
  cases stated : call.sql with
  | error cause =>
      have stays : call.leaves before = before := by rw [leaves, stated]
      refine ⟨.error cause, ?_⟩
      rw [stays]
      cases call with
      | execute sql => cases stated
      | fetchAll settings query =>
          rcases run_fetch_of_refused stated before with ⟨events, fetched⟩
          refine ⟨events, ?_, served_of_refused stated _⟩
          simp only [perform, Session.fetchAll, StateT.run_bind, fetched]
          rfl
      | fetchFirst settings query =>
          rcases run_fetch_of_refused stated before with ⟨events, fetched⟩
          refine ⟨events, ?_, served_of_refused stated _⟩
          simp only [perform, Session.fetchFirst, StateT.run_bind, fetched]
          rfl
  | ok sql =>
      have moves : call.leaves before = ⟨before.answers.tail, before.sent ++ [sql]⟩ := by
        rw [leaves, stated]
      refine ⟨call.answered sql (nextAnswer before.answers), ?_⟩
      rw [moves]
      cases call with
      | execute text =>
          cases stated
          rcases run_execute config.logMaxSqlLength sql before with ⟨events, executed⟩
          refine ⟨events, ?_, served_of_answered rfl _⟩
          simp only [perform, StateT.run_bind, executed]
          cases nextAnswer before.answers <;> rfl
      | fetchAll settings query =>
          rcases run_fetch_of_sent stated before with ⟨events, fetched⟩
          refine ⟨events, ?_, served_of_answered stated _⟩
          simp only [perform, Session.fetchAll, StateT.run_bind, fetched]
          cases nextAnswer before.answers <;> rfl
      | fetchFirst settings query =>
          rcases run_fetch_of_sent stated before with ⟨events, fetched⟩
          refine ⟨events, ?_, served_of_answered stated _⟩
          simp only [perform, Session.fetchFirst, StateT.run_bind, fetched]
          cases nextAnswer before.answers <;> rfl

/-! ## Runs -/

@[simp]
theorem run_nil (config : Config) (before : Rehearsal) : run config [] before = ([], before) := rfl

/-- A run serves its first call with the next answer, and goes on with what that call leaves. -/
theorem run_cons (config : Config) (call : Call) (rest : List Call) (before : Rehearsal) :
    ∃ result, call.Served (nextAnswer before.answers) result ∧
      run config (call :: rest) before =
        (result :: (run config rest (call.leaves before)).1,
          (run config rest (call.leaves before)).2) := by
  rcases run_perform config call before with ⟨result, events, performed, served⟩
  refine ⟨result, served, ?_⟩
  simp only [run, List.mapM_cons, StateT.run_bind, performed]
  rfl

/-- The answer to the statement that comes after some number of statements. -/
def answerAt (answers : List (Except String Outcome)) (earlier : Nat) : Except String Outcome :=
  answers[earlier]?.getD (.ok {})

theorem answerAt_zero (answers : List (Except String Outcome)) :
    answerAt answers 0 = nextAnswer answers := by
  rw [answerAt, nextAnswer, List.head?_eq_getElem?]

theorem answerAt_drop (answers : List (Except String Outcome)) (taken earlier : Nat) :
    answerAt (answers.drop taken) earlier = answerAt answers (taken + earlier) := by
  rw [answerAt, answerAt, List.getElem?_drop]

/-- What a call leaves, told by the statements of its run. -/
theorem leaves_eq (call : Call) (before : Rehearsal) :
    call.leaves before =
      ⟨before.answers.drop (statements [call]).length, before.sent ++ statements [call]⟩ := by
  cases stated : call.sql with
  | error cause => simp [leaves, statements, stated, Except.toOption]
  | ok sql => simp [leaves, statements, stated, Except.toOption]

theorem statements_cons (call : Call) (rest : List Call) :
    statements (call :: rest) = statements [call] ++ statements rest :=
  List.filterMap_append (l := [call])

/--
What comes of a run: its statements reach the database in order, each takes one
answer, and each call is served with the answer to its own statement.
-/
structure Rehearsed (calls : List Call) (before : Rehearsal)
    (results : List (Except SqlError Reply)) (after : Rehearsal) : Prop where
  sent : after.sent = before.sent ++ statements calls
  answers : after.answers = before.answers.drop (statements calls).length
  length : results.length = calls.length
  served : ∀ (position : Nat) (call : Call), calls[position]? = some call →
    ∃ result, results[position]? = some result ∧
      call.Served (answerAt before.answers (statements (calls.take position)).length) result

theorem run_rehearsed (config : Config) (calls : List Call) (before : Rehearsal) :
    Rehearsed calls before (run config calls before).1 (run config calls before).2 := by
  induction calls generalizing before with
  | nil => exact ⟨by simp [statements], by simp [statements], rfl, by simp⟩
  | cons call rest rest_rehearsed =>
      rcases run_cons config call rest before with ⟨result, served, stepped⟩
      have later := rest_rehearsed (call.leaves before)
      rw [leaves_eq] at later stepped
      rw [stepped]
      refine ⟨?_, ?_, congrArg Nat.succ later.length, ?_⟩
      · rw [later.sent, statements_cons call rest, List.append_assoc]
      · rw [later.answers, statements_cons call rest, List.drop_drop, List.length_append]
      · rintro (_ | position) called at_position
        · cases at_position
          exact ⟨result, rfl, (answerAt_zero before.answers).symm ▸ served⟩
        · rcases later.served position called at_position with ⟨reply, replied, reply_served⟩
          refine ⟨reply, replied, ?_⟩
          rwa [answerAt_drop, ← List.length_append, ← statements_cons] at reply_served

/-- A deletion, a query that does not compile, and two that do; little of them is shown. -/
def mixedCalls : List Call :=
  [.execute "DELETE FROM t",
    .fetchAll { logMaxSqlLength := some 4 } { table := "not a table" },
    .fetchFirst { logMaxSqlLength := some 4 } { table := "t" },
    .fetchAll { logMaxSqlLength := some 4 } { table := "t" }]

def mixedStatements : List String :=
  ["DELETE FROM t", "SELECT * FROM \x60t\x60 LIMIT 1", "SELECT * FROM \x60t\x60"]

/-- Two answers for three statements, so that the last one gets none. -/
def mixedAnswers : Rehearsal := ⟨[.ok { affectedRows := some 2 }, .error "gone away"], []⟩

theorem run_rehearsed_mixedCalls :
    (run {} mixedCalls mixedAnswers).2.sent = mixedStatements ∧
      (run {} mixedCalls mixedAnswers).2.answers = [] ∧
      (run {} mixedCalls mixedAnswers).1 =
        [.ok (.outcome { affectedRows := some 2 }),
          .error (.invalidIdentifier "not a table" (.character ' ')),
          .error (.queryFailed "SELECT * FROM \x60t\x60 LIMIT 1" "gone away"),
          .ok (.rows [])] := by
  have rehearsed := run_rehearsed {} mixedCalls mixedAnswers
  have stated : statements mixedCalls = mixedStatements := by cbv
  refine ⟨?_, ?_, by cbv⟩
  · rw [rehearsed.sent, stated]
    rfl
  · rw [rehearsed.answers, stated]
    rfl

end Call

end SqlScribe
