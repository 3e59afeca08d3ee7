import CypherSql.Proofs.Success
import CypherSql.Result.Run

/-! # The protocol of a run

A query goes through four stages, each of which may fail: its text is read, it is compiled,
its SQL is executed, and the rows that come back are decoded one after the other.

* `Decodes`, `Fails` — the two things that can become of a row the executor yields.
* `Pulled` — what taking rows comes to: all of them, or those up to the first that fails.
* `Proceeds` — what a run comes to, stage by stage.
* `runQuery_eq_iff` — a query runs as `Proceeds` says, and in no other way.
-/

namespace CypherSql

section Pulling

variable (projections : List Projection)

/-! ## Rows -/

/-- A yielded row is no failure, and its cells make a row of values. -/
def Decodes (event : Except String (List Json)) (row : List Value) : Prop :=
  ∃ cells, event = .ok cells ∧ rowValues projections cells = .ok row

/-- A yielded row is a failure, or its cells make no row of values. -/
inductive Fails : Except String (List Json) → RunError → Prop
  | execution (reason : String) : Fails (.error reason) (.execution reason)
  | decoding {cells error} (undecodable : rowValues projections cells = .error error) :
      Fails (.ok cells) (.row error)

/-- What taking rows comes to, and how many are taken.  Nothing depends on the rows behind
the first that fails, so an endless sequence is covered by its rows up to there. -/
inductive Pulled :
    List (Except String (List Json)) → Except RunError (List (List Value)) × Nat → Prop
  | whole {events rows} (decoded : List.Forall₂ (Decodes projections) events rows) :
      Pulled events (.ok rows, events.length)
  | stopped {before event error}
      (decoded : ∀ earlier ∈ before, ∃ row, Decodes projections earlier row)
      (fails : Fails projections event error) (after : List (Except String (List Json))) :
      Pulled (before ++ event :: after) (.error error, before.length + 1)

variable {projections} {event : Except String (List Json)}
  {events before : List (Except String (List Json))} {row : List Value} {error : RunError}

theorem eventValues_eq_ok :
    eventValues projections event = .ok row ↔ Decodes projections event row := by
  cases event with
  | error reason => simp [eventValues, Decodes]
  | ok cells => simp [eventValues, Decodes, mapError_eq_ok]

theorem eventValues_eq_error :
    eventValues projections event = .error error ↔ Fails projections event error := by
  constructor
  · intro failed
    cases event with
    | error reason =>
      obtain rfl := Except.error.inj failed
      exact .execution reason
    | ok cells =>
      cases isRow : rowValues projections cells with
      | ok row => simp [eventValues, isRow, Except.mapError] at failed
      | error undecoded =>
        rw [eventValues, isRow] at failed
        obtain rfl := Except.error.inj failed
        exact .decoding isRow
  · rintro (⟨reason⟩ | ⟨undecodable⟩)
    · rfl
    · rw [eventValues, undecodable, Except.mapError]

/-! ## Taking rows -/

theorem pullRows_cons_decodes (decodes : Decodes projections event row) :
    pullRows projections (event :: events) =
      ((pullRows projections events).1.map (row :: ·), (pullRows projections events).2 + 1) := by
  rw [pullRows, eventValues_eq_ok.mpr decodes]

theorem pullRows_cons_fails (fails : Fails projections event error) :
    pullRows projections (event :: events) = (.error error, 1) := by
  rw [pullRows, eventValues_eq_error.mpr fails]

theorem pullRows_decoded {rows : List (List Value)}
    (decoded : List.Forall₂ (Decodes projections) events rows) :
    pullRows projections events = (.ok rows, events.length) := by
  induction decoded with
  | nil => rfl
  | cons decodes _ ih => rw [pullRows_cons_decodes decodes, ih]; rfl

theorem pullRows_stopped (decoded : ∀ earlier ∈ before, ∃ row, Decodes projections earlier row)
    (fails : Fails projections event error) (after : List (Except String (List Json))) :
    pullRows projections (before ++ event :: after) = (.error error, before.length + 1) := by
  induction before with
  | nil => exact pullRows_cons_fails fails
  | cons earlier before ih =>
    obtain ⟨⟨row, decodes⟩, rest⟩ := List.forall_mem_cons.mp decoded
    rw [List.cons_append, pullRows_cons_decodes decodes, ih rest]
    rfl

/-- One more row in front that decodes is one more row that is taken. -/
theorem Pulled.cons (decodes : Decodes projections event row)
    {outcome : Except RunError (List (List Value)) × Nat}
    (pulled : Pulled projections events outcome) :
    Pulled projections (event :: events) (outcome.1.map (row :: ·), outcome.2 + 1) := by
  cases pulled with
  | whole decoded => exact .whole (.cons decodes decoded)
  | stopped decoded fails after =>
    exact .stopped (List.forall_mem_cons.mpr ⟨⟨row, decodes⟩, decoded⟩) fails after

theorem pulled_pullRows (events : List (Except String (List Json))) :
    Pulled projections events (pullRows projections events) := by
  induction events with
  | nil => exact .whole .nil
  | cons event events ih =>
    cases isRow : eventValues projections event with
    | error error =>
      have fails := eventValues_eq_error.mp isRow
      rw [pullRows_cons_fails fails]
      exact .stopped (List.forall_mem_nil _) fails events
    | ok row =>
      have decodes := eventValues_eq_ok.mp isRow
      rw [pullRows_cons_decodes decodes]
      exact ih.cons decodes

theorem pullRows_eq_iff {outcome : Except RunError (List (List Value)) × Nat} :
    pullRows projections events = outcome ↔ Pulled projections events outcome := by
  constructor
  · rintro rfl
    exact pulled_pullRows events
  · rintro (⟨decoded⟩ | ⟨decoded, fails, after⟩)
    · exact pullRows_decoded decoded
    · exact pullRows_stopped decoded fails after

/-- The third row would not decode, but the second has ended the run. -/
example : pullRows [⟨"n.value", .scalar⟩] [.ok [.text "a"], .error "gone", .ok []] =
    (.error (.execution "gone"), 2) := rfl

end Pulling

/-! ## Runs -/

variable (settings : Settings) (executor : Executor) (text : String)

/-- What the run of a query comes to.  The executor is consulted on the SQL of the query
alone, after the query has compiled, and once. -/
inductive Proceeds : Run → Prop
  | unreadable {error} (unread : Cypher.Query.parse text = .error error) :
      Proceeds ⟨.error (.query (.unreadable error)), [], 0⟩
  | rejected {query error} (read : Cypher.Query.parse text = .ok query)
      (uncompiled : query.compile settings = .error error) :
      Proceeds ⟨.error (.query (.rejected error)), [], 0⟩
  | refused {query compiled reason} (read : Cypher.Query.parse text = .ok query)
      (compiles : query.compile settings = .ok compiled)
      (refuses : executor compiled.sql = .error reason) :
      Proceeds ⟨.error (.execution reason), [compiled.sql], 0⟩
  | answered {query compiled events rows pulled} (read : Cypher.Query.parse text = .ok query)
      (compiles : query.compile settings = .ok compiled)
      (yields : executor compiled.sql = .ok events)
      (pulls : Pulled compiled.projections events (rows, pulled)) :
      Proceeds ⟨rows.map (⟨compiled.projections, ·⟩), [compiled.sql], pulled⟩

variable {settings executor text}

theorem runQuery_of_unreadable {error : Cypher.ParseError}
    (unread : Cypher.Query.parse text = .error error) :
    runQuery settings executor text = ⟨.error (.query (.unreadable error)), [], 0⟩ := by
  have failed : compileQuery settings text = .error (.unreadable error) := by
    unfold compileQuery
    rw [unread]
    rfl
  unfold runQuery
  rw [failed]

section Read

variable {query : Cypher.Query} (read : Cypher.Query.parse text = .ok query)
include read

theorem compileQuery_of_parse :
    compileQuery settings text = (query.compile settings).mapError .rejected := by
  unfold compileQuery
  rw [read]
  rfl

theorem runQuery_of_rejected {error : CompilationError}
    (uncompiled : query.compile settings = .error error) :
    runQuery settings executor text = ⟨.error (.query (.rejected error)), [], 0⟩ := by
  unfold runQuery
  rw [compileQuery_of_parse read, uncompiled]
  rfl

variable {compiled : CompiledQuery} (compiles : query.compile settings = .ok compiled)
include compiles

theorem runQuery_of_refused {reason : String} (refuses : executor compiled.sql = .error reason) :
    runQuery settings executor text = ⟨.error (.execution reason), [compiled.sql], 0⟩ := by
  unfold runQuery
  simp only [compileQuery_of_parse read, compiles, Except.mapError, refuses]

theorem runQuery_of_answered {events : List (Except String (List Json))}
    (yields : executor compiled.sql = .ok events) :
    runQuery settings executor text =
      ⟨(pullRows compiled.projections events).1.map (⟨compiled.projections, ·⟩), [compiled.sql],
        (pullRows compiled.projections events).2⟩ := by
  unfold runQuery
  simp only [compileQuery_of_parse read, compiles, Except.mapError, yields]

end Read

variable (settings executor text)

theorem proceeds_runQuery : Proceeds settings executor text (runQuery settings executor text) := by
  cases read : Cypher.Query.parse text with
  | error error =>
    rw [runQuery_of_unreadable read]
    exact .unreadable read
  | ok query =>
    cases compiles : query.compile settings with
    | error error =>
      rw [runQuery_of_rejected read compiles]
      exact .rejected read compiles
    | ok compiled =>
      cases yields : executor compiled.sql with
      | error reason =>
        rw [runQuery_of_refused read compiles yields]
        exact .refused read compiles yields
      | ok events =>
        rw [runQuery_of_answered read compiles yields]
        exact .answered read compiles yields (pulled_pullRows events)

/-- The run of a query is what `Proceeds` says, and nothing else. -/
theorem runQuery_eq_iff (run : Run) :
    runQuery settings executor text = run ↔ Proceeds settings executor text run := by
  constructor
  · intro same
    exact same ▸ proceeds_runQuery settings executor text
  · intro proceeds
    cases proceeds with
    | unreadable unread => exact runQuery_of_unreadable unread
    | rejected read uncompiled => exact runQuery_of_rejected read uncompiled
    | refused read compiles refuses => exact runQuery_of_refused read compiles refuses
    | answered read compiles yields pulls =>
      rw [runQuery_of_answered read compiles yields, pullRows_eq_iff.mpr pulls]

end CypherSql
