import CypherSql.Graph.Basic
import CypherSql.Settings.Basic
import CypherSql.Sql.Error
import CypherSql.Sql.Selection

/-! # Compiled expressions

* `ResultKind` — what one item of a result is, and how many columns it takes.
* `Compiled` — the SQL of an expression and what is known about it.
* `Compile` — computations that may fail and that record in the graph which slots
  were mentioned.  What was recorded before a failure stays recorded.
-/

namespace CypherSql

/-- What an item of a result is: a node, a relationship or a single value. -/
inductive ResultKind where
  | node
  | relationship
  | scalar
  deriving DecidableEq, Repr

def ResultKind.width : ResultKind → Nat
  | node => 3
  | relationship => 4
  | scalar => 1

def ResultKind.name : ResultKind → String
  | node => "node"
  | relationship => "relationship"
  | scalar => "scalar"

namespace Compilation

open CypherSql.Graph (Slot SlotKind BindingError)
open CypherSql.Sql (Aggregate Fragment GenerationError Lexeme Malformation rowColumns)

def kindOfSlot : SlotKind → ResultKind
  | .node => .node
  | .relation => .relationship

/-! ## The record of an expression -/

/-- The SQL of an expression.

* `columns` — what the expression becomes in a list of columns: several for a whole
  node or relation.
* `slot` — the slot that the expression is.
* `aggregate` — the aggregate that the whole expression is, with its argument.
* `aggregates` — whether an aggregate occurs anywhere.
* `reads` — the slots that the expression reads.
* `disjunctive` — whether an `OR` stands outside of all parentheses, so that the
  expression needs a pair where an `AND` follows. -/
structure Compiled where
  sql : Fragment
  kind : ResultKind
  columns : List Fragment
  slot : Option Slot
  aggregate : Option (Aggregate × Fragment)
  aggregates : Bool
  reads : List Slot
  disjunctive : Bool

namespace Compiled

/-- A single value that reads nothing. -/
def scalar (sql : Fragment) : Compiled where
  sql
  kind := .scalar
  columns := [sql]
  slot := none
  aggregate := none
  aggregates := false
  reads := []
  disjunctive := false

/-- A single value made from `parts`, which reads what they read. -/
def ofParts (sql : Fragment) (parts : List Compiled) : Compiled :=
  { scalar sql with
    aggregates := parts.any Compiled.aggregates
    reads := parts.foldl (fun found part => unionOrdered Slot.before found part.reads) [] }

/-- The SQL to put next to an operator.  A whole slot stands for its number. -/
def operand (compiled : Compiled) : Fragment :=
  match compiled.slot with
  -- The number is the first column of a row.
  | some _ => compiled.columns.headD compiled.sql
  | none => compiled.sql

/-- The SQL to put under an `AND`. -/
def conjunct (compiled : Compiled) : Fragment :=
  if compiled.disjunctive then compiled.sql.parenthesized else compiled.sql

def ofSlot (slot : Slot) : Compiled :=
  let columns := (rowColumns slot.kind).map fun column =>
    [Lexeme.field (.outer slot) [column]]
  { sql := .joined .comma columns
    kind := kindOfSlot slot.kind
    columns
    slot := some slot
    aggregate := none
    aggregates := false
    reads := [slot]
    disjunctive := false }

def ofProperty (slot : Slot) (path : List String) : Compiled :=
  { scalar [.field (.outer slot) path] with reads := [slot] }

/-- An aggregate around `argument`, which reads what `parts` read. -/
def ofAggregate (aggregate : Aggregate) (argument : Fragment) (parts : List Compiled) :
    Compiled :=
  let sql := [.function aggregate.name, .opening] ++
    (if aggregate.distinct then [.distinct] else []) ++ argument ++ [.closing]
  { ofParts sql parts with aggregate := some (aggregate, argument), aggregates := true }

def chain (operator : Lexeme) (parts : List Compiled) : Compiled :=
  ofParts (.joined operator (parts.map operand)) parts

def disjunction (parts : List Compiled) : Compiled :=
  { chain .or parts with disjunctive := true }

/-- An operand and the operands that follow it, each behind its operator. -/
def steps (first : Compiled) (rest : List (Lexeme × Compiled)) : Compiled :=
  ofParts (first.operand ++ rest.flatMap fun (operator, part) => operator :: part.operand)
    (first :: rest.map (·.2))

def behind (operator : Lexeme) (part : Compiled) : Compiled :=
  ofParts (operator :: part.operand) [part]

end Compiled

/-! ## Computations -/

/-- What compilation works on: the query graph, and the number of the next pattern
that is tested for. -/
structure CompilerState where
  graph : Graph
  nextPattern : Nat

/-- What names may stand for besides graph variables, and the tables patterns are
looked for in. -/
structure Bindings where
  settings : Settings
  names : List (String × Compiled)

/-- The expression a name was last given to. -/
def Bindings.find? (bindings : Bindings) (name : String) : Option Compiled :=
  (bindings.names.find? fun entry => entry.1 == name).map (·.2)

def Bindings.bind (bindings : Bindings) (name : String) (compiled : Compiled) : Bindings :=
  -- In front, so that the last meaning of a name is found first.
  { bindings with names := (name, compiled) :: bindings.names }

/-- A computation that changes the state even when it fails. -/
abbrev Compile : Type → Type :=
  ExceptT GenerationError (StateM CompilerState)

def refuse {α : Type} (shape : Malformation) : Compile α :=
  throw (.malformed shape)

def liftBinding {α : Type} (result : Except BindingError α) : Compile α :=
  match result with
  | .ok value => pure value
  | .error error => throw (.binding error)

end Compilation

end CypherSql
