import CypherSql.Compilation.Expression
import CypherSql.Proofs.Graph.Renaming
import CypherSql.Proofs.Sql.Phrases

/-! # What expressions compile to under other names

Slots are known by their numbers, so the only names in a fragment are words that nothing binds.
Putting fragments together and giving the words other names can be done in either order.

* `GenerationError.anonymous` — an error without the names and texts that it quotes.
* `Fragment.rename`, `Compiled.rename` — other names for words.
* `Compiled.rename_ofParts` and so on — the ways of making an expression, under other names.
-/

namespace CypherSql

/-! ## Errors without names -/

def Sql.Malformation.anonymous : Sql.Malformation → Sql.Malformation
  | propertyOfValue _ => .propertyOfValue ""
  | unnamedItem _ => .unnamedItem ""
  | filteredAggregate _ => .filteredAggregate ""
  | shape => shape

/-- The error without the names of variables and the texts of expressions. -/
def Sql.GenerationError.anonymous : Sql.GenerationError → Sql.GenerationError
  | invalidStringOperand _ => .invalidStringOperand ""
  | malformed shape => .malformed shape.anonymous
  | binding error => .binding error.anonymous
  | error => error

/-! ## Fragments under other names -/

/-- A word is a name that nothing binds.  Slots are known by their numbers. -/
def Sql.Lexeme.rename (σ : String → String) : Sql.Lexeme → Sql.Lexeme
  | word name => .word (σ name)
  | lexeme => lexeme

def Sql.Fragment.rename (σ : String → String) (fragment : Sql.Fragment) : Sql.Fragment :=
  fragment.map (Sql.Lexeme.rename σ)

namespace Compilation

open CypherSql.Graph (Slot)
open CypherSql.Sql (Aggregate Fragment Lexeme)

/-! ## Compiled expressions -/

namespace Compiled

variable (σ : String → String)

def rename (compiled : Compiled) : Compiled :=
  { compiled with
    sql := compiled.sql.rename σ
    columns := compiled.columns.map (Fragment.rename σ)
    aggregate := compiled.aggregate.map fun (aggregate, argument) =>
      (aggregate, argument.rename σ) }

theorem rename_append (first second : Fragment) :
    Fragment.rename σ (first ++ second) = first.rename σ ++ second.rename σ :=
  List.map_append

theorem rename_joined (separator : Lexeme) (parts : List Fragment) :
    Fragment.rename σ (.joined separator parts) =
      .joined (separator.rename σ) (parts.map (Fragment.rename σ)) := by
  cases parts with
  | nil => rfl
  | cons first rest =>
    simp only [Fragment.joined_cons, Fragment.rename, List.map_append, List.map_flatMap,
      List.map_cons, List.flatMap_map]

theorem rename_ofParts (sql : Fragment) (parts : List Compiled) :
    (ofParts sql parts).rename σ = ofParts (sql.rename σ) (parts.map (rename σ)) := by
  simp only [ofParts, List.any_map, List.foldl_map]
  rfl

theorem operand_rename (compiled : Compiled) :
    (compiled.rename σ).operand = compiled.operand.rename σ := by
  obtain ⟨sql, kind, columns, slot, aggregate, aggregates, reads, disjunctive⟩ := compiled
  cases slot with
  | none => rfl
  | some slot => cases columns <;> rfl

theorem map_operand_rename (parts : List Compiled) :
    (parts.map (rename σ)).map operand = (parts.map operand).map (Fragment.rename σ) := by
  rw [List.map_map, List.map_map]
  exact List.map_congr_left fun part _ => operand_rename σ part

theorem rename_ofSlot (slot : Slot) : (ofSlot slot).rename σ = ofSlot slot := by
  obtain ⟨kind, index⟩ := slot
  cases kind <;> rfl

theorem conjunct_rename (compiled : Compiled) :
    (compiled.rename σ).conjunct = compiled.conjunct.rename σ := by
  obtain ⟨sql, kind, columns, slot, aggregate, aggregates, reads, disjunctive⟩ := compiled
  cases disjunctive with
  | false => rfl
  | true => exact (rename_append σ (.opening :: sql) [.closing]).symm

theorem rename_ofAggregate (aggregate : Aggregate) (argument : Fragment) (parts : List Compiled) :
    (ofAggregate aggregate argument parts).rename σ =
      ofAggregate aggregate (argument.rename σ) (parts.map (rename σ)) := by
  have sql : Fragment.rename σ ([.function aggregate.name, .opening] ++
      (if aggregate.distinct then [.distinct] else []) ++ argument ++ [.closing]) =
      [.function aggregate.name, .opening] ++
        (if aggregate.distinct then [.distinct] else []) ++ argument.rename σ ++ [.closing] := by
    cases aggregate.distinct <;> simp [Fragment.rename, Lexeme.rename]
  have made := rename_ofParts σ ([.function aggregate.name, .opening] ++
    (if aggregate.distinct then [.distinct] else []) ++ argument ++ [.closing]) parts
  rw [sql] at made
  rw [ofAggregate, ofAggregate, ← made]
  rfl

theorem rename_chain (operator : Lexeme) (parts : List Compiled) :
    (chain operator parts).rename σ = chain (operator.rename σ) (parts.map (rename σ)) := by
  rw [chain, chain, rename_ofParts, rename_joined, map_operand_rename]

theorem rename_disjunction (parts : List Compiled) :
    (disjunction parts).rename σ = disjunction (parts.map (rename σ)) := by
  have chained := rename_chain σ .or parts
  rw [disjunction, disjunction, ← show _ = chain .or (parts.map (rename σ)) from chained]
  rfl

theorem steps_eq (first : Compiled) (rest : List (Lexeme × Compiled)) :
    steps first rest = ofParts
      (first.operand ++ rest.flatMap fun entry => entry.1 :: entry.2.operand)
      (first :: rest.map (·.2)) :=
  rfl

theorem rename_steps (first : Compiled) (rest : List (Lexeme × Compiled)) :
    (steps first rest).rename σ =
      steps (first.rename σ) (rest.map (Prod.map (Lexeme.rename σ) (rename σ))) := by
  have operands : Fragment.rename σ (rest.flatMap fun entry => entry.1 :: entry.2.operand) =
      (rest.map (Prod.map (Lexeme.rename σ) (rename σ))).flatMap
        fun entry => entry.1 :: entry.2.operand := by
    rw [Fragment.rename, List.map_flatMap, List.flatMap_map]
    refine List.flatMap_congr fun entry _ => ?_
    exact congrArg (entry.1.rename σ :: ·) (operand_rename σ entry.2).symm
  rw [steps_eq, steps_eq, rename_ofParts, rename_append, operands, operand_rename, List.map_cons,
    List.map_map, List.map_map]
  rfl

theorem rename_behind (operator : Lexeme) (part : Compiled) :
    (behind operator part).rename σ = behind (operator.rename σ) (part.rename σ) := by
  rw [behind, behind, rename_ofParts, operand_rename]
  rfl

end Compiled

/-! ## Ways of making an expression -/

section

variable (σ : String → String)

theorem counted_rename (argument : Compiled) (distinct : Bool) :
    counted (argument.rename σ) distinct = (counted argument distinct).rename σ := by
  have operand := argument.operand_rename σ
  obtain ⟨sql, kind, columns, slot, aggregate, aggregates, reads, disjunctive⟩ := argument
  cases slot with
  | none => rfl
  | some slot =>
    cases distinct with
    | false => rfl
    | true => exact operand

theorem powerOf_rename (first : Fragment) (rest : List Fragment) :
    powerOf (first.rename σ) (rest.map (Fragment.rename σ)) = (powerOf first rest).rename σ := by
  unfold powerOf
  rw [List.foldl_map]
  induction rest generalizing first with
  | nil => rfl
  | cons exponent rest ih =>
    rw [List.foldl_cons, List.foldl_cons, ← ih]
    congr 1
    simp [Fragment.rename, Lexeme.rename]

theorem compileSlot_rename (slot : Slot) (path : List String) :
    compileSlot slot path = (compileSlot slot path).rename σ := by
  unfold compileSlot
  split
  · exact (Compiled.rename_ofSlot σ slot).symm
  · rfl

theorem parenthesizedIf_rename (whole : Bool) (value : Compiled) :
    (if whole || (value.rename σ).slot.isSome then value.rename σ
      else .ofParts (value.rename σ).sql.parenthesized [value.rename σ]) =
      (if whole || value.slot.isSome then value
        else .ofParts value.sql.parenthesized [value]).rename σ := by
  have same : (value.rename σ).slot = value.slot := rfl
  rw [same, apply_ite (Compiled.rename σ), Compiled.rename_ofParts]
  congr 2
  exact (Compiled.rename_append σ (.opening :: value.sql) [.closing]).symm

theorem powers_rename (base : Compiled) (exponents : List Compiled) :
    Compiled.ofParts (powerOf (base.rename σ).operand
        ((exponents.map (Compiled.rename σ)).map Compiled.operand))
      (base.rename σ :: exponents.map (Compiled.rename σ)) =
      (Compiled.ofParts (powerOf base.operand (exponents.map Compiled.operand))
        (base :: exponents)).rename σ := by
  rw [Compiled.rename_ofParts, Compiled.operand_rename, Compiled.map_operand_rename, powerOf_rename]
  rfl

theorem behindIf_rename (negated : Bool) (operator : Lexeme) (part : Compiled) :
    (if negated then .behind (operator.rename σ) (part.rename σ) else part.rename σ) =
      (if negated then .behind operator part else part).rename σ := by
  cases negated with
  | false => rfl
  | true => exact (Compiled.rename_behind σ operator part).symm

theorem stepsIfAny_rename (first : Compiled) (rest : List (Lexeme × Compiled)) :
    (if (rest.map (Prod.map (Lexeme.rename σ) (Compiled.rename σ))).isEmpty then first.rename σ
      else .steps (first.rename σ) (rest.map (Prod.map (Lexeme.rename σ) (Compiled.rename σ)))) =
      (if rest.isEmpty then first else .steps first rest).rename σ := by
  cases rest with
  | nil => rfl
  | cons entry rest => exact (Compiled.rename_steps σ first (entry :: rest)).symm

end

end Compilation

end CypherSql
