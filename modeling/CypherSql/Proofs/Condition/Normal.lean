import CypherSql.Proofs.Condition.Leaves

/-! # Flattening is a normal form

A flat condition alternates: right under a conjunction stands a leaf or a disjunction, right under a
disjunction a leaf or a conjunction, and no node has exactly one child.  Flattening makes a
condition flat and says the same, in every logic in which a conjunction and a disjunction do not
depend on how their parts are grouped.

* `Normal` — flat conditions.
* `normal_flatten`, `flatten_of_normal` — flattening yields flat conditions and leaves them alone.
* `Logic`, `Logic.ternary` — truth values with their connectives, and those of SQL.
* `value_flatten` — flattening keeps the value of a condition.
* `flatten_normalizes` — all that flattening does.
-/

namespace CypherSql.Condition

variable {α β : Type}

/-! ## Flat conditions -/

def isAll : Condition α → Bool
  | all _ => true
  | _ => false

def isAny : Condition α → Bool
  | any _ => true
  | _ => false

inductive Normal : Condition α → Prop where
  | leaf (value : α) : Normal (leaf value)
  | all {children : List (Condition α)} (notAlone : children.length ≠ 1)
      (alternates : ∀ child ∈ children, child.isAll = false)
      (normal : ∀ child ∈ children, Normal child) : Normal (all children)
  | any {children : List (Condition α)} (notAlone : children.length ≠ 1)
      (alternates : ∀ child ∈ children, child.isAny = false)
      (normal : ∀ child ∈ children, Normal child) : Normal (any children)

theorem Normal.conjuncts {condition : Condition α} (normal : Normal condition) :
    ∀ part ∈ condition.conjuncts, part.isAll = false ∧ Normal part := by
  cases normal with
  | leaf value => exact List.forall_mem_singleton.mpr ⟨rfl, .leaf value⟩
  | all _ alternates normal => exact fun part isPart => ⟨alternates part isPart, normal part isPart⟩
  | any notAlone alternates normal =>
    exact List.forall_mem_singleton.mpr ⟨rfl, .any notAlone alternates normal⟩

theorem Normal.disjuncts {condition : Condition α} (normal : Normal condition) :
    ∀ part ∈ condition.disjuncts, part.isAny = false ∧ Normal part := by
  cases normal with
  | leaf value => exact List.forall_mem_singleton.mpr ⟨rfl, .leaf value⟩
  | all notAlone alternates normal =>
    exact List.forall_mem_singleton.mpr ⟨rfl, .all notAlone alternates normal⟩
  | any _ alternates normal => exact fun part isPart => ⟨alternates part isPart, normal part isPart⟩

/-- A node over parts of the other kinds is flat, and so is its only part. -/
theorem normal_nodeOver {node : List (Condition α) → Condition α} {parts : List (Condition α)}
    (ofNode : parts.length ≠ 1 → Normal (node parts)) (normal : ∀ part ∈ parts, Normal part) :
    Normal (nodeOver node parts) := by
  unfold nodeOver
  split
  · exact normal _ (List.mem_singleton_self _)
  · next several => exact ofNode fun alone => (List.length_eq_one_iff.mp alone).elim several

mutual

theorem normal_flatten : ∀ condition : Condition α, Normal condition.flatten
  | leaf value => .leaf value
  | all children => by
    have parts := normal_mergedAll children
    have normal := fun part isPart => (parts part isPart).2
    exact normal_nodeOver
      (fun notAlone => .all notAlone (fun part isPart => (parts part isPart).1) normal) normal
  | any children => by
    have parts := normal_mergedAny children
    have normal := fun part isPart => (parts part isPart).2
    exact normal_nodeOver
      (fun notAlone => .any notAlone (fun part isPart => (parts part isPart).1) normal) normal

theorem normal_mergedAll : ∀ children : List (Condition α),
    ∀ part ∈ mergedAll children, part.isAll = false ∧ Normal part
  | [] => List.forall_mem_nil _
  | child :: rest =>
    -- A child may have become a conjunction by losing a node with one child: merging comes after.
    List.forall_mem_append.mpr ⟨(normal_flatten child).conjuncts, normal_mergedAll rest⟩

theorem normal_mergedAny : ∀ children : List (Condition α),
    ∀ part ∈ mergedAny children, part.isAny = false ∧ Normal part
  | [] => List.forall_mem_nil _
  | child :: rest =>
    List.forall_mem_append.mpr ⟨(normal_flatten child).disjuncts, normal_mergedAny rest⟩

end

/-! ## Flat conditions stay what they are -/

theorem conjuncts_of_isAll {condition : Condition α} (other : condition.isAll = false) :
    condition.conjuncts = [condition] := by
  cases condition with
  | leaf | any => rfl
  | all => contradiction

theorem disjuncts_of_isAny {condition : Condition α} (other : condition.isAny = false) :
    condition.disjuncts = [condition] := by
  cases condition with
  | leaf | all => rfl
  | any => contradiction

theorem nodeOver_of_length {node : List (Condition α) → Condition α} {parts : List (Condition α)}
    (notAlone : parts.length ≠ 1) : nodeOver node parts = node parts := by
  unfold nodeOver
  split
  · exact absurd rfl notAlone
  · rfl

theorem mergedAll_of_flat {children : List (Condition α)}
    (alternates : ∀ child ∈ children, child.isAll = false)
    (flat : ∀ child ∈ children, child.flatten = child) : mergedAll children = children := by
  induction children with
  | nil => rfl
  | cons child rest ih =>
    obtain ⟨first, others⟩ := List.forall_mem_cons.mp alternates
    obtain ⟨flatFirst, flatOthers⟩ := List.forall_mem_cons.mp flat
    rw [mergedAll, flatFirst, conjuncts_of_isAll first, ih others flatOthers, List.singleton_append]

theorem mergedAny_of_flat {children : List (Condition α)}
    (alternates : ∀ child ∈ children, child.isAny = false)
    (flat : ∀ child ∈ children, child.flatten = child) : mergedAny children = children := by
  induction children with
  | nil => rfl
  | cons child rest ih =>
    obtain ⟨first, others⟩ := List.forall_mem_cons.mp alternates
    obtain ⟨flatFirst, flatOthers⟩ := List.forall_mem_cons.mp flat
    rw [mergedAny, flatFirst, disjuncts_of_isAny first, ih others flatOthers,
      List.singleton_append]

theorem flatten_of_normal {condition : Condition α} (normal : Normal condition) :
    condition.flatten = condition := by
  induction normal with
  | leaf => rfl
  | all notAlone alternates _ flat =>
    rw [flatten, mergedAll_of_flat alternates flat, nodeOver_of_length notAlone]
  | any notAlone alternates _ flat =>
    rw [flatten, mergedAny_of_flat alternates flat, nodeOver_of_length notAlone]

/-! ## Values -/

/-- Truth values with a conjunction and a disjunction for which grouping does not matter, and what
they are of no part at all. -/
structure Logic (β : Type) where
  and : β → β → β
  or : β → β → β
  always : β
  never : β
  and_assoc : ∀ a b c, and (and a b) c = and a (and b c)
  always_and : ∀ a, and always a = a
  and_always : ∀ a, and a always = a
  or_assoc : ∀ a b c, or (or a b) c = or a (or b c)
  never_or : ∀ a, or never a = a
  or_never : ∀ a, or a never = a

/-- What a test of SQL yields: a comparison with `NULL` is unknown. -/
inductive Ternary where
  | true
  | unknown
  | false
  deriving DecidableEq, Repr

namespace Ternary

def and : Ternary → Ternary → Ternary
  | true, other | other, true => other
  | false, _ | _, false => false
  | unknown, unknown => unknown

def or : Ternary → Ternary → Ternary
  | false, other | other, false => other
  | true, _ | _, true => true
  | unknown, unknown => unknown

end Ternary

/-- `AND` and `OR` of SQL. -/
def Logic.ternary : Logic Ternary where
  and := .and
  or := .or
  always := .true
  never := .false
  and_assoc := by rintro (_ | _ | _) (_ | _ | _) (_ | _ | _) <;> rfl
  always_and := by rintro (_ | _ | _) <;> rfl
  and_always := by rintro (_ | _ | _) <;> rfl
  or_assoc := by rintro (_ | _ | _) (_ | _ | _) (_ | _ | _) <;> rfl
  never_or := by rintro (_ | _ | _) <;> rfl
  or_never := by rintro (_ | _ | _) <;> rfl

mutual

def value (logic : Logic β) (truth : α → β) : Condition α → β
  | leaf value => truth value
  | all children => valueAll logic truth children
  | any children => valueAny logic truth children

def valueAll (logic : Logic β) (truth : α → β) : List (Condition α) → β
  | [] => logic.always
  | child :: rest => logic.and (value logic truth child) (valueAll logic truth rest)

def valueAny (logic : Logic β) (truth : α → β) : List (Condition α) → β
  | [] => logic.never
  | child :: rest => logic.or (value logic truth child) (valueAny logic truth rest)

end

section

variable {logic : Logic β} {truth : α → β}

theorem valueAll_append (first others : List (Condition α)) :
    valueAll logic truth (first ++ others) =
      logic.and (valueAll logic truth first) (valueAll logic truth others) := by
  induction first with
  | nil => rw [List.nil_append, valueAll, logic.always_and]
  | cons child rest ih => rw [List.cons_append, valueAll, ih, valueAll, logic.and_assoc]

theorem valueAny_append (first others : List (Condition α)) :
    valueAny logic truth (first ++ others) =
      logic.or (valueAny logic truth first) (valueAny logic truth others) := by
  induction first with
  | nil => rw [List.nil_append, valueAny, logic.never_or]
  | cons child rest ih => rw [List.cons_append, valueAny, ih, valueAny, logic.or_assoc]

theorem valueAll_singleton (child : Condition α) :
    valueAll logic truth [child] = child.value logic truth := by
  rw [valueAll, valueAll, logic.and_always]

theorem valueAny_singleton (child : Condition α) :
    valueAny logic truth [child] = child.value logic truth := by
  rw [valueAny, valueAny, logic.or_never]

theorem valueAll_conjuncts (condition : Condition α) :
    valueAll logic truth condition.conjuncts = condition.value logic truth := by
  cases condition with
  | all children => rw [conjuncts, value]
  | leaf | any => exact valueAll_singleton _

theorem valueAny_disjuncts (condition : Condition α) :
    valueAny logic truth condition.disjuncts = condition.value logic truth := by
  cases condition with
  | any children => rw [disjuncts, value]
  | leaf | all => exact valueAny_singleton _

theorem value_nodeOver_all (parts : List (Condition α)) :
    (nodeOver all parts).value logic truth = valueAll logic truth parts := by
  unfold nodeOver
  split
  · exact (valueAll_singleton _).symm
  · rw [value]

theorem value_nodeOver_any (parts : List (Condition α)) :
    (nodeOver any parts).value logic truth = valueAny logic truth parts := by
  unfold nodeOver
  split
  · exact (valueAny_singleton _).symm
  · rw [value]

mutual

/-- Flattening keeps the value of a condition in every logic. -/
theorem value_flatten : ∀ condition : Condition α,
    condition.flatten.value logic truth = condition.value logic truth
  | leaf _ => rfl
  | all children => by
    rw [flatten, value_nodeOver_all, valueAll_mergedAll children, value]
  | any children => by
    rw [flatten, value_nodeOver_any, valueAny_mergedAny children, value]

theorem valueAll_mergedAll : ∀ children : List (Condition α),
    valueAll logic truth (mergedAll children) = valueAll logic truth children
  | [] => rfl
  | child :: rest => by
    rw [mergedAll, valueAll_append, valueAll_conjuncts, value_flatten child,
      valueAll_mergedAll rest, valueAll]

theorem valueAny_mergedAny : ∀ children : List (Condition α),
    valueAny logic truth (mergedAny children) = valueAny logic truth children
  | [] => rfl
  | child :: rest => by
    rw [mergedAny, valueAny_append, valueAny_disjuncts, value_flatten child,
      valueAny_mergedAny rest, valueAny]

end

end

/-! ## All of it -/

/-- Flattening yields a flat condition and changes no flat one.  The leaves stay as they are and in
their order, and the condition holds in the same cases, be it with two truth values or with the
three of SQL. -/
theorem flatten_normalizes (condition : Condition α) :
    Normal condition.flatten ∧ condition.flatten.flatten = condition.flatten ∧
      condition.flatten.leaves = condition.leaves ∧
      (∀ truth : α → Bool, condition.flatten.holds truth = condition.holds truth) ∧
      ∀ truth : α → Ternary,
        condition.flatten.value .ternary truth = condition.value .ternary truth :=
  have normal := normal_flatten condition
  ⟨normal, flatten_of_normal normal, leaves_flatten condition, fun _ => holds_flatten condition,
    fun _ => value_flatten condition⟩

end CypherSql.Condition
