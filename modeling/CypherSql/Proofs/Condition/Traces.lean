import CypherSql.Proofs.Condition.Ways

/-! # Conditions that leave a trace

A part of a condition that is written as nothing is passed over.  Where every part leaves a trace,
what is written has the shape of the condition, and leaves may be given as what they are written as.

* `Condition.isSolid` — every part of a condition leaves a trace.
* `Condition.isSolid_flatten` — flattening keeps that.
* `Condition.writtenChildren_eq` — then all children of a node are written.
* `Condition.Agree` — conditions that hold in the same cases.
* `Condition.written_map`, `Condition.isSolid_map` — conditions over the texts of their leaves.
-/

namespace CypherSql.Condition

variable {α β : Type}

/-! ## Traces -/

mutual

/-- Every node has children, and no leaf is blank. -/
def isSolid (blank : α → Bool) : Condition α → Bool
  | leaf value => !blank value
  | all children => !children.isEmpty && areSolid blank children
  | any children => !children.isEmpty && areSolid blank children

def areSolid (blank : α → Bool) : List (Condition α) → Bool
  | [] => true
  | child :: rest => isSolid blank child && areSolid blank rest

end

variable {blank : α → Bool}

theorem areSolid_iff {children : List (Condition α)} :
    areSolid blank children = true ↔ ∀ child ∈ children, child.isSolid blank = true := by
  induction children with
  | nil => simp [areSolid]
  | cons child rest ih => simp [areSolid, ih]

@[simp] theorem isSolid_leaf (value : α) : (leaf value).isSolid blank = !blank value := rfl

@[simp] theorem isSolid_all {children : List (Condition α)} :
    (all children).isSolid blank = true ↔
      children ≠ [] ∧ ∀ child ∈ children, child.isSolid blank = true := by
  simp [isSolid, areSolid_iff]

@[simp] theorem isSolid_any {children : List (Condition α)} :
    (any children).isSolid blank = true ↔
      children ≠ [] ∧ ∀ child ∈ children, child.isSolid blank = true := by
  simp [isSolid, areSolid_iff]

/-! Flattening leaves out nodes only. -/

theorem conjuncts_solid {condition : Condition α} (solid : condition.isSolid blank = true) :
    condition.conjuncts ≠ [] ∧ ∀ child ∈ condition.conjuncts, child.isSolid blank = true := by
  cases condition with
  | all children => exact isSolid_all.mp solid
  | _ => simpa [conjuncts] using solid

theorem disjuncts_solid {condition : Condition α} (solid : condition.isSolid blank = true) :
    condition.disjuncts ≠ [] ∧ ∀ child ∈ condition.disjuncts, child.isSolid blank = true := by
  cases condition with
  | any children => exact isSolid_any.mp solid
  | _ => simpa [disjuncts] using solid

theorem nodeOver_solid {node : List (Condition α) → Condition α} {children : List (Condition α)}
    (nodeSolid : (node children).isSolid blank = true)
    (solid : ∀ child ∈ children, child.isSolid blank = true) :
    (nodeOver node children).isSolid blank = true := by
  unfold nodeOver
  split
  · exact solid _ List.mem_cons_self
  · exact nodeSolid

mutual

theorem isSolid_flatten : ∀ condition : Condition α, condition.isSolid blank = true →
    condition.flatten.isSolid blank = true
  | leaf _, solid => solid
  | all children, solid => by
    have parts := mergedAll_solid children (isSolid_all.mp solid).2
    have present := parts.1 (isSolid_all.mp solid).1
    exact nodeOver_solid (isSolid_all.mpr ⟨present, parts.2⟩) parts.2
  | any children, solid => by
    have parts := mergedAny_solid children (isSolid_any.mp solid).2
    have present := parts.1 (isSolid_any.mp solid).1
    exact nodeOver_solid (isSolid_any.mpr ⟨present, parts.2⟩) parts.2

theorem mergedAll_solid : ∀ children : List (Condition α),
    (∀ child ∈ children, child.isSolid blank = true) →
      (children ≠ [] → mergedAll children ≠ []) ∧
        ∀ child ∈ mergedAll children, child.isSolid blank = true
  | [], _ => by simp [mergedAll]
  | child :: rest, solid => by
    have first := conjuncts_solid (isSolid_flatten child (solid child List.mem_cons_self))
    have others := mergedAll_solid rest fun other isOther =>
      solid other (List.mem_cons_of_mem _ isOther)
    rw [mergedAll]
    refine ⟨fun _ => by simp [first.1], fun other isOther => ?_⟩
    rcases List.mem_append.mp isOther with early | late
    · exact first.2 other early
    · exact others.2 other late

theorem mergedAny_solid : ∀ children : List (Condition α),
    (∀ child ∈ children, child.isSolid blank = true) →
      (children ≠ [] → mergedAny children ≠ []) ∧
        ∀ child ∈ mergedAny children, child.isSolid blank = true
  | [], _ => by simp [mergedAny]
  | child :: rest, solid => by
    have first := disjuncts_solid (isSolid_flatten child (solid child List.mem_cons_self))
    have others := mergedAny_solid rest fun other isOther =>
      solid other (List.mem_cons_of_mem _ isOther)
    rw [mergedAny]
    refine ⟨fun _ => by simp [first.1], fun other isOther => ?_⟩
    rcases List.mem_append.mp isOther with early | late
    · exact first.2 other early
    · exact others.2 other late

end

/-! ## Written parts -/

theorem joined_cons_cons (operator : Token α) (first second : Written α) (rest : List (Written α)) :
    Written.joined operator (first :: second :: rest) =
      let bare := [operator].intercalate ((first :: second :: rest).map Written.nested)
      ⟨bare, .opening :: bare ++ [.closing]⟩ :=
  rfl

theorem not_isBlank_joined {operator : Token α} (isOperator : ∀ value, operator ≠ .leaf value)
    {parts : List (Written α)} (present : parts ≠ [])
    (traced : ∀ part ∈ parts, part.isBlank blank = false) :
    (Written.joined operator parts).isBlank blank = false := by
  match parts with
  | [only] => exact traced only List.mem_cons_self
  | first :: second :: rest =>
    rw [joined_cons_cons, Written.isBlank, List.all_eq_false]
    refine ⟨operator, ?_, ?_⟩
    · simp [List.intercalate]
    · cases operator <;> simp_all

mutual

theorem not_isBlank_written : ∀ condition : Condition α, condition.isSolid blank = true →
    (condition.written blank).isBlank blank = false
  | leaf value, solid => by simpa [written, Written.isBlank] using solid
  | all children, solid => by
    obtain ⟨present, each⟩ := isSolid_all.mp solid
    obtain ⟨same, traced⟩ := writtenChildren_eq children each
    rw [written, same]
    exact not_isBlank_joined (by simp) (by simpa using present) (by simpa using traced)
  | any children, solid => by
    obtain ⟨present, each⟩ := isSolid_any.mp solid
    obtain ⟨same, traced⟩ := writtenChildren_eq children each
    rw [written, same]
    exact not_isBlank_joined (by simp) (by simpa using present) (by simpa using traced)

/-- No part is passed over. -/
theorem writtenChildren_eq : ∀ children : List (Condition α),
    (∀ child ∈ children, child.isSolid blank = true) →
      writtenChildren blank children = children.map (written blank) ∧
        ∀ child ∈ children, (child.written blank).isBlank blank = false
  | [], _ => ⟨rfl, by simp⟩
  | child :: rest, solid => by
    have first := not_isBlank_written child (solid child List.mem_cons_self)
    have others := writtenChildren_eq rest fun other isOther =>
      solid other (List.mem_cons_of_mem _ isOther)
    refine ⟨by simp [writtenChildren, first, others.1], ?_⟩
    exact List.forall_mem_cons.mpr ⟨first, others.2⟩

end

/-! ## Conditions that say the same -/

/-- Both conditions hold in the same cases. -/
def Agree (left right : Condition α) : Prop :=
  ∀ truth, left.holds truth = right.holds truth

/-! ## Other leaves -/

def Token.map (f : α → β) : Token α → Token β
  | leaf value => .leaf (f value)
  | and => .and
  | or => .or
  | opening => .opening
  | closing => .closing

def Written.map (f : α → β) (written : Written α) : Written β :=
  ⟨written.bare.map (Token.map f), written.nested.map (Token.map f)⟩

theorem map_intercalate_tokens (f : α → β) (operator : Token α) (parts : List (List (Token α))) :
    ([operator].intercalate parts).map (Token.map f) =
      [operator.map f].intercalate (parts.map (List.map (Token.map f))) := by
  induction parts with
  | nil => rfl
  | cons first rest ih =>
    cases rest with
    | nil => simp
    | cons second rest =>
      rw [List.intercalate_cons_cons, List.map_append, List.map_append, ih]
      simp only [List.map_cons, List.map_nil, List.intercalate_cons_cons]

theorem joined_map (f : α → β) (operator : Token α) (parts : List (Written α)) :
    Written.joined (operator.map f) (parts.map (Written.map f)) =
      (Written.joined operator parts).map f := by
  match parts with
  | [] | [_] => rfl
  | first :: second :: rest =>
    have words : ((first :: second :: rest).map (Written.map f)).map Written.nested =
        ((first :: second :: rest).map Written.nested).map (List.map (Token.map f)) := by
      rw [List.map_map, List.map_map]
      rfl
    rw [List.map_cons, List.map_cons, joined_cons_cons, joined_cons_cons, ← List.map_cons,
      ← List.map_cons, words, ← map_intercalate_tokens]
    simp [Written.map, Token.map]

theorem isBlank_map (f : α → β) (blank : β → Bool) (written : Written α) :
    (written.map f).isBlank blank = written.isBlank (blank ∘ f) := by
  rw [Written.isBlank, Written.map, List.all_map]
  refine List.all_congr rfl fun token => ?_
  cases token <;> rfl

mutual

/-- What is written for leaves is written in their places. -/
theorem written_map (f : α → β) (blank : β → Bool) : ∀ condition : Condition α,
    (condition.map f).written blank = (condition.written (blank ∘ f)).map f
  | leaf _ => rfl
  | all children => by
    rw [map, written, written, writtenChildren_map f blank children]
    exact joined_map f .and _
  | any children => by
    rw [map, written, written, writtenChildren_map f blank children]
    exact joined_map f .or _

theorem writtenChildren_map (f : α → β) (blank : β → Bool) : ∀ children : List (Condition α),
    writtenChildren blank (mapChildren f children) =
      (writtenChildren (blank ∘ f) children).map (Written.map f)
  | [] => rfl
  | child :: rest => by
    rw [mapChildren, writtenChildren, writtenChildren, written_map f blank child, isBlank_map,
      writtenChildren_map f blank rest]
    split <;> rfl

end

mutual

theorem isSolid_map (f : α → β) (blank : β → Bool) : ∀ condition : Condition α,
    (condition.map f).isSolid blank = condition.isSolid (blank ∘ f)
  | leaf _ => rfl
  | all children | any children => by
    rw [map, isSolid, isSolid, areSolid_map f blank children]
    cases children <;> rfl

theorem areSolid_map (f : α → β) (blank : β → Bool) : ∀ children : List (Condition α),
    areSolid blank (mapChildren f children) = areSolid (blank ∘ f) children
  | [] => rfl
  | child :: rest => by
    rw [mapChildren, areSolid, areSolid, isSolid_map f blank child, areSolid_map f blank rest]

end

/-- A condition is written as the condition over the texts of its leaves is. -/
theorem text_map (leafText : α → String) (condition : Condition α) :
    (condition.map leafText).text id = condition.text leafText := by
  have tokens : Token.text id ∘ Token.map leafText = Token.text leafText := by
    funext token
    cases token <;> rfl
  rw [text, Condition.tokens, written_map, Written.map, List.map_map, tokens]
  rfl

end CypherSql.Condition
