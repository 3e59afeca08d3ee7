import CypherSql.Proofs.Compilation.Origins
import CypherSql.Proofs.Compilation.Testing
import CypherSql.Proofs.Compilation.Ties
import CypherSql.Proofs.Cypher.Renaming

/-! # What the record of an expression reports

The record of an expression says which slots it reads and whether an aggregate occurs in it.  Both
are put together at every level from what the operands report, and come down to the ingredients of
the expression.

* `Bindings.denoted`, `Bindings.aggregates` — what each ingredient reads, and whether it aggregates.
* `embeds_touched` — a test for a pattern reads the slots that the names of the pattern are bound
  to.
* `Reports` — some records report what some ingredients read.
* `compile_accounts` — an expression makes its tests, and its record reports what its ingredients
  read.
* `compile_reports` — the record of an expression reports all of this, and nothing else.
-/

namespace CypherSql

open CypherSql.Cypher
open CypherSql.Graph (Scope Slot SlotKind)
open CypherSql.Sql (Fragment Lexeme)

/-! ## Names in patterns -/

theorem Cypher.Pattern.exists_mem_mentions {P : String → Prop} {pattern : Pattern} :
    (∃ name ∈ pattern.mentions, P name) ↔ (∃ given ∈ pattern.node.name, P given) ∨
      ∃ hop ∈ pattern.hops, (∃ given ∈ hop.node.name, P given) ∨
        ∃ given ∈ hop.relationship.name, P given := by
  rw [← not_iff_not]
  simpa only [not_exists, not_and, not_or] using
    Pattern.forall_mem_mentions (P := fun name => ¬P name)

namespace Compilation

/-! ## Slots in ascending lists -/

theorem eq_of_not_before {left right : Slot} (notBefore : left.before right = false)
    (notBehind : right.before left = false) : left = right := by
  obtain ⟨kind, index⟩ := left
  obtain ⟨kind', index'⟩ := right
  cases kind <;> cases kind' <;> simp [Slot.before] at notBefore notBehind ⊢ <;> omega

theorem mem_insertOrdered_self (slot : Slot) (set : List Slot) :
    slot ∈ insertOrdered Slot.before slot set := by
  induction set with
  | nil => exact List.mem_singleton_self slot
  | cons first rest ih =>
    unfold insertOrdered
    split
    · exact List.mem_cons_self
    · next notBefore =>
      split
      · exact List.mem_cons_of_mem _ ih
      · next notBehind =>
        obtain rfl := eq_of_not_before (by simpa using notBefore) (by simpa using notBehind)
        exact List.mem_cons_self

theorem mem_insertOrdered {slot other : Slot} {set : List Slot} :
    slot ∈ insertOrdered Slot.before other set ↔ slot = other ∨ slot ∈ set := by
  constructor
  · exact mem_of_mem_insertOrdered
  · rintro (rfl | early)
    · exact mem_insertOrdered_self slot set
    · exact Graph.subset_insertOrdered early

theorem mem_unionOrdered {slot : Slot} {set slots : List Slot} :
    slot ∈ unionOrdered Slot.before set slots ↔ slot ∈ set ∨ slot ∈ slots := by
  unfold unionOrdered
  induction slots generalizing set with
  | nil => simp
  | cons first rest ih =>
    rw [List.foldl_cons, ih, mem_insertOrdered, List.mem_cons, or_comm (a := slot = first),
      or_assoc]

theorem mem_reads_ofParts {slot : Slot} {sql : Fragment} {parts : List Compiled} :
    slot ∈ (Compiled.ofParts sql parts).reads ↔ ∃ part ∈ parts, slot ∈ part.reads := by
  have folded : ∀ set, slot ∈ parts.foldl
      (fun found part => unionOrdered Slot.before found part.reads) set ↔
        slot ∈ set ∨ ∃ part ∈ parts, slot ∈ part.reads := by
    induction parts with
    | nil => simp
    | cons first rest ih =>
      intro set
      rw [List.foldl_cons, ih, mem_unionOrdered, List.exists_mem_cons_iff, or_assoc]
  exact (folded []).trans (by simp)

/-! ## Slots that a pattern touches -/

namespace Embedding

variable {outer : Graph} (embedding : Embedding) (scope : Scope)

theorem mem_touched_tie {slot inner found : Slot} :
    slot ∈ (embedding.tie inner found).touched ↔ slot ∈ embedding.touched ∨ slot = found := by
  have touched : (embedding.tie inner found).touched =
      insertOrdered Slot.before found embedding.touched := by
    unfold Embedding.tie
    dsimp only
    split <;> rfl
  rw [touched, mem_insertOrdered, or_comm]

theorem tieOuter_touches (name : Option String) (kind : SlotKind) (labels : List String)
    (index : Nat) :
    Yields outer
      (fun after => ∀ slot, slot ∈ after.touched ↔
        slot ∈ embedding.touched ∨ ∃ given ∈ name, outer.slot? given = some slot)
      (embedding.tieOuter name kind labels scope index) := by
  apply yields_bind (mentionOuter_yields outer name ⟨kind, index⟩ labels scope)
  intro found isFound
  have named : ∀ slot, (∃ given ∈ name, outer.slot? given = some slot) ↔
      found.map (fun index => (⟨kind, index⟩ : Slot)) = some slot := by
    intro slot
    rw [← isFound, Mention.outer?, Option.bind_eq_some_iff]
    rfl
  cases found with
  | none =>
    apply yields_pure
    intro slot
    rw [named]
    simp
  | some index =>
    apply yields_pure
    intro slot
    rw [named, mem_touched_tie]
    simp [eq_comm]

theorem addNode_touches (node : NodePattern) :
    Yields outer
      (fun added => ∀ slot, slot ∈ added.2.touched ↔
        slot ∈ embedding.touched ∨ ∃ given ∈ node.name, outer.slot? given = some slot)
      (embedding.addNode scope node) := by
  apply yields_bind (yields_liftBinding _)
  rintro ⟨index, graph⟩ _
  apply yields_bind (tieOuter_touches _ scope node.name .node node.labels index)
  exact fun _ touched => yields_pure touched

theorem addRelation_touches (relationship : RelationshipPattern) (left right : Nat) :
    Yields outer
      (fun after => ∀ slot, slot ∈ after.touched ↔
        slot ∈ embedding.touched ∨ ∃ given ∈ relationship.name, outer.slot? given = some slot)
      (embedding.addRelation scope relationship left right) := by
  apply yields_bind (yields_liftBinding _)
  rintro ⟨index, graph⟩ _
  exact tieOuter_touches _ scope relationship.name .relation relationship.labels index

theorem addHops_touches (previous : Nat) (hops : List Hop) :
    Yields outer
      (fun after => ∀ slot, slot ∈ after.touched ↔
        slot ∈ embedding.touched ∨
          ∃ hop ∈ hops, (∃ given ∈ hop.node.name, outer.slot? given = some slot) ∨
            ∃ given ∈ hop.relationship.name, outer.slot? given = some slot)
      (embedding.addHops scope previous hops) := by
  induction hops generalizing embedding previous with
  | nil => exact yields_pure fun slot => by simp
  | cons hop rest ih =>
    apply yields_bind (addNode_touches embedding scope hop.node)
    rintro ⟨next, withNode⟩ ofNode
    apply yields_bind (addRelation_touches withNode scope hop.relationship previous next)
    intro withRelation ofRelation
    refine (ih withRelation next).weaken fun after ofRest slot => ?_
    rw [ofRest, ofRelation, ofNode, List.exists_mem_cons_iff, or_assoc, or_assoc, or_assoc]

end Embedding

/-- A test for a pattern touches the outer slots that the names of the pattern are bound to. -/
theorem embeds_touched {outer : Graph} {pattern : Pattern} {embedding : Embedding}
    (isEmbedding : embeds outer pattern = some embedding) (slot : Slot) :
    slot ∈ embedding.touched ↔ ∃ name ∈ pattern.mentions, outer.slot? name = some slot := by
  have yields : Yields outer
      (fun embedding => ∀ slot, slot ∈ embedding.touched ↔
        ∃ name ∈ pattern.mentions, outer.slot? name = some slot)
      (Embedding.ofPattern (.test 0) pattern) := by
    apply yields_bind (Embedding.addNode_touches .empty (.test 0) pattern.node)
    rintro ⟨start, first⟩ ofNode
    refine (Embedding.addHops_touches first (.test 0) start pattern.hops).weaken ?_
    intro after ofHops slot
    rw [ofHops, ofNode, Pattern.exists_mem_mentions]
    simp [Embedding.empty]
  exact (yields ⟨outer, 0⟩ rfl).2 embedding (toOption_eq_some.mp isEmbedding) slot

/-! ## What ingredients read -/

/-- The slots that an ingredient reads.  A name reads the slot that it is bound to.  A name that was
given to an expression reads what the expression does, or its slot where a property is taken. -/
def Bindings.denoted (bindings : Bindings) (graph : Graph) : Ingredient → List Slot
  | .name name path =>
    match graph.slot? name, bindings.find? name with
    | some slot, _ => [slot]
    | none, some given => if path.isEmpty then given.reads else given.slot.toList
    | none, none => []
  | .pattern pattern => pattern.mentions.filterMap graph.slot?
  | .literal _ | .call _ | .countAll => []

/-- Whether an ingredient aggregates.  A name does that was given to an aggregate, unless a property
is taken. -/
def Bindings.aggregates (bindings : Bindings) (graph : Graph) : Ingredient → Bool
  | .name name path =>
    match graph.slot? name, bindings.find? name with
    | none, some given => path.isEmpty && given.aggregates
    | _, _ => false
  | ingredient => ingredient.aggregates

/-- Together, the records report what the ingredients read and whether one aggregates.  Where a
property is taken from what a name was given to, this is a slot. -/
structure Reports (bindings : Bindings) (graph : Graph) (parts : List Ingredient)
    (made : List Compiled) : Prop where
  reads : ∀ slot, (∃ part ∈ made, slot ∈ part.reads) ↔
    ∃ ingredient ∈ parts, slot ∈ bindings.denoted graph ingredient
  aggregates : (∃ part ∈ made, part.aggregates = true) ↔
    ∃ ingredient ∈ parts, bindings.aggregates graph ingredient = true
  taken : ∀ name path given, .name name path ∈ parts → graph.slot? name = none →
    bindings.find? name = some given → path = [] ∨ given.slot.isSome = true

namespace Reports

variable {bindings : Bindings} {graph : Graph} {parts more : List Ingredient}
  {made others : List Compiled} {first : Compiled}

theorem nil : Reports bindings graph [] [] :=
  ⟨by simp, by simp, by simp⟩

theorem append (reports : Reports bindings graph parts made)
    (reportsMore : Reports bindings graph more others) :
    Reports bindings graph (parts ++ more) (made ++ others) where
  reads slot := by
    simp only [List.mem_append, or_and_right, exists_or, reports.reads, reportsMore.reads]
  aggregates := by
    simp only [List.mem_append, or_and_right, exists_or, reports.aggregates,
      reportsMore.aggregates]
  taken name path given isOne := by
    rcases List.mem_append.mp isOne with early | late
    · exact reports.taken name path given early
    · exact reportsMore.taken name path given late

theorem cons (reports : Reports bindings graph parts [first])
    (reportsMore : Reports bindings graph more others) :
    Reports bindings graph (parts ++ more) (first :: others) :=
  reports.append reportsMore

/-- One record takes over what several report. -/
theorem merged (reports : Reports bindings graph parts made) {whole : Compiled}
    (reads : ∀ slot, slot ∈ whole.reads ↔ ∃ part ∈ made, slot ∈ part.reads)
    (aggregates : whole.aggregates = made.any Compiled.aggregates) :
    Reports bindings graph parts [whole] where
  reads slot := by
    rw [← reports.reads, ← reads]
    simp
  aggregates := by
    rw [← reports.aggregates, ← List.any_eq_true (l := made), ← aggregates]
    simp
  taken := reports.taken

theorem ofParts (reports : Reports bindings graph parts made) (sql : Fragment) :
    Reports bindings graph parts [.ofParts sql made] :=
  reports.merged (fun _ => mem_reads_ofParts) rfl

theorem disjunction (reports : Reports bindings graph parts made) :
    Reports bindings graph parts [.disjunction made] :=
  (reports.ofParts (.joined .or (made.map Compiled.operand))).merged
    (fun slot => by simp [Compiled.disjunction, Compiled.chain])
    (by simp [Compiled.disjunction, Compiled.chain])

theorem behind (reports : Reports bindings graph parts [first]) (condition : Bool)
    (operator : Lexeme) :
    Reports bindings graph parts [if condition then .behind operator first else first] := by
  split
  · exact reports.ofParts _
  · exact reports

theorem stepsIfAny (reports : Reports bindings graph parts [first])
    {rest : List (Lexeme × Compiled)} (reportsRest : Reports bindings graph more (rest.map (·.2))) :
    Reports bindings graph (parts ++ more) [if rest.isEmpty then first else .steps first rest] := by
  have both := reports.cons reportsRest
  split
  · next empty =>
    obtain rfl : rest = [] := by simpa using empty
    exact both
  · exact both.ofParts _

/-- A count aggregates, and reads what it counts. -/
theorem counted (reports : Reports bindings graph parts made) {function : String}
    (isCount : Text.sameIgnoringCase function "COUNT" = true) (distinct : Bool)
    (argument : Fragment) :
    Reports bindings graph (.call function :: parts)
      [.ofAggregate (.count distinct) argument made] where
  reads slot := by
    have ofParts := (reports.ofParts argument).reads slot
    rw [List.exists_mem_cons_iff (l := parts), ← ofParts]
    simp [Compiled.ofAggregate, Compiled.ofParts, Bindings.denoted]
  aggregates := by
    simp [Compiled.ofAggregate, Bindings.aggregates, Ingredient.aggregates, isCount]
  taken name path given isOne :=
    reports.taken name path given ((List.mem_cons.mp isOne).resolve_left nofun)

theorem alone (reports : Reports bindings graph parts made) :
    Reports bindings graph (parts ++ []) made :=
  (List.append_nil parts).symm ▸ reports

/-- One ingredient, and a record that reports what it reads. -/
theorem single {ingredient : Ingredient}
    (reads : ∀ slot, slot ∈ first.reads ↔ slot ∈ bindings.denoted graph ingredient)
    (aggregates : first.aggregates = bindings.aggregates graph ingredient)
    (taken : ∀ name path given, .name name path = ingredient → graph.slot? name = none →
      bindings.find? name = some given → path = [] ∨ given.slot.isSome = true) :
    Reports bindings graph [ingredient] [first] where
  reads slot := by simp [reads]
  aggregates := by simp [aggregates]
  taken name path given isOne := taken name path given (List.mem_singleton.mp isOne)

theorem literal (value : Literal) (sql : Fragment) :
    Reports bindings graph [.literal value] [.scalar sql] :=
  .single (by simp [Compiled.scalar, Bindings.denoted]) rfl nofun

theorem countAll :
    Reports bindings graph [.countAll] [.ofAggregate (.count false) [.star] []] :=
  .single (by simp [Compiled.ofAggregate, Compiled.ofParts, Bindings.denoted]) rfl nofun

end Reports

/-! ## Steps of the compiler -/

/-- A computation makes the tests of some ingredients, and the records that it gives report what
they read. -/
abbrev Accounts {α : Type} (bindings : Bindings) (outer : Graph) (parts : List Ingredient)
    (records : α → List Compiled) (computation : Compile α) : Prop :=
  Performs bindings.settings outer parts
    (fun value => Reports bindings outer parts (records value)) computation

section

variable {bindings : Bindings} {outer : Graph}

/-- Where there is one operand, it stands for the whole level. -/
theorem accounts_alone {α : Type} {parts : List Ingredient} {records : α → List Compiled}
    {computation : Compile α} (accounts : Accounts bindings outer parts records computation) :
    Accounts bindings outer (parts ++ []) records computation :=
  (List.append_nil parts).symm ▸ accounts

theorem reads_compileSlot (slot : Slot) (path : List String) :
    (compileSlot slot path).reads = [slot] := by
  unfold compileSlot
  split <;> rfl

theorem aggregates_compileSlot (slot : Slot) (path : List String) :
    (compileSlot slot path).aggregates = false := by
  unfold compileSlot
  split <;> rfl

theorem compileName_accounts (name : String) (path : List String) :
    Accounts bindings outer [.name name path] ([·]) (compileName bindings name path) := by
  apply performs_get
  intro state same
  rw [Graph.slot?_eq_of_unscoped same]
  cases bound : outer.slot? name with
  | some slot =>
    apply performs_pure rfl
    apply Reports.single
    · simp [reads_compileSlot, Bindings.denoted, bound]
    · simp [aggregates_compileSlot, Bindings.aggregates, bound]
    · rintro _ _ given ⟨⟩ unbound
      nomatch unbound.symm.trans bound
  | none =>
    cases isGiven : bindings.find? name with
    | some given =>
      dsimp only
      split
      · next bare =>
        obtain rfl : path = [] := List.isEmpty_iff.mp bare
        apply performs_pure rfl
        apply Reports.single
        · simp [Bindings.denoted, bound, isGiven]
        · simp [Bindings.aggregates, bound, isGiven]
        · rintro _ _ other ⟨⟩ _ _
          exact .inl rfl
      · next taken =>
        split
        · next slot isSlot =>
          apply performs_pure rfl
          apply Reports.single
          · simp [reads_compileSlot, Bindings.denoted, bound, isGiven, taken, isSlot]
          · simp [aggregates_compileSlot, Bindings.aggregates, bound, isGiven, taken]
          · rintro _ _ other ⟨⟩ _ isOther
            obtain rfl := Option.some.inj (isGiven.symm.trans isOther)
            exact .inr (Option.isSome_iff_exists.mpr ⟨slot, isSlot⟩)
        · exact performs_throw _
    | none =>
      dsimp only
      split
      · apply performs_pure rfl
        apply Reports.single
        · simp [Compiled.scalar, Bindings.denoted, bound, isGiven]
        · simp [Compiled.scalar, Bindings.aggregates, bound, isGiven]
        · rintro _ _ given ⟨⟩ _ isOther
          nomatch isGiven.symm.trans isOther
      · exact performs_throw _

/-- The literal of a string test reads nothing. -/
theorem applyTests_accounts {parts : List Ingredient} {subject : Compiled}
    (reports : Reports bindings outer parts [subject]) (tests : List (StringOperator × Term)) :
    Performs bindings.settings outer (testedIngredients tests)
      (fun value => Reports bindings outer (parts ++ testedIngredients tests) [value])
      (applyTests subject tests) := by
  unfold applyTests
  split
  · exact performs_pure rfl reports.alone
  · next operator term =>
    split
    · next text isText =>
      rw [testedIngredients, testedIngredients, Lexicon.stringOf?_eq_some isText, List.append_nil]
      refine performs_pure rfl ?_
      have silent : Reports bindings outer [.literal (.string text)] [] := by
        constructor <;> simp [Bindings.denoted, Bindings.aggregates, Ingredient.aggregates]
      exact (reports.append silent).ofParts _
    · exact performs_throw _
  · exact performs_refuse _

theorem count_accounts {function : String}
    (isCount : Text.sameIgnoringCase function "COUNT" = true) {parts : List Ingredient}
    {argument : Compiled} (reports : Reports bindings outer parts [argument]) (distinct : Bool) :
    Performs bindings.settings outer []
      (fun value => Reports bindings outer (.call function :: parts) [value])
      (count argument distinct) := by
  unfold count
  split
  · exact performs_refuse _
  · exact performs_pure rfl (reports.counted isCount distinct _)

theorem existence_accounts (pattern : Pattern) :
    Accounts bindings outer [.pattern pattern] ([·]) (existence bindings.settings pattern) := by
  apply performs_existence
  intro embedding isEmbedding
  refine .single (fun slot => ?_) rfl nofun
  simp only [Bindings.denoted, List.mem_filterMap]
  exact embeds_touched isEmbedding slot

/-! ## Whole expressions -/

mutual

theorem compile_accounts : ∀ expression : Expression,
    Accounts bindings outer expression.ingredients ([·]) (compile bindings expression)
  | ⟨[]⟩ => performs_refuse _
  | ⟨[only]⟩ => accounts_alone (compileExclusion_accounts true only)
  | ⟨first :: second :: rest⟩ =>
    performs_map (compileExclusions_accounts (first :: second :: rest)) fun _ reports =>
      reports.disjunction

theorem compileExclusions_accounts : ∀ operands,
    Accounts bindings outer (exclusionsIngredients operands) id
      (compileExclusions bindings operands)
  | [] => performs_pure rfl .nil
  | operand :: rest =>
    performs_bind (compileExclusion_accounts false operand) fun _ first =>
      performs_map (compileExclusions_accounts rest) fun _ others => first.cons others

theorem compileExclusion_accounts (whole : Bool) : ∀ operand : Exclusion,
    Accounts bindings outer operand.ingredients ([·]) (compileExclusion bindings whole operand)
  | ⟨[]⟩ => performs_refuse _
  | ⟨[only]⟩ => accounts_alone (compileConjunction_accounts whole only)
  | ⟨_ :: _ :: _⟩ => performs_refuse _

theorem compileConjunction_accounts (whole : Bool) : ∀ operand : Conjunction,
    Accounts bindings outer operand.ingredients ([·]) (compileConjunction bindings whole operand)
  | ⟨[]⟩ => performs_refuse _
  | ⟨[only]⟩ => accounts_alone (compileComparison_accounts whole only)
  | ⟨first :: second :: rest⟩ =>
    performs_map (compileComparisons_accounts (first :: second :: rest)) fun _ reports =>
      reports.ofParts _

theorem compileComparisons_accounts : ∀ operands,
    Accounts bindings outer (comparisonsIngredients operands) id
      (compileComparisons bindings operands)
  | [] => performs_pure rfl .nil
  | operand :: rest =>
    performs_bind (compileComparison_accounts false operand) fun _ first =>
      performs_map (compileComparisons_accounts rest) fun _ others => first.cons others

theorem compileComparison_accounts (whole : Bool) : ∀ operand : Comparison,
    Accounts bindings outer operand.ingredients ([·]) (compileComparison bindings whole operand)
  | ⟨_, left, rest⟩ =>
    performs_bind (compileAddition_accounts _ left) fun _ first =>
      performs_map (compileCompared_accounts first rest) fun _ compared => compared.behind _ _

theorem compileCompared_accounts {parts : List Ingredient} {first : Compiled}
    (reports : Reports bindings outer parts [first]) : ∀ rest,
    Performs bindings.settings outer (comparedIngredients rest)
      (fun value => Reports bindings outer (parts ++ comparedIngredients rest) [value])
      (compileCompared bindings first rest)
  | [] => performs_pure rfl reports.alone
  | [(_, right)] =>
    performs_map (accounts_alone (compileAddition_accounts false right)) fun _ second =>
      (reports.append second).ofParts _
  | _ :: _ :: _ => performs_refuse _

theorem compileAddition_accounts (whole : Bool) : ∀ operand : Addition,
    Accounts bindings outer operand.ingredients ([·]) (compileAddition bindings whole operand)
  | ⟨first, rest⟩ =>
    performs_bind (compileMultiplication_accounts _ first) fun _ left =>
      performs_map (compileAdded_accounts rest) fun _ right => left.stepsIfAny right

theorem compileAdded_accounts : ∀ rest,
    Accounts bindings outer (addedIngredients rest) (List.map Prod.snd) (compileAdded bindings rest)
  | [] => performs_pure rfl .nil
  | (_, operand) :: rest =>
    performs_bind (compileMultiplication_accounts false operand) fun _ first =>
      performs_map (compileAdded_accounts rest) fun _ others => first.cons others

theorem compileMultiplication_accounts (whole : Bool) : ∀ operand : Multiplication,
    Accounts bindings outer operand.ingredients ([·])
      (compileMultiplication bindings whole operand)
  | ⟨first, rest⟩ =>
    performs_bind (compilePower_accounts _ first) fun _ left =>
      performs_map (compileMultiplied_accounts rest) fun _ right => left.stepsIfAny right

theorem compileMultiplied_accounts : ∀ rest,
    Accounts bindings outer (multipliedIngredients rest) (List.map Prod.snd)
      (compileMultiplied bindings rest)
  | [] => performs_pure rfl .nil
  | (_, operand) :: rest =>
    performs_bind (compilePower_accounts false operand) fun _ first =>
      performs_map (compileMultiplied_accounts rest) fun _ others => first.cons others

theorem compilePower_accounts (whole : Bool) : ∀ operand : Power,
    Accounts bindings outer operand.ingredients ([·]) (compilePower bindings whole operand)
  | ⟨[]⟩ => performs_refuse _
  | ⟨[only]⟩ => accounts_alone (compileSigned_accounts whole only)
  | ⟨first :: second :: rest⟩ =>
    performs_bind (compileSigned_accounts false first) fun _ base =>
      performs_map (compileSigneds_accounts (second :: rest)) fun _ exponents =>
        (base.cons exponents).ofParts _

theorem compileSigneds_accounts : ∀ operands,
    Accounts bindings outer (signedsIngredients operands) id (compileSigneds bindings operands)
  | [] => performs_pure rfl .nil
  | operand :: rest =>
    performs_bind (compileSigned_accounts false operand) fun _ first =>
      performs_map (compileSigneds_accounts rest) fun _ others => first.cons others

theorem compileSigned_accounts (whole : Bool) : ∀ operand : Signed,
    Accounts bindings outer operand.ingredients ([·]) (compileSigned bindings whole operand)
  | ⟨_, term, tests⟩ =>
    performs_bind (compileTerm_accounts _ term) fun _ subject =>
      performs_map (applyTests_accounts subject tests) fun _ tested => tested.behind _ _

theorem compileTerm_accounts (whole : Bool) : ∀ term : Term,
    Accounts bindings outer term.ingredients ([·]) (compileTerm bindings whole term)
  | ⟨.name name, path⟩ => compileName_accounts name path
  | ⟨.literal value, path⟩ =>
    performs_bind (performs_requireNoPath _ path) fun _ _ =>
      compileAtom_accounts whole (.literal value)
  | ⟨.call name distinct arguments, path⟩ =>
    performs_bind (performs_requireNoPath _ path) fun _ _ =>
      compileAtom_accounts whole (.call name distinct arguments)
  | ⟨.countAll, path⟩ =>
    performs_bind (performs_requireNoPath _ path) fun _ _ => compileAtom_accounts whole .countAll
  | ⟨.parenthesized inner, path⟩ =>
    performs_bind (performs_requireNoPath _ path) fun _ _ =>
      compileAtom_accounts whole (.parenthesized inner)
  | ⟨.pattern pattern, path⟩ =>
    performs_bind (performs_requireNoPath _ path) fun _ _ =>
      compileAtom_accounts whole (.pattern pattern)

theorem compileAtom_accounts (whole : Bool) : ∀ atom : Atom,
    Accounts bindings outer atom.ingredients ([·]) (compileAtom bindings whole atom)
  | .name name => compileName_accounts name []
  | .literal value => performs_pure rfl (.literal value _)
  | .call name distinct arguments => by
    rw [compileAtom]
    split
    · next isCount => exact compileCount_accounts isCount distinct arguments
    · exact performs_throw _
  | .countAll => performs_pure rfl .countAll
  | .parenthesized inner =>
    performs_map (compile_accounts inner) fun _ reports => by
      split
      · exact reports
      · exact reports.ofParts _
  | .pattern pattern => existence_accounts pattern

theorem compileCount_accounts {function : String}
    (isCount : Text.sameIgnoringCase function "COUNT" = true) (distinct : Bool) :
    ∀ arguments : List Expression,
      Accounts bindings outer (.call function :: argumentsIngredients arguments) ([·])
        (compileCount bindings distinct arguments)
  | [argument] =>
    performs_bind (compile_accounts argument) fun _ reports =>
      count_accounts isCount (reports.alone) distinct
  | [] => performs_refuse _
  | _ :: _ :: _ => performs_refuse _

end

end

/-! ## Names that were given to aggregates -/

/-- Whether an ingredient is an aggregate, or a name that was given to one. -/
def Bindings.mentionsAggregate (bindings : Bindings) (graph : Graph) : Ingredient → Bool
  | .name name _ =>
    match graph.slot? name, bindings.find? name with
    | none, some given => given.aggregates
    | _, _ => false
  | ingredient => ingredient.aggregates

/-- A property is taken from slots only, and a slot does not aggregate.  So what is taken from a
name need not be looked at. -/
theorem Reports.aggregates_eq {bindings : Bindings} {graph : Graph} {parts : List Ingredient}
    {made : List Compiled} (reports : Reports bindings graph parts made) (given : bindings.Given)
    {ingredient : Ingredient} (isOne : ingredient ∈ parts) :
    bindings.aggregates graph ingredient = bindings.mentionsAggregate graph ingredient := by
  cases ingredient with
  | name name path =>
    simp only [Bindings.aggregates, Bindings.mentionsAggregate]
    cases bound : graph.slot? name with
    | some slot => rfl
    | none =>
      cases isGiven : bindings.find? name with
      | none => rfl
      | some found =>
        rcases reports.taken name path found isOne bound isGiven with rfl | isSlot
        · rfl
        · obtain ⟨slot, isSlot⟩ := Option.isSome_iff_exists.mp isSlot
          have laid := (given.made (made_laid bindings.settings)).find? isGiven
          simp [(laid.slot slot isSlot).2.2.2]
  | literal | call | countAll | pattern => rfl

/-! ## The record of an expression -/

theorem reports_of_compile {bindings : Bindings} {expression : Expression} {state : CompilerState}
    {compiled : Compiled}
    (compiles : ((compile bindings expression).run.run state).1 = .ok compiled) :
    Reports bindings state.graph expression.ingredients [compiled] := by
  have accounts : Accounts bindings state.graph expression.ingredients ([·])
    (compile bindings expression) := compile_accounts expression
  obtain ⟨_, _, _, whole⟩ := accounts state rfl
  exact (whole compiled compiles).2

/-- The record of an expression reports the slots that its ingredients read, and no others.  It
reports an aggregate where an ingredient aggregates.  If names were given to expressions only, it
does so where `COUNT` is called or a name is mentioned that was given to an aggregate. -/
theorem compile_reports {bindings : Bindings} {expression : Expression} {state : CompilerState}
    {compiled : Compiled}
    (compiles : ((compile bindings expression).run.run state).1 = .ok compiled) :
    (∀ slot, slot ∈ compiled.reads ↔
      ∃ ingredient ∈ expression.ingredients, slot ∈ bindings.denoted state.graph ingredient) ∧
    (compiled.aggregates = true ↔
      ∃ ingredient ∈ expression.ingredients,
        bindings.aggregates state.graph ingredient = true) ∧
    (bindings.Given →
      (compiled.aggregates = true ↔
        ∃ ingredient ∈ expression.ingredients,
          bindings.mentionsAggregate state.graph ingredient = true)) := by
  have reports := reports_of_compile compiles
  have aggregates : compiled.aggregates = true ↔
      ∃ ingredient ∈ expression.ingredients,
        bindings.aggregates state.graph ingredient = true := by
    rw [← reports.aggregates]
    simp
  refine ⟨fun slot => ?_, aggregates, fun given => ?_⟩
  · rw [← reports.reads]
    simp
  · rw [aggregates]
    refine exists_congr fun ingredient => and_congr_right fun isOne => ?_
    rw [reports.aggregates_eq given isOne]

/-- An item with a name for a slot, a name for a count and a pattern in it. -/
def reportedText : String :=
  "MATCH (a)-[r]->(b) WITH a AS m, COUNT(r) AS n " ++
    "RETURN n > 1 AND m.value = 'x' AND (b)-->(:ip)"

theorem compile_reports_reportedText : ∃ query progress item compiled,
    Query.parse reportedText = .ok query ∧ query.progress .standard = .ok progress ∧
      item ∈ query.returnClause.items ∧
      ((compile progress.bindings item.expression).run.run
        ⟨progress.graph, progress.nextPattern⟩).1 = .ok compiled ∧
      compiled.reads = [⟨.node, 0⟩, ⟨.node, 1⟩, ⟨.relation, 0⟩] ∧
      compiled.aggregates = true ∧
      (∀ slot, slot ∈ compiled.reads ↔ ∃ ingredient ∈ item.expression.ingredients,
        slot ∈ progress.bindings.denoted progress.graph ingredient) ∧
      (compiled.aggregates = true ↔ ∃ ingredient ∈ item.expression.ingredients,
        progress.bindings.aggregates progress.graph ingredient = true) ∧
      (compiled.aggregates = true ↔ ∃ ingredient ∈ item.expression.ingredients,
        progress.bindings.mentionsAggregate progress.graph ingredient = true) := by
  have evaluated : ((Query.parse reportedText).toOption.any fun query =>
      (query.progress .standard).toOption.any fun progress =>
        query.returnClause.items.any fun item =>
          ((compile progress.bindings item.expression).run.run
            ⟨progress.graph, progress.nextPattern⟩).1.toOption.any fun compiled =>
              compiled.reads = [⟨.node, 0⟩, ⟨.node, 1⟩, ⟨.relation, 0⟩] &&
                compiled.aggregates) = true := by
    decide +kernel
  rw [Option.any_eq_true] at evaluated
  obtain ⟨query, parsed, evaluated⟩ := evaluated
  rw [Option.any_eq_true] at evaluated
  obtain ⟨progress, progressed, evaluated⟩ := evaluated
  obtain ⟨item, isItem, evaluated⟩ := List.any_eq_true.mp evaluated
  rw [Option.any_eq_true] at evaluated
  obtain ⟨compiled, compiles, evaluated⟩ := evaluated
  obtain ⟨reads, aggregates⟩ := Bool.and_eq_true_iff.mp evaluated
  rw [toOption_eq_some] at parsed progressed compiles
  obtain ⟨allReads, allAggregates, whenGiven⟩ := compile_reports compiles
  exact ⟨query, progress, item, compiled, parsed, progressed, isItem, compiles,
    of_decide_eq_true reads, aggregates, allReads, allAggregates,
    whenGiven (progress_given progressed)⟩

end Compilation

end CypherSql
