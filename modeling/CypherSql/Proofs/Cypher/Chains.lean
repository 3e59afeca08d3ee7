import CypherSql.Proofs.Cypher.Endings

/-! # How operands and their operators are read

* `Reads` — a text is read as a value in front of every tail of some level.
* `Marks` — an operator is read between white space.
* `separated_reads_joined`, `operated_reads` — the two forms of a level: operands with one
  separator, and an operand with steps behind it.
-/

namespace CypherSql.Cypher.Parser

variable {α β γ δ : Type} {level : Nat} {rest : List Char}

/-- `parser` reads `text` as `value` in front of every tail of `level`, and what begins
there meets `opens`. -/
structure Reads (parser : Parser α) (opens : List Char → Prop) (level : Nat) (text : List Char)
    (value : α) : Prop where
  opens : ∀ rest, Tail level rest → opens (text ++ rest)
  accepts : ∀ rest, Tail level rest → parser (text ++ rest) = .accept value (dropSpaces rest)

theorem Reads.mono {parser : Parser α} {opens : List Char → Prop} {text : List Char} {value : α}
    {higher : Nat} (reads : Reads parser opens level text value) (less : level ≤ higher) :
    Reads parser opens higher text value :=
  ⟨fun rest tail => reads.opens rest (tail.mono less),
    fun rest tail => reads.accepts rest (tail.mono less)⟩

theorem Reads.weaken {parser : Parser α} {opens weaker : List Char → Prop} {text : List Char}
    {value : α} (reads : Reads parser opens level text value)
    (implies : ∀ input, opens input → weaker input) : Reads parser weaker level text value :=
  ⟨fun rest tail => implies _ (reads.opens rest tail), reads.accepts⟩

/-! ## Marks -/

/-- `parser` reads the mark `ending`, with the white space around it, as `value`. -/
def Marks (parser : Parser α) (value : α) (ending : Ending) : Prop :=
  ∀ input, dropSpaces input = input →
    spacing parser (dropSpaces (ending.chars ++ input)) = .accept value input

theorem marks_of_accepts {parser : Parser α} {value : α} {ending : Ending}
    (reads : ∀ input, parser (dropSpaces (ending.chars ++ input)) =
      .accept value (' ' :: input)) : Marks parser value ending := by
  intro input bare
  have read := reads input
  rw [← dropSpaces_dropSpaces] at read
  have spaced := spacing_accepts read
  rwa [dropSpaces_space, bare] at spaced

theorem boundary_space : Boundary (' ' :: rest) := by
  intro c isHead
  obtain rfl : ' ' = c := by simpa using isHead
  rfl

theorem marks_power : Marks (char '^') '^' .power :=
  marks_of_accepts fun _ => rfl

theorem marks_comma : Marks (char ',') ',' .comma :=
  marks_of_accepts fun _ => rfl

theorem marks_scale (operator : MultiplicativeOperator) :
    Marks multiplicativeOperator operator (.scale operator) :=
  marks_of_accepts fun _ => by cases operator <;> rfl

theorem marks_add (operator : AdditiveOperator) :
    Marks additiveOperator operator (.add operator) :=
  marks_of_accepts fun _ => by cases operator <;> rfl

theorem marks_compare (operator : ComparisonOperator) :
    Marks comparisonOperator operator (.compare operator) :=
  marks_of_accepts fun _ => by cases operator <;> rfl

theorem keyword_spaced {word : String}
    (shown : ∀ rest, dropSpaces (word.toList ++ rest) = word.toList ++ rest) :
    spacing (keyword word) (word.toList ++ ' ' :: rest) = .accept () (dropSpaces rest) := by
  have read := @keyword_accepts_self (' ' :: rest) word boundary_space
  rw [← shown] at read
  have spaced := spacing_accepts read
  rwa [dropSpaces_space] at spaced

theorem marks_keyword {word : String} {ending : Ending}
    (shape : ∀ input, dropSpaces (ending.chars ++ input) = word.toList ++ ' ' :: input) :
    Marks (keyword word) () ending :=
  marks_of_accepts fun input => by
    rw [shape]
    exact keyword_accepts_self boundary_space

theorem twoWords_accepts {first second : String} {c : Char} {others : List Char}
    (chars : second.toList = c :: others) (shown : isSpacing c = false) :
    twoWords first second (first.toList ++ ' ' :: (second.toList ++ ' ' :: rest)) =
      .accept () (' ' :: rest) := by
  have ends : ∀ d ∈ (second.toList ++ ' ' :: rest).head?, isSpacing d = false := by
    rw [chars]
    intro d isHead
    obtain rfl : c = d := by simpa using isHead
    exact shown
  have between : someCharsOf isSpacing (' ' :: (second.toList ++ ' ' :: rest)) =
      .accept [' '] (second.toList ++ ' ' :: rest) :=
    @someCharsOf_accepts _ [' '] isSpacing (by simp) (by simp [isSpacing]) ends
  rw [twoWords, bind_accepts (keyword_accepts_self boundary_space), bind_accepts between,
    keyword_accepts_self boundary_space]

theorem marks_test (operator : StringOperator) :
    Marks stringOperator operator (.test operator) := by
  refine marks_of_accepts fun input => ?_
  cases operator with
  | startsWith =>
    have shape : dropSpaces ((Ending.test .startsWith).chars ++ input) =
        "STARTS".toList ++ ' ' :: ("WITH".toList ++ ' ' :: input) := rfl
    rw [shape]
    simp only [stringOperator, oneOf]
    exact orElse_first (bind_accepts (twoWords_accepts rfl rfl))
  | endsWith =>
    have shape : dropSpaces ((Ending.test .endsWith).chars ++ input) =
        "ENDS".toList ++ ' ' :: ("WITH".toList ++ ' ' :: input) := rfl
    have notStarts : Rejects (meaning StringOperator.startsWith (twoWords "STARTS" "WITH"))
        ("ENDS".toList ++ ' ' :: ("WITH".toList ++ ' ' :: input)) := ⟨_, rfl⟩
    rw [shape]
    simp only [stringOperator, oneOf]
    rw [orElse_second notStarts]
    exact orElse_first (bind_accepts (twoWords_accepts rfl rfl))
  | contains =>
    have shape : dropSpaces ((Ending.test .contains).chars ++ input) =
        "CONTAINS".toList ++ ' ' :: input := rfl
    have notStarts : Rejects (meaning StringOperator.startsWith (twoWords "STARTS" "WITH"))
        ("CONTAINS".toList ++ ' ' :: input) := ⟨_, rfl⟩
    have notEnds : Rejects (meaning StringOperator.endsWith (twoWords "ENDS" "WITH"))
        ("CONTAINS".toList ++ ' ' :: input) := ⟨_, rfl⟩
    rw [shape]
    simp only [stringOperator, oneOf]
    rw [orElse_second notStarts, orElse_second notEnds]
    exact bind_accepts (keyword_accepts_self boundary_space)

/-! ## Loops over operators -/

theorem Ending.visible_chars (ending : Ending) : 0 < visible ending.chars := by
  cases ending with
  | test operator | scale operator | add operator | compare operator =>
    cases operator <;> decide
  | _ => decide

theorem chain_accepts {item : Parser γ} (ending : γ → Ending) (text : γ → List Char)
    {values : List γ} (ranks : ∀ value ∈ values, level ≤ (ending value).rank)
    (reads : ∀ value ∈ values, ∀ more, Tail level more →
      (ending value).Allows (text value ++ more) ∧
        item (dropSpaces ((ending value).chars ++ (text value ++ more))) =
          .accept value (dropSpaces more))
    (tail : Tail level rest) (stops : Rejects item (dropSpaces rest)) :
    Tail level (values.flatMap (fun value => (ending value).chars ++ text value) ++ rest) ∧
      many item (dropSpaces
        (values.flatMap (fun value => (ending value).chars ++ text value) ++ rest)) =
          .accept values (dropSpaces rest) := by
  refine many_reads (fun value isIn more tailLater => ?_) (fun value _ => ?_) tail stops
  · obtain ⟨allowed, read⟩ := reads value isIn more tailLater
    rw [List.append_assoc]
    exact ⟨tail_ending (ranks value isIn) allowed, read⟩
  · have shown := (ending value).visible_chars
    rw [visible_append]
    omega

/-- Operands with one separator between each two of them. -/
theorem separated_reads_joined {separator : Parser β} {mark : β} {item : Parser α}
    {ending : Ending} {opens : α → List Char → Prop} {text : α → List Char} {first : α}
    {others : List α} (marks : Marks separator mark ending)
    (free : ∀ input, ending.Allows input)
    (each : ∀ value ∈ first :: others, Reads item (opens value) ending.rank (text value) value)
    (bare : ∀ value input, opens value input → dropSpaces input = input)
    (stops : ∀ rest, Tail (ending.rank + 1) rest → Rejects separator (dropSpaces rest)) :
    Reads (separated (spacing separator) item) (opens first) (ending.rank + 1)
      (joined ending.chars ((first :: others).map text)) (first :: others) := by
  have chain : ∀ rest, Tail (ending.rank + 1) rest →
      Tail ending.rank (others.flatMap (fun value => ending.chars ++ text value) ++ rest) ∧
        many (spacing separator >>= fun _ => item) (dropSpaces
          (others.flatMap (fun value => ending.chars ++ text value) ++ rest)) =
            .accept others (dropSpaces rest) := by
    intro rest tail
    have stopped := stops rest tail
    rw [← dropSpaces_dropSpaces] at stopped
    refine chain_accepts (fun _ => ending) text (fun _ _ => le_rfl)
      (fun value isIn more tailLater => ⟨free _, ?_⟩) (tail.mono (Nat.le_succ _))
      (bind_rejects (spacing_rejects stopped))
    have operand := each value (List.mem_cons_of_mem first isIn)
    have opened := bare value _ (operand.opens more tailLater)
    rw [bind_accepts (marks _ opened), operand.accepts more tailLater]
  have firstReads := each first List.mem_cons_self
  have shape : joined ending.chars ((first :: others).map text) =
      text first ++ others.flatMap fun value => ending.chars ++ text value := by
    rw [List.map_cons, joined_eq_flatMap, List.flatMap_map]
  constructor
  · intro rest tail
    rw [shape, List.append_assoc]
    exact firstReads.opens _ (chain rest tail).1
  · intro rest tail
    obtain ⟨tailFirst, read⟩ := chain rest tail
    rw [shape, List.append_assoc]
    exact separated_reads (firstReads.accepts _ tailFirst) read

/-- An operand and the steps behind it, each with its operator. -/
theorem operated_reads (make : δ → List (α × β) → γ) (ending : α → Ending)
    (text : β → List Char) (opensStep : β → List Char → Prop) {operator : Parser α}
    {operand : Parser β} {opener : Parser δ} {opens : List Char → Prop} {textFirst : List Char}
    {first : δ} {steps : List (α × β)} (ranks : ∀ symbol, (ending symbol).rank = level)
    (marks : ∀ symbol, Marks operator symbol (ending symbol))
    (firstReads : Reads opener opens level textFirst first)
    (each : ∀ value ∈ steps, Reads operand (opensStep value.2) level (text value.2) value.2)
    (bare : ∀ value input, opensStep value input → dropSpaces input = input)
    (allowed : ∀ value ∈ steps, ∀ input, opensStep value.2 input →
      (ending value.1).Allows input)
    (stops : ∀ rest, Tail (level + 1) rest → Rejects operator (dropSpaces rest)) :
    Reads
      (do let first ← opener; let steps ← many (step operator operand); return make first steps)
      opens (level + 1)
      (textFirst ++ steps.flatMap fun value => (ending value.1).chars ++ text value.2)
      (make first steps) := by
  have chain : ∀ rest, Tail (level + 1) rest →
      Tail level
          (steps.flatMap (fun value => (ending value.1).chars ++ text value.2) ++ rest) ∧
        many (step operator operand) (dropSpaces
          (steps.flatMap (fun value => (ending value.1).chars ++ text value.2) ++ rest)) =
            .accept steps (dropSpaces rest) := by
    intro rest tail
    have stopped := stops rest tail
    rw [← dropSpaces_dropSpaces] at stopped
    refine chain_accepts (fun value : α × β => ending value.1) (fun value => text value.2)
      (fun value _ => (ranks value.1).ge) (fun value isIn more tailLater => ?_)
      (tail.mono (Nat.le_succ _)) (bind_rejects (spacing_rejects stopped))
    have read := each value isIn
    have opened := read.opens more tailLater
    refine ⟨allowed value isIn _ opened, ?_⟩
    rw [step, bind_accepts (marks value.1 _ (bare _ _ opened)),
      bind_accepts (read.accepts more tailLater)]
    rfl
  constructor
  · intro rest tail
    rw [List.append_assoc]
    exact firstReads.opens _ (chain rest tail).1
  · intro rest tail
    obtain ⟨tailFirst, read⟩ := chain rest tail
    rw [List.append_assoc, bind_accepts (firstReads.accepts _ tailFirst), bind_accepts read]
    rfl

end CypherSql.Cypher.Parser
