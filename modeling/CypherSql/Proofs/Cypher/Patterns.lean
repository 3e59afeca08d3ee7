import CypherSql.Proofs.Cypher.Words

/-! # How patterns are read

* `nodePattern_accepts`, `hop_accepts` — nodes and hops, in front of any rest.
* `pattern_accepts` — a pattern, where no further hop follows.
-/

namespace CypherSql.Cypher.Parser

open CypherSql.Text (startsName continuesName isIdentifier)

variable {rest : List Char}

/-! ## Names between marks -/

/-- A character that can end a name inside a pattern. -/
def isMark (c : Char) : Bool :=
  !isSpacing c && !continuesName c && c != '\x60'

def Marked (rest : List Char) : Prop :=
  ∃ c more, rest = c :: more ∧ isMark c = true

theorem marked_cons {c : Char} (mark : isMark c = true) : Marked (c :: rest) :=
  ⟨c, rest, rfl, mark⟩

theorem Marked.boundary (marked : Marked rest) : Boundary rest := by
  obtain ⟨c, more, rfl, mark⟩ := marked
  intro d isHead
  obtain rfl : c = d := by simpa using isHead
  simp only [isMark, Bool.and_eq_true, Bool.not_eq_true'] at mark
  exact mark.1.2

theorem Marked.dropSpaces (marked : Marked rest) : dropSpaces rest = rest := by
  obtain ⟨c, more, rfl, mark⟩ := marked
  simp only [isMark, Bool.and_eq_true, Bool.not_eq_true'] at mark
  exact dropSpaces_cons mark.1.1

theorem isSpacing_of_startsName {c : Char} (starts : startsName c = true) :
    isSpacing c = false := by
  cases spacing : isSpacing c with
  | false => rfl
  | true =>
    simp only [isSpacing, Bool.or_eq_true, beq_iff_eq] at spacing
    rcases spacing with ((rfl | rfl) | rfl) | rfl <;> exact absurd starts (by decide)

theorem dropSpaces_name {name : String} (plain : isIdentifier name = true) :
    dropSpaces (name.toList ++ rest) = name.toList ++ rest := by
  obtain ⟨first, others, chars, starts, -⟩ := isIdentifier_chars plain
  rw [chars, List.cons_append, dropSpaces_cons (isSpacing_of_startsName starts)]

theorem isFreeName_iff {name : String} :
    isFreeName name = true ↔ isIdentifier name = true ∧ isReserved name = false := by
  simp [isFreeName]

theorem symbolicName_rejects (marked : Marked rest) : Rejects symbolicName rest := by
  obtain ⟨c, more, rfl, mark⟩ := marked
  simp only [isMark, Bool.and_eq_true, Bool.not_eq_true', bne_iff_ne] at mark
  obtain ⟨⟨-, noName⟩, noQuote⟩ := mark
  have noStart : startsName c = false := by
    simp only [continuesName, Char.isAlphanum, Bool.or_eq_false_iff] at noName
    simp [startsName, noName]
  exact symbolicName_rejects_first noStart noQuote

theorem optionalName_accepts {name : Option String} (free : name.all isFreeName = true)
    (marked : Marked rest) :
    optional (spacing variableName) (nameChars name ++ rest) = .accept name rest := by
  cases name with
  | none =>
    have rejected : Rejects variableName rest := satisfying_rejects (symbolicName_rejects marked)
    rw [← marked.dropSpaces] at rejected
    exact optional_rejected (spacing_rejects rejected)
  | some name =>
    obtain ⟨plain, unreserved⟩ := isFreeName_iff.mp free
    have read := variableName_accepts plain unreserved marked.boundary
    exact optional_accepts
      (spacing_accepts_bare (dropSpaces_name plain) read marked.dropSpaces)

theorem labels_accept {β : Type} {separator : Parser β} {value : β} (mark : Char)
    (isMarked : isMark mark = true)
    (reads : ∀ d more, startsName d = true →
      separator (mark :: d :: more) = .accept value (d :: more))
    {labels : List String} (plain : labels.all isIdentifier = true) (marked : Marked rest)
    (stops : Rejects separator rest) :
    many (spacing separator >>= fun _ => spacing symbolicName)
      (labels.flatMap (fun label => mark :: label.toList) ++ rest) = .accept labels rest := by
  have each : ∀ label ∈ labels, ∀ more, Marked more →
      Marked (mark :: label.toList ++ more) ∧
        (spacing separator >>= fun _ => spacing symbolicName)
          (dropSpaces (mark :: label.toList ++ more)) = .accept label (dropSpaces more) := by
    intro label isIn more markedLater
    have isPlain := List.all_eq_true.mp plain label isIn
    have here : Marked (mark :: label.toList ++ more) := marked_cons isMarked
    have separated : separator (mark :: label.toList ++ more) =
        .accept value (label.toList ++ more) := by
      obtain ⟨first, others, chars, starts, -⟩ := isIdentifier_chars isPlain
      rw [chars]
      exact reads first (others ++ more) starts
    have named := symbolicName_accepts isPlain markedLater.boundary
    refine ⟨here, ?_⟩
    rw [here.dropSpaces, markedLater.dropSpaces,
      bind_accepts (spacing_accepts_bare here.dropSpaces separated (dropSpaces_name isPlain)),
      spacing_accepts_bare (dropSpaces_name isPlain) named markedLater.dropSpaces]
  have shown : ∀ label ∈ labels, 0 < visible (mark :: label.toList) := by
    intro label _
    simp only [isMark, Bool.and_eq_true, Bool.not_eq_true'] at isMarked
    exact visible_pos List.mem_cons_self isMarked.1.1
  rw [← marked.dropSpaces] at stops
  have stopsThere : Rejects (spacing separator >>= fun _ => spacing symbolicName)
      (dropSpaces rest) :=
    bind_rejects (spacing_rejects (by rwa [dropSpaces_dropSpaces]))
  obtain ⟨markedAll, read⟩ := many_reads each shown marked stopsThere
  rwa [markedAll.dropSpaces, marked.dropSpaces] at read

/-! ## Nodes -/

theorem labelChars_eq_flatMap {mark : Char} {labels : List String} :
    labelChars mark mark labels = labels.flatMap fun label => mark :: label.toList := by
  cases labels with
  | nil => rfl
  | cons label rest => rfl

theorem marked_labelChars {first next : Char} (isMarked : isMark first = true)
    {labels : List String} (marked : Marked rest) :
    Marked (labelChars first next labels ++ rest) := by
  cases labels with
  | nil => exact marked
  | cons label others => exact marked_cons isMarked

theorem nodePattern_accepts {node : NodePattern} (canonical : node.canonical = true) :
    nodePattern (node.chars ++ rest) = .accept node (dropSpaces rest) := by
  rw [NodePattern.canonical, Bool.and_eq_true] at canonical
  obtain ⟨free, plain⟩ := canonical
  have closing : Marked (')' :: rest) := marked_cons rfl
  have labelled : Marked (labelChars ':' ':' node.labels ++ ')' :: rest) :=
    marked_labelChars rfl closing
  have labels := labels_accept ':' rfl (fun _ _ _ => char_accepts) plain closing
    (char_rejects (by decide))
  have closed : spacing (char ')') (')' :: rest) = .accept ')' (dropSpaces rest) :=
    spacing_accepts char_accepts
  have shape : node.chars ++ rest =
      '(' :: (nameChars node.name ++ (labelChars ':' ':' node.labels ++ ')' :: rest)) := by
    simp [NodePattern.chars]
  rw [← labelChars_eq_flatMap] at labels
  rw [nodePattern, shape, bind_accepts char_accepts,
    bind_accepts (optionalName_accepts free labelled), bind_accepts labels, bind_accepts closed]
  rfl

/-! ## Relationships -/

theorem typeSeparator_accepts {d : Char} {more : List Char} (starts : startsName d = true) :
    typeSeparator ('|' :: d :: more) = .accept () (d :: more) := by
  have notColon : d ≠ ':' := by
    rintro rfl
    exact absurd starts (by decide)
  have notLong : Rejects (token "|:") ('|' :: d :: more) := by
    refine ⟨.here ('|' :: d :: more) .unexpectedInput, ?_⟩
    simp [token, restBehind, notColon.symm, unexpected]
  rw [typeSeparator, orElse_second notLong]
  rfl

theorem optionalTypes_accept {labels : List String} (plain : labels.all isIdentifier = true) :
    ∃ types, optional relationshipTypes (labelChars ':' '|' labels ++ ']' :: rest) =
      .accept types (']' :: rest) ∧ types.getD [] = labels := by
  have closing : Marked (']' :: rest) := marked_cons rfl
  cases labels with
  | nil => exact ⟨none, optional_rejected (bind_rejects ⟨_, rfl⟩), rfl⟩
  | cons label others =>
    rw [List.all_cons, Bool.and_eq_true] at plain
    have later := labels_accept '|' rfl (fun _ _ => typeSeparator_accepts) plain.2 closing
      ⟨_, rfl⟩
    -- The first type stands behind a colon and the others behind bars.
    have others_marked : Marked
        (others.flatMap (fun other => '|' :: other.toList) ++ ']' :: rest) := by
      rw [← labelChars_eq_flatMap]
      exact marked_labelChars rfl closing
    have first := spacing_accepts_bare (dropSpaces_name plain.1)
      (symbolicName_accepts plain.1 others_marked.boundary) others_marked.dropSpaces
    have colon : spacing (char ':') (labelChars ':' '|' (label :: others) ++ ']' :: rest) =
        .accept ':' (label.toList ++
          (others.flatMap (fun other => '|' :: other.toList) ++ ']' :: rest)) := by
      rw [labelChars, List.append_assoc, List.cons_append]
      exact spacing_accepts_bare rfl char_accepts (dropSpaces_name plain.1)
    refine ⟨some (label :: others), optional_accepts ?_, rfl⟩
    rw [relationshipTypes, bind_accepts colon, separated_reads first later]

theorem relationshipDetail_accepts {relationship : RelationshipPattern}
    (canonical : relationship.canonical = true) :
    relationshipDetail ('[' :: (nameChars relationship.name ++
      (labelChars ':' '|' relationship.labels ++ ']' :: rest))) =
        .accept (relationship.name, relationship.labels) (dropSpaces rest) := by
  rw [RelationshipPattern.canonical, Bool.and_eq_true] at canonical
  obtain ⟨free, plain⟩ := canonical
  have labelled : Marked (labelChars ':' '|' relationship.labels ++ ']' :: rest) :=
    marked_labelChars rfl (marked_cons rfl)
  have opens : dropSpaces (nameChars relationship.name ++
      (labelChars ':' '|' relationship.labels ++ ']' :: rest)) =
        nameChars relationship.name ++
          (labelChars ':' '|' relationship.labels ++ ']' :: rest) := by
    cases named : relationship.name with
    | none => exact labelled.dropSpaces
    | some name =>
      rw [named] at free
      exact dropSpaces_name (isFreeName_iff.mp free).1
  obtain ⟨types, typesRead, areLabels⟩ := @optionalTypes_accept rest _ plain
  have closed : spacing (char ']') (']' :: rest) = .accept ']' (dropSpaces rest) :=
    spacing_accepts char_accepts
  rw [relationshipDetail, bind_accepts (spacing_accepts_bare rfl char_accepts opens),
    bind_accepts (optionalName_accepts free labelled), bind_accepts typesRead,
    bind_accepts closed, areLabels]
  rfl

theorem relationshipPattern_accepts {relationship : RelationshipPattern}
    (canonical : relationship.canonical = true) :
    relationshipPattern (relationship.chars ++ '(' :: rest) =
      .accept relationship ('(' :: rest) := by
  obtain ⟨name, labels, leftArrow, rightArrow⟩ := relationship
  have right : optional (spacedChar '>') ((if rightArrow then ['>'] else []) ++ '(' :: rest) =
      .accept (if rightArrow then some '>' else none) ('(' :: rest) := by
    cases rightArrow <;> rfl
  have left : ∀ more, optional (char '<') ((if leftArrow then ['<'] else []) ++ '-' :: more) =
      .accept (if leftArrow then some '<' else none) ('-' :: more) := by
    intro more
    cases leftArrow <;> rfl
  have dash : ∀ more, spacedChar '-' ('-' :: more) = .accept '-' more := fun more => rfl
  have detail := @relationshipDetail_accepts
    ('-' :: ((if rightArrow then ['>'] else []) ++ '(' :: rest)) _ canonical
  have shape : RelationshipPattern.chars ⟨name, labels, leftArrow, rightArrow⟩ ++ '(' :: rest =
      (if leftArrow then ['<'] else []) ++ '-' :: '[' :: (nameChars name ++
        (labelChars ':' '|' labels ++ ']' :: '-' ::
          ((if rightArrow then ['>'] else []) ++ '(' :: rest))) := by
    simp [RelationshipPattern.chars]
  rw [relationshipPattern, shape, bind_accepts (left _), bind_accepts (dash _),
    bind_accepts (optional_accepts detail), dropSpaces_cons rfl, bind_accepts (dash _),
    bind_accepts right]
  -- What is left is to count the arrowheads that were read.
  cases leftArrow <;> cases rightArrow <;> rfl

theorem dropSpaces_relationship {relationship : RelationshipPattern} :
    dropSpaces (relationship.chars ++ rest) = relationship.chars ++ rest := by
  cases arrow : relationship.leftArrow <;> simp [RelationshipPattern.chars, arrow] <;> rfl

/-! ## Hops and patterns -/

theorem hop_accepts {hop : Hop} (canonical : hop.canonical = true) :
    Parser.hop (hop.chars ++ rest) = .accept hop (dropSpaces rest) := by
  rw [Hop.canonical, Bool.and_eq_true] at canonical
  obtain ⟨relationshipCanonical, nodeCanonical⟩ := canonical
  obtain ⟨more, isNode⟩ : ∃ more, hop.node.chars ++ rest = '(' :: more := ⟨_, rfl⟩
  have relationship : spacing relationshipPattern (hop.relationship.chars ++ '(' :: more) =
      .accept hop.relationship ('(' :: more) :=
    spacing_accepts_bare dropSpaces_relationship
      (relationshipPattern_accepts relationshipCanonical) rfl
  have node : spacing nodePattern ('(' :: more) = .accept hop.node (dropSpaces rest) := by
    have read := @nodePattern_accepts rest _ nodeCanonical
    rw [isNode] at read
    exact spacing_accepts_bare rfl read dropSpaces_dropSpaces
  rw [Parser.hop, Hop.chars, List.append_assoc, isNode, bind_accepts relationship,
    bind_accepts (inContext_accepts node)]
  rfl

theorem pattern_accepts {pattern : Pattern} (canonical : pattern.canonical = true)
    (ends : Rejects Parser.hop (dropSpaces rest)) :
    Parser.pattern (pattern.chars ++ rest) = .accept pattern (dropSpaces rest) := by
  rw [Pattern.canonical, Bool.and_eq_true] at canonical
  obtain ⟨nodeCanonical, hopsCanonical⟩ := canonical
  have each : ∀ hop ∈ pattern.hops, ∀ more, True → True ∧
      Parser.hop (dropSpaces (hop.chars ++ more)) = .accept hop (dropSpaces more) := by
    intro hop isIn more _
    rw [Hop.chars, List.append_assoc, dropSpaces_relationship, ← List.append_assoc]
    exact ⟨trivial, hop_accepts (List.all_eq_true.mp hopsCanonical hop isIn)⟩
  have shown : ∀ hop ∈ pattern.hops, 0 < visible hop.chars := by
    intro hop _
    have dash : '-' ∈ hop.chars := by simp [Hop.chars, RelationshipPattern.chars]
    exact visible_pos dash rfl
  have hops := (many_reads each shown trivial ends).2
  have node : spacing nodePattern
      (pattern.node.chars ++ (pattern.hops.flatMap Hop.chars ++ rest)) =
        .accept pattern.node (dropSpaces (pattern.hops.flatMap Hop.chars ++ rest)) :=
    spacing_accepts_bare rfl (nodePattern_accepts nodeCanonical) dropSpaces_dropSpaces
  rw [Parser.pattern, Pattern.chars, List.append_assoc, bind_accepts node, bind_accepts hops]
  rfl

end CypherSql.Cypher.Parser
