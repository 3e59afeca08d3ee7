import CypherSql.Proofs.Cypher.Chains

/-! # How atoms are read

The alternatives for an atom are tried in order, so each kind of atom has to be turned
down by the alternatives before its own.

* `opensTerm_name`, `opensTerm_literal` — what atoms begin with.
* `ReadsExpressions` — a parser of expressions up to some length.
* `atom_accepts` — an atom is read where it ends.
-/

namespace CypherSql.Cypher.Parser

open CypherSql.Text (startsName continuesName isIdentifier)

variable {rest : List Char}

/-! ## What does not begin a pattern -/

/-- Behind a parenthesis, a name or nothing is no pattern where neither a label nor a
parenthesis with a hop follows. -/
theorem patternAtom_rejects {input : List Char} {name : Option String}
    (read : optional (spacing variableName) input = .accept name rest)
    (notLabel : Rejects (char ':') (dropSpaces rest)) (closes : ClosesNoNode rest) :
    Rejects patternAtom ('(' :: input) := by
  have noLabels : many (do let _ ← spacing (char ':'); spacing symbolicName) rest =
      .accept [] rest := many_rejected (bind_rejects (spacing_rejects notLabel))
  rcases closes with notClosed | ⟨more, closed, noHop⟩
  · have noNode : Rejects nodePattern ('(' :: input) :=
      bind_rejects_next char_accepts <| bind_rejects_next read <|
        bind_rejects_next noLabels <| bind_rejects (spacing_rejects notClosed)
    exact bind_rejects <| satisfying_rejects <| bind_rejects <| spacing_rejects noNode
  · have closing : spacing (char ')') rest = .accept ')' (dropSpaces more) := by
      refine spacing_accepts ?_
      rw [closed]
      exact char_accepts
    have node : nodePattern ('(' :: input) = .accept ⟨name, []⟩ (dropSpaces more) := by
      rw [nodePattern, bind_accepts char_accepts, bind_accepts read, bind_accepts noLabels,
        bind_accepts closing]
      rfl
    have single : Parser.pattern ('(' :: input) = .accept ⟨⟨name, []⟩, []⟩ (dropSpaces more) := by
      rw [Parser.pattern, bind_accepts (spacing_accepts_bare rfl node dropSpaces_dropSpaces),
        bind_accepts (many_rejected noHop)]
      rfl
    exact bind_rejects (satisfying_rejects_value single rfl)

/-! ## What atoms begin with -/

theorem opensTerm_name {name : String} (free : isFreeName name = true)
    (boundary : Boundary rest) (notLabel : Rejects (char ':') (dropSpaces rest))
    (closes : ClosesNoNode rest) : OpensTerm (name.toList ++ rest) := by
  obtain ⟨plain, unreserved⟩ := isFreeName_iff.mp free
  have read : optional (spacing variableName) (name.toList ++ rest) =
      .accept (some name) (dropSpaces rest) := by
    refine optional_accepts (spacing_accepts ?_)
    rw [dropSpaces_name plain]
    exact variableName_accepts plain unreserved boundary
  have notPattern : Rejects patternAtom ('(' :: (name.toList ++ rest)) :=
    patternAtom_rejects read (by rwa [dropSpaces_dropSpaces])
      (by rwa [ClosesNoNode, dropSpaces_dropSpaces])
  exact
    { bare := dropSpaces_name plain
      notDistinct := keyword_rejects plain unreserved (by decide) rfl boundary
      notStar := char_rejects_name plain rfl
      notPattern := notPattern
      notNot := keyword_rejects plain unreserved (by decide) rfl boundary
      notMinus := char_rejects_name plain rfl
      notPlus := char_rejects_name plain rfl
      notBracket := char_rejects_name plain rfl }

/-- A reserved word is a name, but no variable. -/
theorem opensExpression_word {name : String} (plain : isIdentifier name = true)
    (reserved : isReserved name = true) (boundary : Boundary rest)
    (notDistinct : Rejects (keyword "DISTINCT") (name.toList ++ rest)) :
    OpensExpression (name.toList ++ rest) := by
  have bare := @dropSpaces_name rest _ plain
  have noVariable : Rejects variableName (name.toList ++ rest) :=
    satisfying_rejects_value (symbolicName_accepts plain boundary) (by simp [reserved])
  have read := optional_rejected (spacing_rejects (bare.symm ▸ noVariable))
  have notPattern : Rejects patternAtom ('(' :: (name.toList ++ rest)) :=
    patternAtom_rejects read (bare.symm ▸ char_rejects_name plain rfl)
      (.inl (bare.symm ▸ char_rejects_name plain rfl))
  exact ⟨bare, notDistinct, char_rejects_name plain rfl, notPattern⟩

theorem opensTerm_word {name : String} (plain : isIdentifier name = true)
    (reserved : isReserved name = true) (boundary : Boundary rest)
    (notDistinct : Rejects (keyword "DISTINCT") (name.toList ++ rest))
    (notNot : Rejects (keyword "NOT") (name.toList ++ rest)) :
    OpensTerm (name.toList ++ rest) :=
  ⟨opensExpression_word plain reserved boundary notDistinct, notNot,
    char_rejects_name plain rfl, char_rejects_name plain rfl, char_rejects_name plain rfl⟩

theorem opensTerm_quote : OpensTerm ('\x27' :: rest) :=
  ⟨⟨rfl, ⟨_, rfl⟩, ⟨_, rfl⟩, ⟨_, rfl⟩⟩, ⟨_, rfl⟩, ⟨_, rfl⟩, ⟨_, rfl⟩, ⟨_, rfl⟩⟩

theorem opensTerm_parenthesis : OpensTerm ('(' :: rest) :=
  ⟨⟨rfl, ⟨_, rfl⟩, ⟨_, rfl⟩, ⟨_, rfl⟩⟩, ⟨_, rfl⟩, ⟨_, rfl⟩, ⟨_, rfl⟩, ⟨_, rfl⟩⟩

theorem opensTerm_digit {c : Char} (digit : c.isDigit = true) : OpensTerm (c :: rest) := by
  have differs := fun d => @ne_of_isDigit c d digit
  have visible : isSpacing c = false := by simp [isSpacing, differs]
  have bare := @dropSpaces_cons rest c visible
  have noStart : startsName c = false := by
    cases starts : startsName c with
    | false => rfl
    | true => exact absurd digit (by simp [isDigit_of_startsName starts])
  have noVariable : Rejects variableName (c :: rest) :=
    satisfying_rejects (symbolicName_rejects_first noStart (differs _ rfl))
  have notPattern : Rejects patternAtom ('(' :: c :: rest) :=
    patternAtom_rejects (optional_rejected (spacing_rejects (bare.symm ▸ noVariable)))
      (bare.symm ▸ char_rejects (differs _ rfl)) (.inl (bare.symm ▸ char_rejects (differs _ rfl)))
  have folded : ∀ d, (foldCase d).isDigit = false → foldCase c ≠ foldCase d := by
    intro d other
    rw [foldCase_digit digit]
    exact differs _ other
  exact
    { bare := bare
      notDistinct := keyword_rejects_first rfl (folded 'D' rfl)
      notStar := char_rejects (differs _ rfl)
      notPattern := notPattern
      notNot := keyword_rejects_first rfl (folded 'N' rfl)
      notMinus := char_rejects (differs _ rfl)
      notPlus := char_rejects (differs _ rfl)
      notBracket := char_rejects (differs _ rfl) }

theorem opensTerm_literal {value : Literal} (canonical : value.canonical = true)
    (boundary : Boundary rest) : OpensTerm (value.chars ++ rest) := by
  cases value with
  | string text => exact opensTerm_quote
  | integer number =>
    obtain ⟨first, others, chars⟩ := List.exists_cons_of_ne_nil (@Nat.toDigits_ne_nil number 10)
    have digit : first.isDigit = true := by
      have isIn : first ∈ Nat.toDigits 10 number := chars ▸ List.mem_cons_self
      exact Nat.isDigit_of_mem_toDigits (by simp) (by simp) isIn
    rw [Literal.chars, chars]
    exact opensTerm_digit digit
  | float number => exact absurd canonical (by simp [Literal.canonical])
  | boolean truth =>
    cases truth with
    | true => exact opensTerm_word (by decide) (by decide) boundary ⟨_, rfl⟩ ⟨_, rfl⟩
    | false => exact opensTerm_word (by decide) (by decide) boundary ⟨_, rfl⟩ ⟨_, rfl⟩
  | null => exact opensTerm_word (by decide) (by decide) boundary ⟨_, rfl⟩ ⟨_, rfl⟩

/-! ## The parts of a call -/

/-- A parser of expressions that reads every canonical text shorter than `depth`. -/
structure ReadsExpressions (expression : Parser Expression) (depth : Nat) : Prop where
  reads : ∀ value : Expression, value.canonical = true → value.chars.length < depth →
    Reads expression OpensExpression 8 value.chars value
  rejects : ∀ rest, Rejects expression (')' :: rest)

def distinctChars (distinct : Bool) : List Char :=
  if distinct then "DISTINCT ".toList else []

theorem dropSpaces_distinctChars {distinct : Bool} {input : List Char}
    (bare : dropSpaces input = input) :
    dropSpaces (distinctChars distinct ++ input) = distinctChars distinct ++ input := by
  cases distinct with
  | true => rfl
  | false => exact bare

theorem distinct_accepts {distinct : Bool} {input : List Char} (bare : dropSpaces input = input)
    (notDistinct : Rejects (keyword "DISTINCT") input) :
    ∃ word, optional (spacing (keyword "DISTINCT")) (distinctChars distinct ++ input) =
      .accept word input ∧ word.isSome = distinct := by
  cases distinct with
  | true =>
    have spaced : spacing (keyword "DISTINCT") ("DISTINCT".toList ++ ' ' :: input) =
        .accept () (dropSpaces input) := keyword_spaced fun _ => rfl
    rw [bare] at spaced
    exact ⟨some (), optional_accepts spaced, rfl⟩
  | false =>
    rw [← bare] at notDistinct
    exact ⟨none, optional_rejected (spacing_rejects notDistinct), rfl⟩

section Atoms

variable {expression : Parser Expression} {depth : Nat}

theorem boundary_parenthesis : Boundary ('(' :: rest) :=
  (marked_cons rfl).boundary

theorem arguments_accept (inner : ReadsExpressions expression depth) {arguments : List Expression}
    (canonical : argumentsCanonical arguments = true)
    (short : (joined [',', ' '] (argumentsChars arguments)).length < depth)
    (noHop : Rejects hop (dropSpaces rest)) {text : List Char}
    (isText : text = joined [',', ' '] (argumentsChars arguments) ++ ')' :: rest) :
    separatedOrNone (spacing (char ',')) expression text = .accept arguments (')' :: rest) ∧
      dropSpaces text = text ∧ Rejects (keyword "DISTINCT") text ∧ Rejects (char '*') text := by
  cases arguments with
  | nil =>
    obtain rfl : text = ')' :: rest := isText
    have none : Rejects (separated (spacing (char ',')) expression) (')' :: rest) :=
      bind_rejects (inner.rejects rest)
    exact ⟨orElse_second none, rfl, ⟨_, rfl⟩, ⟨_, rfl⟩⟩
  | cons first others =>
    rw [argumentsCanonical_eq, List.all_eq_true] at canonical
    rw [argumentsChars_eq] at short isText
    have each : ∀ value ∈ first :: others,
        Reads expression OpensExpression Ending.comma.rank value.chars value := by
      intro value isIn
      have bounded := length_le_joined [',', ' '] Expression.chars isIn
      exact (inner.reads value (canonical value isIn) (lt_of_le_of_lt bounded short)).mono
        (by decide)
    have reads : Reads (separated (spacing (char ',')) expression) OpensExpression 10
        (joined [',', ' '] ((first :: others).map Expression.chars)) (first :: others) :=
      separated_reads_joined marks_comma (fun _ => trivial) each (fun _ _ opens => opens.bare)
        fun rest tail => tail.comma_rejects
    have tail : Tail 10 (')' :: rest) := @tail_ending rest 10 .close (by decide) noHop
    have opens := reads.opens _ tail
    have accepted := reads.accepts _ tail
    rw [← isText] at opens accepted
    exact ⟨orElse_first accepted, opens.bare, opens.notDistinct, opens.notStar⟩

/-! ## The alternatives for an atom -/

/-- What begins with a parenthesis is none of the first alternatives. -/
theorem atom_parenthesis :
    atom expression ('(' :: rest) =
      orElse patternAtom (orElse (parenthesized expression) nameAtom) ('(' :: rest) := by
  have noLiteral : Rejects literalAtom ('(' :: rest) := ⟨_, rfl⟩
  have noCount : Rejects countAll ('(' :: rest) := ⟨_, rfl⟩
  have noCall : Rejects (call expression) ('(' :: rest) := ⟨_, rfl⟩
  simp only [atom, oneOf]
  rw [orElse_second noLiteral, orElse_second noCount, orElse_second noCall]

theorem atom_name {name : String} (free : isFreeName name = true) (boundary : Boundary rest) :
    atom expression (name.toList ++ rest) =
      orElse countAll (orElse (call expression) (orElse patternAtom
        (orElse (parenthesized expression) nameAtom))) (name.toList ++ rest) := by
  obtain ⟨plain, unreserved⟩ := isFreeName_iff.mp free
  have noLiteral : Rejects literalAtom (name.toList ++ rest) :=
    bind_rejects (literal_rejects_name plain unreserved boundary)
  simp only [atom, oneOf]
  rw [orElse_second noLiteral]

theorem call_chars {name : String} {distinct : Bool} {arguments : List Expression} :
    (Atom.call name distinct arguments).chars ++ rest = name.toList ++ '(' ::
      (distinctChars distinct ++ (joined [',', ' '] (argumentsChars arguments) ++ ')' :: rest)) := by
  have unfolded : (Atom.call name distinct arguments).chars = name.toList ++ '(' ::
    distinctChars distinct ++ joined [',', ' '] (argumentsChars arguments) ++ [')'] := rfl
  simp only [unfolded, List.append_assoc, List.cons_append, List.nil_append]

theorem call_accepts (inner : ReadsExpressions expression depth) {name : String} {distinct : Bool}
    {arguments : List Expression} (free : isFreeName name = true)
    (canonical : argumentsCanonical arguments = true)
    (short : (joined [',', ' '] (argumentsChars arguments)).length < depth)
    (noHop : Rejects hop (dropSpaces rest)) :
    atom expression ((Atom.call name distinct arguments).chars ++ rest) =
      .accept (.call name distinct arguments) rest := by
  obtain ⟨plain, unreserved⟩ := isFreeName_iff.mp free
  obtain ⟨text, isText⟩ : ∃ text, text = joined [',', ' '] (argumentsChars arguments) ++
    ')' :: rest := ⟨_, rfl⟩
  obtain ⟨read, bare, notDistinct, notStar⟩ :=
    arguments_accept inner canonical short noHop isText
  obtain ⟨word, wordRead, isWord⟩ := @distinct_accepts distinct _ bare notDistinct
  have opening : spacing (char '(') ('(' :: (distinctChars distinct ++ text)) =
      .accept '(' (distinctChars distinct ++ text) :=
    spacing_accepts_bare rfl char_accepts (dropSpaces_distinctChars bare)
  have noStar : Rejects (spacing (char '*')) (distinctChars distinct ++ text) := by
    refine spacing_rejects ?_
    rw [dropSpaces_distinctChars bare]
    cases distinct with
    | true => exact ⟨_, rfl⟩
    | false => exact notStar
  have noCount : Rejects countAll (name.toList ++ '(' :: (distinctChars distinct ++ text)) := by
    obtain ⟨first, others, chars, starts, continues⟩ := isIdentifier_chars plain
    -- A function may be called `count`.  Its argument then tells the call from `COUNT(*)`.
    rcases @keyword_name _ _ "COUNT" rfl continues boundary_parenthesis with
      ⟨-, taken⟩ | rejected
    · exact bind_rejects_next taken <| bind_rejects_next opening <| bind_rejects noStar
    · exact bind_rejects rejected
  rw [call_chars, ← isText, atom_name free boundary_parenthesis, orElse_second noCount]
  refine orElse_first ?_
  rw [call, bind_accepts (symbolicName_accepts plain boundary_parenthesis), bind_accepts opening,
    bind_accepts wordRead, bind_accepts read, bind_accepts char_accepts, isWord]
  rfl

theorem countAll_accepts :
    atom expression (Atom.countAll.chars ++ rest) = .accept .countAll rest := by
  have shape : Atom.countAll.chars ++ rest = "COUNT".toList ++ '(' :: '*' :: ')' :: rest := rfl
  rw [shape, atom_name (by decide) boundary_parenthesis]
  refine orElse_first ?_
  rw [countAll, bind_accepts (keyword_accepts_self boundary_parenthesis)]
  rfl

theorem nameAtom_accepts {name : String} (free : isFreeName name = true) (ends : EndsAtom rest) :
    atom expression (name.toList ++ rest) = .accept (.name name) rest := by
  obtain ⟨plain, unreserved⟩ := isFreeName_iff.mp free
  obtain ⟨first, others, chars, starts, continues⟩ := isIdentifier_chars plain
  have noCount : Rejects countAll (name.toList ++ rest) := by
    rcases @keyword_name _ _ "COUNT" rfl continues ends.boundary with
      ⟨-, taken⟩ | rejected
    · exact bind_rejects_next taken (bind_rejects (spacing_rejects ends.notCall))
    · exact bind_rejects rejected
  have noCall : Rejects (call expression) (name.toList ++ rest) :=
    bind_rejects_next (symbolicName_accepts plain ends.boundary)
      (bind_rejects (spacing_rejects ends.notCall))
  have noOpening : Rejects (char '(') (dropSpaces (name.toList ++ rest)) := by
    rw [dropSpaces_name plain]
    exact char_rejects_name plain rfl
  have noPattern : Rejects patternAtom (name.toList ++ rest) :=
    bind_rejects <| satisfying_rejects <| bind_rejects <| spacing_rejects <| bind_rejects noOpening
  have noParenthesis : Rejects (parenthesized expression) (name.toList ++ rest) :=
    bind_rejects (spacing_rejects noOpening)
  rw [atom_name free ends.boundary, orElse_second noCount, orElse_second noCall,
    orElse_second noPattern, orElse_second noParenthesis]
  exact bind_accepts (variableName_accepts plain unreserved ends.boundary)

theorem parenthesized_accepts (inner : ReadsExpressions expression depth) {value : Expression}
    (canonical : value.canonical = true) (short : value.chars.length < depth)
    (noHop : Rejects hop (dropSpaces rest)) :
    atom expression ('(' :: (value.chars ++ ')' :: rest)) =
      .accept (.parenthesized value) (dropSpaces rest) := by
  have reads := inner.reads value canonical short
  have tail : Tail 8 (')' :: rest) := @tail_ending rest 8 .close (by decide) noHop
  have opens := reads.opens _ tail
  have opening : spacing (char '(') ('(' :: (value.chars ++ ')' :: rest)) =
      .accept '(' (value.chars ++ ')' :: rest) :=
    spacing_accepts_bare rfl char_accepts opens.bare
  have closing : spacing (char ')') (dropSpaces (')' :: rest)) = .accept ')' (dropSpaces rest) :=
    spacing_accepts char_accepts
  rw [atom_parenthesis, orElse_second opens.notPattern]
  refine orElse_first ?_
  rw [parenthesized, bind_accepts opening, bind_accepts (reads.accepts _ tail),
    bind_accepts closing]
  rfl

theorem patternAtom_accepts {pattern : Pattern} (canonical : pattern.canonical = true)
    (some : pattern.hops.isEmpty = false) (noHop : Rejects hop (dropSpaces rest)) :
    atom expression (pattern.chars ++ rest) = .accept (.pattern pattern) (dropSpaces rest) := by
  obtain ⟨more, shape⟩ : ∃ more, pattern.chars ++ rest = '(' :: more := ⟨_, rfl⟩
  have read := pattern_accepts canonical noHop
  rw [shape] at read ⊢
  rw [atom_parenthesis]
  exact orElse_first (bind_accepts (satisfying_accepts read (by simp [some])))

theorem opensTerm_atom {atom : Atom} (canonical : atom.canonical = true) (ends : EndsAtom rest) :
    OpensTerm (atom.chars ++ rest) := by
  cases atom with
  | name name => exact opensTerm_name canonical ends.boundary ends.notLabel ends.closes
  | literal value => exact opensTerm_literal canonical ends.boundary
  | call name distinct arguments =>
    have both : (isFreeName name && argumentsCanonical arguments) = true := canonical
    rw [Bool.and_eq_true] at both
    rw [call_chars]
    exact opensTerm_name both.1 boundary_parenthesis ⟨_, rfl⟩ (.inl ⟨_, rfl⟩)
  | countAll =>
    have opens := @opensTerm_name ('(' :: '*' :: ')' :: rest) "COUNT" (by decide)
      boundary_parenthesis ⟨_, rfl⟩ (.inl ⟨_, rfl⟩)
    exact opens
  | parenthesized inner => exact opensTerm_parenthesis
  | pattern pattern => exact opensTerm_parenthesis

/-- An atom is read where it ends.  Some alternatives take the white space behind it. -/
theorem atom_accepts (inner : ReadsExpressions expression depth) {atom : Atom}
    (canonical : atom.canonical = true) (short : atom.chars.length ≤ depth)
    (ends : EndsAtom rest) :
    ∃ final, Parser.atom expression (atom.chars ++ rest) = .accept atom final ∧
      dropSpaces final = dropSpaces rest := by
  cases atom with
  | name name => exact ⟨rest, nameAtom_accepts canonical ends, rfl⟩
  | literal value =>
    have read := literal_accepts canonical ends.boundary ends.fractionless
    exact ⟨rest, orElse_first (bind_accepts read), rfl⟩
  | call name distinct arguments =>
    have both : (isFreeName name && argumentsCanonical arguments) = true := canonical
    rw [Bool.and_eq_true] at both
    have length := congrArg List.length (@call_chars [] name distinct arguments)
    simp only [List.append_nil, List.length_append, List.length_cons] at length
    exact ⟨rest, call_accepts inner both.1 both.2 (by omega) ends.notHop, rfl⟩
  | countAll => exact ⟨rest, countAll_accepts, rfl⟩
  | parenthesized value =>
    have unfolded : (Atom.parenthesized value).chars = '(' :: (value.chars ++ [')']) := rfl
    have length := congrArg List.length unfolded
    simp only [List.length_cons, List.length_append, List.length_nil] at length
    have read := @parenthesized_accepts rest _ _ inner value canonical (by omega) ends.notHop
    rw [unfolded, List.cons_append, List.append_assoc]
    exact ⟨dropSpaces rest, read, dropSpaces_dropSpaces⟩
  | pattern pattern =>
    have both : (pattern.canonical && !pattern.hops.isEmpty) = true := canonical
    rw [Bool.and_eq_true, Bool.not_eq_true'] at both
    exact ⟨dropSpaces rest, patternAtom_accepts both.1 both.2 ends.notHop, dropSpaces_dropSpaces⟩

end Atoms

end CypherSql.Cypher.Parser
