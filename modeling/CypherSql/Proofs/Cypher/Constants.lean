import CypherSql.Proofs.Cypher.Words

/-! # How constants are read

* `floatLiteral_rejects`, `integerLiteral_accepts`, `stringLiteral_accepts` — numbers and
  strings.
* `wordLiteral_accepts` — the words that stand for constants.
* `literal_accepts` — a canonical constant is read back from its text.
* `literal_rejects_name` — a name is no constant.
-/

namespace CypherSql.Cypher.Parser

open CypherSql.Text (startsName continuesName isIdentifier)

variable {rest : List Char}

/-! ## Digits -/

theorem digits_accepts {value : Nat} (boundary : Boundary rest) :
    digits (Nat.toDigits 10 value ++ rest) = .accept (Nat.toDigits 10 value) rest := by
  refine someCharsOf_accepts Nat.toDigits_ne_nil
    (fun c isIn => Nat.isDigit_of_mem_toDigits (by simp) (by simp) isIn) fun c isHead => ?_
  have ends := boundary c isHead
  simp only [continuesName, Char.isAlphanum, Bool.or_eq_false_iff] at ends
  exact ends.1.2

theorem valueOf_toDigits {value : Nat} : valueOf (Nat.toDigits 10 value) = value :=
  Nat.ofDigitChars_ten_toDigits

/-- A rest that a whole number does not take for its fraction. -/
def Fractionless (rest : List Char) : Prop :=
  ∀ d more, rest = '.' :: d :: more → d.isDigit = false

theorem floatLiteral_rejects {value : Nat} (boundary : Boundary rest)
    (fractionless : Fractionless rest) :
    Rejects floatLiteral (Nat.toDigits 10 value ++ rest) := by
  refine bind_rejects_next (digits_accepts boundary) ?_
  cases rest with
  | nil => exact ⟨_, rfl⟩
  | cons c rest =>
    by_cases point : c = '.'
    · subst point
      refine bind_rejects_next char_accepts (bind_rejects (someCharsOf_rejects ?_))
      intro d isHead
      cases rest with
      | nil => simp at isHead
      | cons e rest =>
        obtain rfl : e = d := by simpa using isHead
        exact fractionless e rest rfl
    · exact bind_rejects (char_rejects point)

/-! ## Numbers and strings -/

theorem integerLiteral_accepts {value : Nat} (bounded : value ≤ greatestInteger)
    (boundary : Boundary rest) :
    integerLiteral (Nat.toDigits 10 value ++ rest) = .accept (.integer value) rest := by
  rw [integerLiteral, digits_accepts boundary]
  simp [valueOf_toDigits, bounded]

theorem stringLiteral_accepts {quote : Char} {text : String}
    (free : text.toList.all (· != quote) = true) :
    stringLiteral quote (quote :: text.toList ++ quote :: rest) = .accept (.string text) rest := by
  have taken := takeWhile_reads (List.all_eq_true.mp free)
    (by simp : ∀ c ∈ (quote :: rest).head?, (c != quote) = false)
  have textRead : charsOf (· != quote) (text.toList ++ quote :: rest) =
      .accept text.toList (quote :: rest) := by
    rw [charsOf, taken.1, taken.2]
  rw [stringLiteral, List.cons_append, bind_accepts char_accepts, bind_accepts textRead,
    bind_accepts char_accepts, String.ofList_toList]
  rfl

/-! ## Words that stand for constants -/

/-- No word that stands for a constant begins with `c`. -/
def opensNoWord (c : Char) : Bool :=
  ['t', 'f', 'n'].all (foldCase c != ·)

theorem wordLiterals_reject {c : Char} (none : opensNoWord c = true) :
    Rejects (wordLiteral "TRUE" (.boolean true)) (c :: rest) ∧
      Rejects (wordLiteral "FALSE" (.boolean false)) (c :: rest) ∧
      Rejects (wordLiteral "NULL" .null) (c :: rest) := by
  simp only [opensNoWord, List.all_cons, List.all_nil, Bool.and_true, Bool.and_eq_true,
    bne_iff_ne] at none
  obtain ⟨notTrue, notFalse, notNull⟩ := none
  have rejects : ∀ word value d others, word.toList = d :: others → foldCase c ≠ foldCase d →
      Rejects (wordLiteral word value) (c :: rest) :=
    fun word value d others chars differs => bind_rejects (keyword_rejects_first chars differs)
  exact ⟨rejects "TRUE" _ 'T' ['R', 'U', 'E'] rfl notTrue,
    rejects "FALSE" _ 'F' ['A', 'L', 'S', 'E'] rfl notFalse,
    rejects "NULL" _ 'N' ['U', 'L', 'L'] rfl notNull⟩

theorem ne_of_isDigit {c d : Char} (digit : c.isDigit = true) (other : d.isDigit = false) :
    c ≠ d := by
  rintro rfl
  rw [digit] at other
  cases other

theorem foldCase_digit {c : Char} (digit : c.isDigit = true) : foldCase c = c := by
  have range := Char.isDigit_iff_toNat.mp digit
  have small : c.toNat ≤ 57 := range.2
  have lower := toLower_toNat c
  rw [if_neg (by rw [isUpper_iff]; omega)] at lower
  rw [foldCase, if_neg (by simp only [beq_iff_eq]; omega), Char.toNat_inj.mp lower]

theorem opensNoWord_digit {c : Char} (digit : c.isDigit = true) : opensNoWord c = true := by
  have differs := fun d => @ne_of_isDigit c d digit
  simp [opensNoWord, foldCase_digit digit, differs]

theorem wordLiteral_accepts {word : String} {text : List Char} {value : Literal}
    (spells : Spells text word.toList) (boundary : Boundary rest) :
    wordLiteral word value (text ++ rest) = .accept value rest :=
  bind_accepts (keyword_accepts spells boundary)

/-! ## All constants -/

theorem literal_accepts_string {text : String}
    (free : text.toList.all (· != '\x27') = true) :
    literal ((Literal.string text).chars ++ rest) = .accept (.string text) rest := by
  obtain ⟨notTrue, notFalse, notNull⟩ :=
    @wordLiterals_reject (text.toList ++ '\x27' :: rest) '\x27' rfl
  have noFloat : Rejects floatLiteral ('\x27' :: (text.toList ++ '\x27' :: rest)) := ⟨_, rfl⟩
  have noInteger : Rejects integerLiteral ('\x27' :: (text.toList ++ '\x27' :: rest)) :=
    ⟨_, rfl⟩
  have shape : Literal.chars (.string text) ++ rest =
      '\x27' :: (text.toList ++ '\x27' :: rest) := by
    simp [Literal.chars]
  simp only [literal, oneOf, shape]
  rw [orElse_second notTrue, orElse_second notFalse, orElse_second notNull,
    orElse_second noFloat, orElse_second noInteger]
  exact orElse_first (stringLiteral_accepts free)

theorem literal_accepts_integer {number : Nat} (bounded : number ≤ greatestInteger)
    (boundary : Boundary rest) (fractionless : Fractionless rest) :
    literal ((Literal.integer number).chars ++ rest) = .accept (.integer number) rest := by
  obtain ⟨first, others, chars⟩ := List.exists_cons_of_ne_nil (@Nat.toDigits_ne_nil number 10)
  have digit : first.isDigit = true := by
    have isIn : first ∈ Nat.toDigits 10 number := chars ▸ List.mem_cons_self
    exact Nat.isDigit_of_mem_toDigits (by simp) (by simp) isIn
  obtain ⟨notTrue, notFalse, notNull⟩ :=
    @wordLiterals_reject (others ++ rest) first (opensNoWord_digit digit)
  rw [← List.cons_append, ← chars] at notTrue notFalse notNull
  simp only [literal, oneOf, Literal.chars]
  -- The float is tried before the whole number, and fails for want of a fraction.
  rw [orElse_second notTrue, orElse_second notFalse, orElse_second notNull,
    orElse_second (floatLiteral_rejects boundary fractionless)]
  exact orElse_first (integerLiteral_accepts bounded boundary)

theorem literal_accepts_boolean {truth : Bool} (boundary : Boundary rest) :
    literal ((Literal.boolean truth).chars ++ rest) = .accept (.boolean truth) rest := by
  cases truth with
  | true =>
    have spells : Spells "true".toList "TRUE".toList :=
      ⟨by simp [agree, foldCase], by simp, by simp [byteLength, Char.utf8Size]⟩
    exact orElse_first (wordLiteral_accepts spells boundary)
  | false =>
    have spells : Spells "false".toList "FALSE".toList :=
      ⟨by simp [agree, foldCase], by simp, by simp [byteLength, Char.utf8Size]⟩
    have notTrue : Rejects (wordLiteral "TRUE" (.boolean true)) ("false".toList ++ rest) :=
      bind_rejects ⟨_, rfl⟩
    simp only [literal, oneOf, Literal.chars]
    rw [if_neg (by simp), orElse_second notTrue]
    exact orElse_first (wordLiteral_accepts spells boundary)

theorem literal_accepts_null (boundary : Boundary rest) :
    literal (Literal.null.chars ++ rest) = .accept .null rest := by
  have spells : Spells "null".toList "NULL".toList :=
    ⟨by simp [agree, foldCase], by simp, by simp [byteLength, Char.utf8Size]⟩
  have notTrue : Rejects (wordLiteral "TRUE" (.boolean true)) ("null".toList ++ rest) :=
    bind_rejects ⟨_, rfl⟩
  have notFalse : Rejects (wordLiteral "FALSE" (.boolean false)) ("null".toList ++ rest) :=
    bind_rejects ⟨_, rfl⟩
  simp only [literal, oneOf, Literal.chars]
  rw [orElse_second notTrue, orElse_second notFalse]
  exact orElse_first (wordLiteral_accepts spells boundary)

/-- A constant is read back from its text, up to where nothing goes on with it. -/
theorem literal_accepts {value : Literal} (canonical : value.canonical = true)
    (boundary : Boundary rest) (fractionless : Fractionless rest) :
    literal (value.chars ++ rest) = .accept value rest := by
  cases value with
  | string text => exact literal_accepts_string canonical
  | integer number =>
    have bounded : number ≤ greatestInteger := by simpa [Literal.canonical] using canonical
    exact literal_accepts_integer bounded boundary fractionless
  | float number => exact absurd canonical (by simp [Literal.canonical])
  | boolean truth => exact literal_accepts_boolean boundary
  | null => exact literal_accepts_null boundary

/-! ## Names are no constants -/

theorem isDigit_of_startsName {c : Char} (starts : startsName c = true) : c.isDigit = false := by
  cases digit : c.isDigit with
  | false => rfl
  | true =>
    have range := Char.isDigit_iff_toNat.mp digit
    have small : c.toNat ≤ 57 := range.2
    rw [startsName, Char.isAlpha, Bool.or_eq_true, Bool.or_eq_true, isUpper_iff, isLower_iff,
      beq_iff_eq] at starts
    rcases starts with (upper | lower) | rfl
    · omega
    · omega
    · exact absurd digit (by decide)

/-- A name that is not reserved is not taken for a constant. -/
theorem literal_rejects_name {name : String} (plain : isIdentifier name = true)
    (free : isReserved name = false) (boundary : Boundary rest) :
    Rejects literal (name.toList ++ rest) := by
  obtain ⟨first, others, chars, starts, -⟩ := isIdentifier_chars plain
  have noWord : ∀ word value, word ∈ reservedWords →
      word.toList.all isKeywordLetter = true →
      Rejects (wordLiteral word value) (name.toList ++ rest) :=
    fun word value reserved letters =>
      bind_rejects (keyword_rejects plain free reserved letters boundary)
  have noNumber : Rejects digits (name.toList ++ rest) := by
    rw [chars]
    exact someCharsOf_rejects fun c isHead => by
      obtain rfl : first = c := by simpa using isHead
      exact isDigit_of_startsName starts
  have noInteger : Rejects integerLiteral (name.toList ++ rest) := by
    obtain ⟨error, failed⟩ := noNumber
    exact ⟨error, by rw [integerLiteral, failed]⟩
  have noString : ∀ quote, startsName quote = false →
      Rejects (stringLiteral quote) (name.toList ++ rest) :=
    fun quote noStart => bind_rejects (char_rejects_name plain noStart)
  exact orElse_rejects (noWord "TRUE" _ (by decide) rfl) <|
    orElse_rejects (noWord "FALSE" _ (by decide) rfl) <|
    orElse_rejects (noWord "NULL" _ (by decide) rfl) <|
    orElse_rejects (bind_rejects noNumber) <|
    orElse_rejects noInteger <|
    orElse_rejects (noString '\x27' rfl) (noString '\x22' rfl)

end CypherSql.Cypher.Parser
