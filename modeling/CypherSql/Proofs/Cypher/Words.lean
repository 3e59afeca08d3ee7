import CypherSql.Proofs.Cypher.Canonical
import CypherSql.Proofs.Cypher.Reading
import Mathlib

/-! # How words and names are read

* `Boundary` — a rest that no name runs into.
* `keyword_accepts`, `keyword_name` — a keyword in front of a boundary, and a name where
  a keyword is tried.
* `symbolicName_accepts`, `variableName_accepts` — plain names.
-/

namespace CypherSql.Cypher.Parser

open CypherSql.Text (startsName continuesName isIdentifier sameIgnoringCase)

variable {input rest name : List Char}

/-! ## Characters -/

theorem char_accepts {c : Char} : char c (c :: rest) = .accept c rest := by
  simp [char, charOf]

theorem char_rejects {c d : Char} (other : d ≠ c) : Rejects (char c) (d :: rest) :=
  ⟨.here (d :: rest) .unexpectedInput, by simp [char, charOf, other, unexpected]⟩

theorem takeWhile_reads {test : Char → Bool} (all : ∀ c ∈ name, test c = true)
    (ends : ∀ c ∈ rest.head?, test c = false) :
    (name ++ rest).takeWhile test = name ∧ (name ++ rest).dropWhile test = rest := by
  rw [List.takeWhile_append_of_pos all, List.dropWhile_append_of_pos all]
  cases rest with
  | nil => simp
  | cons c rest => simp [ends c rfl]

theorem someCharsOf_accepts {test : Char → Bool} (some : name ≠ [])
    (all : ∀ c ∈ name, test c = true) (ends : ∀ c ∈ rest.head?, test c = false) :
    someCharsOf test (name ++ rest) = .accept name rest := by
  obtain ⟨taken, dropped⟩ := takeWhile_reads all ends
  rw [someCharsOf, taken, dropped]
  cases name with
  | nil => exact absurd rfl some
  | cons c name => rfl

theorem someCharsOf_rejects {test : Char → Bool} (ends : ∀ c ∈ rest.head?, test c = false) :
    Rejects (someCharsOf test) rest := by
  cases rest with
  | nil => exact ⟨_, rfl⟩
  | cons c rest =>
    refine ⟨.here (c :: rest) .unexpectedInput, ?_⟩
    simp [someCharsOf, ends c rfl, unexpected]

/-! ## Letters -/

theorem isUpper_iff {c : Char} : c.isUpper = true ↔ 65 ≤ c.toNat ∧ c.toNat ≤ 90 := by
  simp [Char.isUpper, UInt32.le_iff_toNat_le]

theorem isLower_iff {c : Char} : c.isLower = true ↔ 97 ≤ c.toNat ∧ c.toNat ≤ 122 := by
  simp [Char.isLower, UInt32.le_iff_toNat_le]

theorem toLower_toNat (c : Char) :
    c.toLower.toNat = if c.isUpper then c.toNat + 32 else c.toNat := by
  cases letter : c.isUpper with
  | true =>
    have range := isUpper_iff.mp letter
    simp only [Char.isUpper, decide_eq_true_eq] at letter
    simp only [Char.toLower, dif_pos letter]
    simp
    omega
  | false =>
    simp only [Char.isUpper, decide_eq_false_iff_not] at letter
    simp only [Char.toLower, dif_neg letter]
    rfl

/-- The letters of keywords that only ASCII letters fold to.  The Kelvin sign folds to
the one that is left out. -/
def isKeywordLetter (c : Char) : Bool :=
  c.isUpper && c != 'K'

theorem letter_of_foldCase {c d : Char} (letter : isKeywordLetter d = true)
    (same : foldCase c = foldCase d) :
    c.toLower = d.toLower ∧ c.utf8Size = 1 ∧ continuesName c = true := by
  obtain ⟨upper, notK⟩ : d.isUpper = true ∧ d ≠ 'K' := by simpa [isKeywordLetter] using letter
  have range := isUpper_iff.mp upper
  have lowered := toLower_toNat d
  rw [if_pos upper] at lowered
  have plain : foldCase d = d.toLower := by
    rw [foldCase, if_neg]
    simp only [beq_iff_eq]
    omega
  rw [plain, foldCase] at same
  split at same
  next =>
    -- The Kelvin sign folds to `k`, which no keyword letter in question has.
    rw [← same] at lowered
    have isK : d.toNat = 75 := by simpa using lowered.symm
    exact absurd (Char.toNat_inj.mp isK) notK
  next =>
    have equal := toLower_toNat c
    rw [same, lowered] at equal
    have alpha : c.isAlpha = true := by
      rw [Char.isAlpha, Bool.or_eq_true, isUpper_iff, isLower_iff]
      split at equal
      next capital => exact .inl (isUpper_iff.mp capital)
      next => omega
    have ascii : c.toNat ≤ 127 := by split at equal <;> omega
    have size : c.utf8Size = 1 := by
      rw [Char.utf8Size]
      exact if_pos ascii
    exact ⟨same, size, by simp [continuesName, Char.isAlphanum, alpha]⟩

/-! ## Keywords -/

/-- A rest that no name runs into. -/
def Boundary (rest : List Char) : Prop :=
  ∀ c ∈ rest.head?, continuesName c = false

theorem dropBytes_zero {text : List Char} : dropBytes 0 text = text := by
  cases text <;> rfl

theorem byteLength_append (text rest : List Char) :
    byteLength (text ++ rest) = byteLength text + byteLength rest := by
  induction text with
  | nil => simp [byteLength]
  | cons c text ih => simp [byteLength, ih, Nat.add_assoc]

theorem dropBytes_append {text : List Char} :
    dropBytes (byteLength text) (text ++ rest) = rest := by
  induction text with
  | nil => exact dropBytes_zero
  | cons c text ih =>
    have positive := c.utf8Size_pos
    obtain ⟨count, isSucc⟩ : ∃ count, byteLength (c :: text) = count + 1 :=
      ⟨byteLength (c :: text) - 1, by simp [byteLength]; omega⟩
    have left : count + 1 - c.utf8Size = byteLength text := by
      rw [← isSucc]
      simp [byteLength]
    rw [isSucc, List.cons_append, dropBytes, left, ih]

theorem agree_append {text word : List Char} (length : text.length = word.length) :
    agree (text ++ rest) word = agree text word := by
  induction text generalizing word with
  | nil =>
    obtain rfl := List.length_eq_zero_iff.mp length.symm
    cases rest <;> rfl
  | cons c text ih =>
    cases word with
    | nil => simp at length
    | cons d word => rw [List.cons_append, agree, agree, ih (by simpa using length)]

/-- `text` is `word` up to case. -/
structure Spells (text word : List Char) : Prop where
  agrees : agree text word = true
  length : text.length = word.length
  size : byteLength text = byteLength word

theorem keyword_accepts {word : String} {text : List Char} (spells : Spells text word.toList)
    (boundary : Boundary rest) : keyword word (text ++ rest) = .accept () rest := by
  -- The parser compares and cuts by bytes, so both lengths have to agree.
  have long : byteLength word.toList ≤ byteLength (text ++ rest) := by
    rw [← spells.size, byteLength_append]
    exact Nat.le_add_right _ _
  rw [keyword, agree_append spells.length, spells.agrees, decide_eq_true long, Bool.and_self,
    if_pos rfl, ← spells.size, dropBytes_append]
  cases rest with
  | nil => rfl
  | cons c rest => simp [boundary c rfl]

theorem agree_self {word : List Char} : agree word word = true := by
  induction word with
  | nil => rfl
  | cons c word ih => simp [agree, ih]

theorem keyword_accepts_self {word : String} (boundary : Boundary rest) :
    keyword word (word.toList ++ rest) = .accept () rest :=
  keyword_accepts ⟨agree_self, rfl, rfl⟩ boundary

theorem keyword_rejects_first {word : String} {c d : Char} {others : List Char}
    (chars : word.toList = d :: others) (differs : foldCase c ≠ foldCase d) :
    Rejects (keyword word) (c :: rest) := by
  refine ⟨.here (c :: rest) .unexpectedInput, ?_⟩
  simp [keyword, chars, agree, differs, unexpected]

/-- Where a name agrees with a keyword as far as both go, the keyword is the name up to
case, or it ends inside the name. -/
theorem behind_keyword {word : List Char} (letters : word.all isKeywordLetter = true)
    (plain : ∀ c ∈ name, continuesName c = true) (boundary : Boundary rest)
    (agrees : agree (name ++ rest) word = true)
    (long : byteLength word ≤ byteLength (name ++ rest)) :
    name.map Char.toLower = word.map Char.toLower ∧
        dropBytes (byteLength word) (name ++ rest) = rest ∨
      ∃ c more, dropBytes (byteLength word) (name ++ rest) = c :: more ∧
        continuesName c = true := by
  induction word generalizing name with
  | nil =>
    cases name with
    | nil => exact .inl ⟨rfl, dropBytes_zero⟩
    | cons c name => exact .inr ⟨c, name ++ rest, dropBytes_zero, plain c List.mem_cons_self⟩
  | cons d word ih =>
    rw [List.all_cons, Bool.and_eq_true] at letters
    obtain ⟨letter, others⟩ := letters
    have ownSize := (letter_of_foldCase letter rfl).2.1
    cases name with
    | nil =>
      cases rest with
      | nil => simp [byteLength, ownSize] at long
      | cons c rest =>
        -- The keyword would go on with the character that ends the name.
        rw [List.nil_append, agree, Bool.and_eq_true, beq_iff_eq] at agrees
        have goesOn := (letter_of_foldCase letter agrees.1).2.2
        rw [boundary c rfl] at goesOn
        exact absurd goesOn (by simp)
    | cons c name =>
      rw [List.cons_append, agree, Bool.and_eq_true, beq_iff_eq] at agrees
      obtain ⟨lower, size, -⟩ := letter_of_foldCase letter agrees.1
      have step : dropBytes (byteLength (d :: word)) (c :: name ++ rest) =
          dropBytes (byteLength word) (name ++ rest) := by
        have total : byteLength (d :: word) = byteLength word + 1 := by
          simp [byteLength, ownSize, Nat.add_comm]
        rw [total, List.cons_append, dropBytes, size, Nat.add_sub_cancel]
      have shorter : byteLength word ≤ byteLength (name ++ rest) := by
        simp [byteLength, ownSize, size] at long ⊢
        omega
      have found := ih others
        (fun other isIn => plain other (List.mem_cons_of_mem c isIn)) agrees.2 shorter
      rw [step]
      rcases found with ⟨same, behind⟩ | inside
      · exact .inl ⟨by rw [List.map_cons, List.map_cons, lower, same], behind⟩
      · exact .inr inside

/-- A name where a keyword is tried: the keyword takes the whole name, or it is turned
down. -/
theorem keyword_name {word : String} (letters : word.toList.all isKeywordLetter = true)
    (plain : ∀ c ∈ name, continuesName c = true) (boundary : Boundary rest) :
    name.map Char.toLower = word.toList.map Char.toLower ∧
        keyword word (name ++ rest) = .accept () rest ∨
      Rejects (keyword word) (name ++ rest) := by
  by_cases tried : agree (name ++ rest) word.toList = true ∧
      byteLength word.toList ≤ byteLength (name ++ rest)
  · obtain ⟨agrees, long⟩ := tried
    rw [Rejects, keyword, agrees, decide_eq_true long, Bool.and_self, if_pos rfl]
    rcases behind_keyword letters plain boundary agrees long with
      ⟨same, behind⟩ | ⟨c, more, behind, goesOn⟩
    -- The keyword ends where the name ends.
    · refine .inl ⟨same, ?_⟩
      rw [behind]
      cases rest with
      | nil => rfl
      | cons c rest => simp [boundary c rfl]
    -- The name goes on behind the keyword.
    · refine .inr ⟨.here (c :: more) .unexpectedInput, ?_⟩
      rw [behind]
      simp [goesOn, unexpected]
  · refine .inr ⟨.here (name ++ rest) .unexpectedInput, ?_⟩
    rw [keyword, if_neg (by simpa using tried)]
    rfl

/-! ## Names -/

theorem isIdentifier_chars {name : String} (plain : isIdentifier name = true) :
    ∃ first others, name.toList = first :: others ∧ startsName first = true ∧
      ∀ c ∈ name.toList, continuesName c = true := by
  rw [isIdentifier] at plain
  cases chars : name.toList with
  | nil => simp [chars] at plain
  | cons first others =>
    simp only [chars, Bool.and_eq_true, List.all_eq_true] at plain
    refine ⟨first, others, rfl, plain.1, fun c isIn => ?_⟩
    rcases List.mem_cons.mp isIn with rfl | later
    · have starts := plain.1
      simp only [startsName, Bool.or_eq_true] at starts
      simp only [continuesName, Char.isAlphanum, Bool.or_eq_true]
      exact starts.imp_left .inl
    · exact plain.2 c later

theorem char_rejects_name {name : String} {c : Char} (plain : isIdentifier name = true)
    (mark : startsName c = false) : Rejects (char c) (name.toList ++ rest) := by
  obtain ⟨first, others, chars, starts, -⟩ := isIdentifier_chars plain
  rw [chars]
  refine char_rejects ?_
  rintro rfl
  rw [starts] at mark
  cases mark

theorem symbolicName_accepts {name : String} (plain : isIdentifier name = true)
    (boundary : Boundary rest) : symbolicName (name.toList ++ rest) = .accept name rest := by
  obtain ⟨first, others, chars, starts, continues⟩ := isIdentifier_chars plain
  have notQuoted : Rejects backquotedName (name.toList ++ rest) :=
    bind_rejects (char_rejects_name plain rfl)
  have others_continue : ∀ c ∈ others, continuesName c = true := fun c isIn =>
    continues c (chars ▸ List.mem_cons_of_mem first isIn)
  have taken := takeWhile_reads others_continue boundary
  rw [symbolicName, orElse_second notQuoted, chars, plainName]
  have firstRead :
      charOf startsName (first :: others ++ rest) = .accept first (others ++ rest) := by
    simp [charOf, starts]
  have othersRead : charsOf continuesName (others ++ rest) = .accept others rest := by
    rw [charsOf, taken.1, taken.2]
  rw [bind_accepts firstRead, bind_accepts othersRead, ← chars, String.ofList_toList]
  rfl

theorem symbolicName_rejects_first {c : Char} (noStart : startsName c = false)
    (noQuote : c ≠ '\x60') : Rejects symbolicName (c :: rest) := by
  refine orElse_rejects (bind_rejects (char_rejects noQuote)) (bind_rejects ?_)
  exact ⟨.here (c :: rest) .unexpectedInput, by simp [charOf, noStart, unexpected]⟩

theorem variableName_accepts {name : String} (plain : isIdentifier name = true)
    (free : isReserved name = false) (boundary : Boundary rest) :
    variableName (name.toList ++ rest) = .accept name rest :=
  satisfying_accepts (symbolicName_accepts plain boundary) (by simp [free])

/-- A name that is not reserved is not taken for a reserved keyword. -/
theorem keyword_rejects {name word : String} (plain : isIdentifier name = true)
    (free : isReserved name = false) (reserved : word ∈ reservedWords)
    (letters : word.toList.all isKeywordLetter = true) (boundary : Boundary rest) :
    Rejects (keyword word) (name.toList ++ rest) := by
  obtain ⟨first, others, chars, starts, continues⟩ := isIdentifier_chars plain
  rcases keyword_name letters continues boundary with ⟨same, -⟩ | rejected
  · have taken : isReserved name = true := by
      rw [isReserved, List.any_eq_true]
      exact ⟨word, reserved, by simp [sameIgnoringCase, same]⟩
    rw [free] at taken
    exact absurd taken (by simp)
  · exact rejected

end CypherSql.Cypher.Parser
