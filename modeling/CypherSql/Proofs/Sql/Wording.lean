import CypherSql.Proofs.Sql.Operands

/-! # Phrases are read from their text

Operators stand between operands, and the parentheses of a phrase are those that were written.  So
its tokens go by its constructors.

* `Binary.tokens`, `Unary.tokens` — what stands for an operator.
* `Phrase.tokens`, `Phrase.scans` — the tokens of a phrase.
* `Phrase.commaless`, `Phrase.quiet` — what a phrase separates, and what it reads.
* `Phrase.calls_iff` — a phrase calls `COUNT` where it counts.
-/

namespace CypherSql.Sql

open CypherSql.Cypher

/-! ## Operators -/

def Binary.tokens : Binary → List Token
  | or => [.word "OR"]
  | and => [.word "AND"]
  | compare operator => operator.symbol.toList.map .mark
  | like => [.word "LIKE"]
  | add operator => operator.symbol.toList.map .mark
  | multiply operator => operator.symbol.toList.map .mark

def Unary.tokens : Unary → List Token
  | not => [.word "NOT"]
  | negate => [.mark '-']

theorem Binary.scans (operator : Binary) :
    Scans .finish .start operator.lexeme.text operator.tokens := by
  have symbol : ∀ {text : String}, text.toList.all isMark = true →
      Scans .finish .start (" " ++ text ++ " ") (text.toList.map .mark) := by
    intro text each
    have scans := (scans_space.append (scans_marks each)).append scans_space.anywhere
    simpa using scans
  cases operator with
  | or => exact scans_spaced "OR" (by decide) (by decide)
  | and => exact scans_spaced "AND" (by decide) (by decide)
  | like => exact scans_spaced "LIKE" (by decide) (by decide)
  | compare operator => exact symbol (by cases operator <;> decide)
  | add operator => exact symbol (by cases operator <;> decide)
  | multiply operator => exact symbol (by cases operator <;> decide)

theorem Unary.scans (operator : Unary) :
    Scans .start .start operator.lexeme.text operator.tokens := by
  cases operator with
  | not => exact (scans_word "NOT" (by decide) (by decide)).append scans_space
  | negate => exact (scans_mark _ rfl (by decide)).anywhere

/-- What stands for an operator holds nothing, and it neither separates nor counts. -/
def isOperatorToken (token : Token) : Bool :=
  token.isSimple && !token.isKeyword && !token.spells "COUNT"

theorem Binary.tokens_ok (operator : Binary) :
    operator.tokens ≠ [] ∧ operator.tokens.all isOperatorToken = true := by
  cases operator with
  | or | and | like => decide
  | compare operator | add operator | multiply operator => cases operator <;> decide

theorem Unary.tokens_ok (operator : Unary) : operator.tokens.all isOperatorToken = true := by
  cases operator <;> decide

section

variable {known : List String} {row others : List Token} (each : row.all isOperatorToken = true)

include each

theorem simple_operator : ∀ token ∈ row, token.isSimple = true ∧ token.isKeyword = false ∧
    token.spells "COUNT" = false := by
  simpa [isOperatorToken, and_assoc] using each

theorem quiet_operator : Quiet known row :=
  quiet_of_flat (fun token isOne => Token.isGroup_of_isSimple (simple_operator each token isOne).1)
    fun token isOne => (simple_operator each token isOne).2.1

theorem calls_operator : calls "COUNT" (row ++ others) = calls "COUNT" others :=
  calls_append_of_forall
    (fun token isOne => Token.isGroup_of_isSimple (simple_operator each token isOne).1)
    fun token isOne => (simple_operator each token isOne).2.2

end

/-! ## Phrases -/

namespace Phrase

/-- What the text of a phrase is read as. -/
def tokens : Phrase → List Token
  | operand lexeme _ => lexeme.tokens
  | group inner => [.group inner.tokens]
  | count distinct argument =>
    [.word "COUNT", .group ((if distinct then [.word "DISTINCT"] else []) ++ argument.tokens)]
  | power base exponent =>
    [.word "POWER", .group (base.tokens ++ [.mark ','] ++ exponent.tokens)]
  | unary operator inner => operator.tokens ++ inner.tokens
  | binary operator left right => left.tokens ++ operator.tokens ++ right.tokens

/-- All operands of a phrase are read as atoms. -/
def HasAtoms (known : List String) (phrase : Phrase) : Prop :=
  ∀ lexeme ∈ phrase.fragment, lexeme.isOperand = true → lexeme.IsAtom known

variable {known : List String} {phrase : Phrase}

/-! ### Text -/

theorem text_group (inner : Phrase) :
    (group inner).fragment.text = "(" ++ inner.fragment.text ++ ")" := by
  have opened : Lexeme.opening.text = "(" := rfl
  have closed : Lexeme.closing.text = ")" := rfl
  rw [fragment, Fragment.parenthesized, List.cons_append, Fragment.text_cons, Fragment.text_append,
    Fragment.text_singleton, opened, closed, String.append_assoc]

/-- A function stands in front of its arguments in parentheses. -/
theorem text_called (name : String) (arguments : Fragment) :
    Fragment.text ([.function name, .opening] ++ arguments ++ [.closing]) =
      name ++ ("(" ++ arguments.text ++ ")") := by
  have opened : Fragment.text [.function name, .opening] = name ++ "(" := by
    rw [Fragment.text_cons, Fragment.text_singleton]
    rfl
  have closed : Lexeme.closing.text = ")" := rfl
  rw [Fragment.text_append, Fragment.text_append, opened, Fragment.text_singleton, closed]
  simp only [String.append_assoc]

theorem text_count (distinct : Bool) (argument : Phrase) :
    (count distinct argument).fragment.text =
      "COUNT" ++ ("(" ++ ((if distinct then "DISTINCT " else "") ++ argument.fragment.text) ++ ")") := by
  have marked : Fragment.text (if distinct then [.distinct] else []) =
      if distinct then "DISTINCT " else "" := by
    cases distinct <;> rfl
  rw [fragment, List.append_assoc _ (if distinct then [Lexeme.distinct] else []), text_called,
    Fragment.text_append, marked]

theorem text_power (base exponent : Phrase) :
    (power base exponent).fragment.text =
      "POWER" ++ ("(" ++ (base.fragment.text ++ ", " ++ exponent.fragment.text) ++ ")") := by
  have comma : Lexeme.comma.text = ", " := rfl
  have arguments : (power base exponent).fragment = [.function "POWER", .opening] ++
      (base.fragment ++ [.comma] ++ exponent.fragment) ++ [.closing] := by
    simp [fragment]
  rw [arguments, text_called, Fragment.text_append, Fragment.text_append, Fragment.text_singleton,
    comma]

theorem text_unary (operator : Unary) (inner : Phrase) :
    (unary operator inner).fragment.text = operator.lexeme.text ++ inner.fragment.text := by
  rw [fragment, Fragment.text_cons]

theorem text_binary (operator : Binary) (left right : Phrase) :
    (binary operator left right).fragment.text =
      left.fragment.text ++ operator.lexeme.text ++ right.fragment.text := by
  rw [fragment, Fragment.text_append, Fragment.text_cons, String.append_assoc]

/-! ### Tokens -/

section

variable {inner base exponent left right : Phrase}

theorem mem_group : inner.fragment ⊆ (group inner).fragment :=
  fun lexeme isOne => by simp [fragment, Fragment.parenthesized, isOne]

theorem mem_count {distinct : Bool} : inner.fragment ⊆ (count distinct inner).fragment :=
  fun lexeme isOne => by simp [fragment, isOne]

theorem mem_base : base.fragment ⊆ (power base exponent).fragment :=
  fun lexeme isOne => by simp [fragment, isOne]

theorem mem_exponent : exponent.fragment ⊆ (power base exponent).fragment :=
  fun lexeme isOne => by simp [fragment, isOne]

theorem mem_inner {operator : Unary} : inner.fragment ⊆ (unary operator inner).fragment :=
  List.subset_cons_self _ _

theorem mem_left {operator : Binary} : left.fragment ⊆ (binary operator left right).fragment :=
  List.subset_append_left _ _

theorem mem_right {operator : Binary} : right.fragment ⊆ (binary operator left right).fragment :=
  fun lexeme isOne => by simp [fragment, isOne]

theorem HasAtoms.part (atoms : phrase.HasAtoms known) (inside : inner.fragment ⊆ phrase.fragment) :
    inner.HasAtoms known :=
  fun lexeme isOne => atoms lexeme (inside isOne)

end

theorem scans (atoms : phrase.HasAtoms known) :
    Scans .start .finish phrase.fragment.text phrase.tokens := by
  induction phrase with
  | operand lexeme stands =>
    rw [fragment, Fragment.text_singleton]
    exact (atoms lexeme List.mem_cons_self stands).scans
  | group inner ih =>
    rw [text_group]
    exact (scans_group (ih (atoms.part mem_group))).anywhere.loosen
  | count distinct argument ih =>
    have marked : Scans .start .start (if distinct then "DISTINCT " else "")
        (if distinct then [.word "DISTINCT"] else []) := by
      cases distinct
      · exact scans_empty
      · exact (scans_word "DISTINCT" (by decide) (by decide)).append scans_space
    have inside := marked.append (ih (atoms.part mem_count))
    rw [text_count]
    exact (scans_word "COUNT" (by decide) (by decide)).append (scans_group inside).loosen
  | power base exponent ihBase ihExponent =>
    have inside := ((ihBase (atoms.part mem_base)).append scans_comma).append
      (ihExponent (atoms.part mem_exponent))
    rw [text_power]
    exact (scans_word "POWER" (by decide) (by decide)).append (scans_group inside).loosen
  | unary operator inner ih =>
    rw [text_unary]
    exact operator.scans.append (ih (atoms.part mem_inner))
  | binary operator left right ihLeft ihRight =>
    rw [text_binary]
    exact ((ihLeft (atoms.part mem_left)).append operator.scans).append
      (ihRight (atoms.part mem_right))

theorem present (atoms : phrase.HasAtoms known) : phrase.tokens ≠ [] := by
  induction phrase with
  | operand lexeme stands => exact (atoms lexeme List.mem_cons_self stands).present
  | group | count | power => exact List.cons_ne_nil _ _
  | unary operator inner ih => exact List.append_ne_nil_of_right_ne_nil _ (ih (atoms.part mem_inner))
  | binary operator left right ihLeft ihRight =>
    exact List.append_ne_nil_of_right_ne_nil _ (ihRight (atoms.part mem_right))

/-- Commas stand between parentheses only. -/
theorem commaless (atoms : phrase.HasAtoms known) :
    ∀ token ∈ phrase.tokens, token.isComma = false := by
  have called : ∀ (name : String) (row : List Token),
      ∀ token ∈ [Token.word name, .group row], token.isComma = false :=
    fun _ _ => List.forall_mem_cons.mpr ⟨rfl, List.forall_mem_singleton.mpr rfl⟩
  have operators : ∀ {row : List Token}, row.all isOperatorToken = true →
      ∀ token ∈ row, token.isComma = false :=
    fun each token isOne => Token.isComma_of_isSimple (simple_operator each token isOne).1
  induction phrase with
  | operand lexeme stands => exact (atoms lexeme List.mem_cons_self stands).commaless
  | group inner => exact List.forall_mem_singleton.mpr rfl
  | count | power => exact called _ _
  | unary operator inner ih =>
    exact List.forall_mem_append.mpr ⟨operators operator.tokens_ok, ih (atoms.part mem_inner)⟩
  | binary operator left right ihLeft ihRight =>
    exact List.forall_mem_append.mpr ⟨List.forall_mem_append.mpr ⟨ihLeft (atoms.part mem_left),
      operators operator.tokens_ok.2⟩, ihRight (atoms.part mem_right)⟩

/-- Only sub-selects name tables. -/
theorem quiet (atoms : phrase.HasAtoms known)
    (avoids : ∀ lexeme ∈ phrase.fragment, lexeme.Avoids) : Quiet known phrase.tokens := by
  induction phrase with
  | operand lexeme stands =>
    exact (atoms lexeme List.mem_cons_self stands).quiet (avoids lexeme List.mem_cons_self)
  | group inner ih =>
    have quiet := ih (atoms.part mem_group) fun lexeme isOne => avoids lexeme (mem_group isOne)
    exact quiet_group quiet.readsOnly.allRows
  | count distinct argument ih =>
    have quiet := ih (atoms.part mem_count) fun lexeme isOne => avoids lexeme (mem_count isOne)
    have marked : ReadsOnly known (if distinct then [.word "DISTINCT"] else []) := by
      cases distinct <;> exact readsOnly_of_flat (by decide) (by decide)
    have name : Quiet known [.word "COUNT"] := quiet_of_flat (by decide) (by decide)
    exact name.append (quiet_group (marked.append quiet.readsOnly).allRows)
  | power base exponent ihBase ihExponent =>
    have ofBase := ihBase (atoms.part mem_base) fun lexeme isOne => avoids lexeme (mem_base isOne)
    have ofExponent := ihExponent (atoms.part mem_exponent)
      fun lexeme isOne => avoids lexeme (mem_exponent isOne)
    have comma : Quiet known [.mark ','] := quiet_of_flat (by decide) (by decide)
    have name : Quiet known [.word "POWER"] := quiet_of_flat (by decide) (by decide)
    exact name.append (quiet_group ((ofBase.append comma).append ofExponent).readsOnly.allRows)
  | unary operator inner ih =>
    exact (quiet_operator operator.tokens_ok).append
      (ih (atoms.part mem_inner) fun lexeme isOne => avoids lexeme (mem_inner isOne))
  | binary operator left right ihLeft ihRight =>
    have ofLeft := ihLeft (atoms.part mem_left) fun lexeme isOne => avoids lexeme (mem_left isOne)
    have ofRight := ihRight (atoms.part mem_right) fun lexeme isOne => avoids lexeme (mem_right isOne)
    exact (ofLeft.append (quiet_operator operator.tokens_ok.2)).append ofRight

/-! ### Calls -/

theorem calls_operated {operator row others : List Token} (present : operator ≠ [])
    (each : operator.all isOperatorToken = true) :
    calls "COUNT" (row ++ operator ++ others) = (calls "COUNT" row || calls "COUNT" others) := by
  have apart : (operator ++ others).head?.any Token.isGroup = false := by
    obtain ⟨token, rest, rfl⟩ := List.exists_cons_of_ne_nil present
    exact Token.isGroup_of_isSimple (simple_operator each token List.mem_cons_self).1
  rw [List.append_assoc, calls_append apart, calls_operator each]

/-- A phrase calls `COUNT` where it counts, and nowhere else. -/
theorem calls_iff (atoms : phrase.HasAtoms known) :
    calls "COUNT" phrase.tokens = true ↔ .function "COUNT" ∈ phrase.fragment := by
  induction phrase with
  | operand lexeme stands =>
    have uncalled := (atoms lexeme List.mem_cons_self stands).uncalled
    have other : Lexeme.function "COUNT" ≠ lexeme := by
      rintro rfl
      contradiction
    simp [tokens, fragment, uncalled, other]
  | group inner ih =>
    rw [tokens, calls_group, ih (atoms.part mem_group)]
    simp [fragment, Fragment.parenthesized]
  | count distinct argument =>
    have spelled : (Token.word "COUNT").spells "COUNT" = true := by decide
    rw [tokens, calls_called, spelled]
    simp [fragment]
  | power base exponent ihBase ihExponent =>
    have other : (Token.word "POWER").spells "COUNT" = false := by decide
    rw [tokens, calls_called, other, Bool.false_or, List.append_assoc, calls_append rfl,
      List.singleton_append, calls_cons rfl rfl, Bool.or_eq_true, ihBase (atoms.part mem_base),
      ihExponent (atoms.part mem_exponent)]
    simp [fragment]
  | unary operator inner ih =>
    have other : Lexeme.function "COUNT" ≠ operator.lexeme := by cases operator <;> simp [Unary.lexeme]
    rw [tokens, calls_operator operator.tokens_ok, ih (atoms.part mem_inner)]
    simp [fragment, other]
  | binary operator left right ihLeft ihRight =>
    have other : Lexeme.function "COUNT" ≠ operator.lexeme := by cases operator <;> simp [Binary.lexeme]
    obtain ⟨present, each⟩ := operator.tokens_ok
    rw [tokens, calls_operated present each, Bool.or_eq_true, ihLeft (atoms.part mem_left),
      ihRight (atoms.part mem_right)]
    simp [fragment, other]

end Phrase

end CypherSql.Sql
