import CypherSql.Compilation.Expression
import Mathlib.Data.List.Forall2
import Mathlib.Data.List.Infix

/-! # What `LIKE` matches

A pattern is matched from its first character to its last, so what two patterns match one after the
other is put together from what each of them matches.  The pattern of a string test holds the text
of the test between signs of its own, and the characters of the text are signs as well.

* `constant?` — the characters that a constant between quotes stands for.
* `likes` — what a pattern matches.
* `StringOperator.Holds` — what a string test asks for.
* `likes_append_iff` — patterns one after the other.
* `likes_likePattern_iff` — the pattern of a string test asks for some text that its text matches.
* `likePattern_exact_iff` — it asks for its text exactly where that text holds no sign.
-/

namespace CypherSql

open CypherSql.Cypher (StringOperator)

namespace Sql

/-! ## Constants -/

/-- The characters behind the first quote of a constant.  Two quotes in a row stand for one, and one
closes the constant. -/
def quotedText? : List Char → Option (List Char)
  | [] => none
  | '\x27' :: rest =>
    match rest with
    | [] => some []
    | '\x27' :: rest => (quotedText? rest).map ('\x27' :: ·)
    | _ :: _ => none
  | character :: rest => (quotedText? rest).map (character :: ·)

def constant? : List Char → Option (List Char)
  | '\x27' :: rest => quotedText? rest
  | _ => none

theorem quotedText?_append_quote {text : List Char} (unquoted : '\x27' ∉ text) :
    quotedText? (text ++ ['\x27']) = some text := by
  induction text with
  | nil => rfl
  | cons character rest ih =>
    rw [List.mem_cons, not_or] at unquoted
    rw [List.cons_append, quotedText?, ih unquoted.2, Option.map_some]
    exact fun same => unquoted.1 same.symm

/-- Without a quote in it a text is the constant that is written for it. -/
theorem constant?_literalText {text : String} (unquoted : '\x27' ∉ text.toList) :
    constant? (literalText (.string text)).toList = some text.toList := by
  have written : (literalText (.string text)).toList = '\x27' :: (text.toList ++ ['\x27']) := by
    simp [literalText, String.toList_append]
  rw [written, constant?, quotedText?_append_quote unquoted]

/-! ## Patterns -/

/-- `%` matches any characters, `_` matches any one, and every other character matches itself. -/
def likes : List Char → List Char → Bool
  | [], value => value.isEmpty
  | '%' :: pattern, value => value.tails.any (likes pattern)
  | _ :: _, [] => false
  | sign :: pattern, character :: rest => (sign == '_' || sign == character) && likes pattern rest

def IsSign (character : Char) : Prop :=
  character = '%' ∨ character = '_'

instance : DecidablePred IsSign :=
  fun _ => inferInstanceAs (Decidable (_ ∨ _))

section

variable {pattern value : List Char}

theorem likes_nil_iff : likes [] value = true ↔ value = [] := by
  rw [likes, List.isEmpty_iff]

theorem likes_any_iff : likes ('%' :: pattern) value = true ↔
    ∃ skipped rest, value = skipped ++ rest ∧ likes pattern rest = true := by
  rw [likes, List.any_eq_true]
  constructor
  · rintro ⟨rest, isTail, like⟩
    obtain ⟨skipped, rfl⟩ := (List.mem_tails _ _).mp isTail
    exact ⟨skipped, rest, rfl, like⟩
  · rintro ⟨skipped, rest, rfl, like⟩
    exact ⟨rest, (List.mem_tails _ _).mpr ⟨skipped, rfl⟩, like⟩

theorem likes_one_iff {sign : Char} (one : sign ≠ '%') :
    likes (sign :: pattern) value = true ↔ ∃ character rest, value = character :: rest ∧
      (sign = '_' ∨ sign = character) ∧ likes pattern rest = true := by
  cases value with
  | nil => simp [likes]
  | cons character rest => simp [likes, and_assoc]

/-- A value that two patterns match one after the other falls into two parts. -/
theorem likes_append_iff {first second : List Char} :
    likes (first ++ second) value = true ↔ ∃ left right, value = left ++ right ∧
      likes first left = true ∧ likes second right = true := by
  induction first generalizing value with
  | nil => simp [likes_nil_iff]
  | cons sign pattern ih =>
    rw [List.cons_append]
    by_cases isAny : sign = '%'
    · subst isAny
      simp only [likes_any_iff, ih]
      -- What `%` skips belongs to the left part.
      constructor
      · rintro ⟨skipped, _, rfl, left, right, rfl, likeLeft, likeRight⟩
        exact ⟨skipped ++ left, right, (List.append_assoc _ _ _).symm, ⟨skipped, left, rfl, likeLeft⟩,
          likeRight⟩
      · rintro ⟨_, right, rfl, ⟨skipped, left, rfl, likeLeft⟩, likeRight⟩
        exact ⟨skipped, left ++ right, List.append_assoc _ _ _, left, right, rfl, likeLeft, likeRight⟩
    · simp only [likes_one_iff isAny, ih]
      constructor
      · rintro ⟨character, _, rfl, same, left, right, rfl, likeLeft, likeRight⟩
        exact ⟨character :: left, right, rfl, ⟨character, left, rfl, same, likeLeft⟩, likeRight⟩
      · rintro ⟨_, right, rfl, ⟨character, left, rfl, same, likeLeft⟩, likeRight⟩
        exact ⟨character, left ++ right, rfl, same, left, right, rfl, likeLeft, likeRight⟩

theorem likes_any (value : List Char) : likes ['%'] value = true :=
  likes_any_iff.mpr ⟨value, [], (List.append_nil value).symm, rfl⟩

/-! ## Texts as patterns -/

/-- A sign matches any one character, so a text matches whatever differs from it at signs only. -/
theorem likes_of_forall₂ {text : List Char}
    (similar : List.Forall₂ (fun sign character => IsSign sign ∨ sign = character) text value) :
    likes text value = true := by
  induction similar with
  | nil => rfl
  | @cons sign character pattern rest isSame _ ih =>
    by_cases isAny : sign = '%'
    · subst isAny
      exact likes_any_iff.mpr ⟨[character], rest, rfl, ih⟩
    · refine (likes_one_iff isAny).mpr ⟨character, rest, rfl, ?_, ih⟩
      exact isSame.imp_left fun isSign => isSign.resolve_left isAny

theorem likes_self (text : List Char) : likes text text = true :=
  likes_of_forall₂ (List.forall₂_same.mpr fun _ _ => .inr rfl)

theorem likes_iff_eq {text : List Char} (plain : ∀ character ∈ text, ¬IsSign character) :
    likes text value = true ↔ value = text := by
  refine ⟨fun like => ?_, fun same => same ▸ likes_self text⟩
  induction text generalizing value with
  | nil => exact likes_nil_iff.mp like
  | cons sign pattern ih =>
    obtain ⟨noSign, plainRest⟩ := List.forall_mem_cons.mp plain
    obtain ⟨noAny, noOne⟩ := not_or.mp noSign
    obtain ⟨character, rest, rfl, isOne | rfl, likeRest⟩ := (likes_one_iff noAny).mp like
    · exact absurd isOne noOne
    · rw [ih plainRest likeRest]

/-- A text with a sign in it matches another text of the same length. -/
theorem exists_likes_ne {text : List Char} (signed : ∃ character ∈ text, IsSign character) :
    ∃ other, likes text other = true ∧ other.length = text.length ∧ other ≠ text := by
  obtain ⟨sign, isOne, isSign⟩ := signed
  -- Every sign is replaced by a character that is none.
  refine ⟨text.map fun character => if IsSign character then 'x' else character, ?_,
    List.length_map _, ?_⟩
  · refine likes_of_forall₂ (List.forall₂_map_right_iff.mpr (List.forall₂_same.mpr ?_))
    intro character _
    split
    · next isSign => exact .inl isSign
    · exact .inr rfl
  · intro same
    have replaced : sign ∈ text.map fun character => if IsSign character then 'x' else character :=
      same.symm ▸ isOne
    obtain ⟨character, _, isReplaced⟩ := List.mem_map.mp replaced
    split at isReplaced
    · subst isReplaced
      revert isSign
      decide
    · next noSign => exact noSign (isReplaced ▸ isSign)

end

end Sql

/-! ## String tests -/

/-- What a string test asks for of a value. -/
def Cypher.StringOperator.Holds (text value : List Char) : StringOperator → Prop
  | .startsWith => text <+: value
  | .endsWith => text <:+ value
  | .contains => text <:+: value

instance (text value : List Char) (operator : StringOperator) :
    Decidable (operator.Holds text value) :=
  match operator with
  | .startsWith => inferInstanceAs (Decidable (text <+: value))
  | .endsWith => inferInstanceAs (Decidable (text <:+ value))
  | .contains => inferInstanceAs (Decidable (text <:+: value))

namespace Sql

open Compilation (likePattern)

/-- The pattern of a string test matches a value if the test holds for some text that is matched by
the text of the test. -/
theorem likes_likePattern_iff (operator : StringOperator) (text : String) {value : List Char} :
    likes (likePattern operator text).toList value = true ↔
      ∃ part, likes text.toList part = true ∧ operator.Holds part value := by
  cases operator with
  | startsWith =>
    rw [likePattern, String.toList_append, likes_append_iff]
    constructor
    · rintro ⟨part, rest, rfl, like, -⟩
      exact ⟨part, like, rest, rfl⟩
    · rintro ⟨part, like, rest, rfl⟩
      exact ⟨part, rest, rfl, like, likes_any rest⟩
  | endsWith =>
    rw [likePattern, String.toList_append, likes_append_iff]
    constructor
    · rintro ⟨skipped, part, rfl, -, like⟩
      exact ⟨part, like, skipped, rfl⟩
    · rintro ⟨part, like, skipped, rfl⟩
      exact ⟨skipped, part, rfl, likes_any skipped, like⟩
  | contains =>
    rw [likePattern, String.toList_append, String.toList_append, likes_append_iff]
    constructor
    · rintro ⟨_, rest, rfl, like, -⟩
      obtain ⟨skipped, part, rfl, -, like⟩ := likes_append_iff.mp like
      exact ⟨part, like, skipped, rest, rfl⟩
    · rintro ⟨part, like, skipped, rest, rfl⟩
      exact ⟨skipped ++ part, rest, rfl,
        likes_append_iff.mpr ⟨skipped, part, rfl, likes_any skipped, like⟩, likes_any rest⟩

/-- A text of the same length holds the text of a test only if it is that text. -/
theorem holds_iff_eq (operator : StringOperator) {text value : List Char}
    (sameLength : value.length = text.length) : operator.Holds text value ↔ text = value := by
  cases operator with
  | startsWith =>
    exact ⟨fun holds => holds.eq_of_length sameLength.symm, fun same => same ▸ List.prefix_rfl⟩
  | endsWith =>
    exact ⟨fun holds => holds.eq_of_length sameLength.symm, fun same => same ▸ List.suffix_rfl⟩
  | contains =>
    exact ⟨fun holds => holds.eq_of_length sameLength.symm, fun same => same ▸ List.infix_rfl⟩

/-- The pattern of a string test asks for what the test asks for, exactly if its text holds no
sign. -/
theorem likePattern_exact_iff (operator : StringOperator) (text : String) :
    (∀ value, likes (likePattern operator text).toList value = true ↔
        operator.Holds text.toList value) ↔
      ∀ character ∈ text.toList, ¬IsSign character := by
  constructor
  · intro agrees character isOne isSign
    -- A value that is as long as the text holds it only if it is the text.
    obtain ⟨other, like, sameLength, differs⟩ := exists_likes_ne ⟨character, isOne, isSign⟩
    have whole : operator.Holds other other := (holds_iff_eq operator rfl).mpr rfl
    have holds := (agrees other).mp ((likes_likePattern_iff operator text).mpr ⟨other, like, whole⟩)
    exact differs ((holds_iff_eq operator sameLength).mp holds).symm
  · intro plain value
    rw [likes_likePattern_iff]
    constructor
    · rintro ⟨part, like, holds⟩
      exact (likes_iff_eq plain).mp like ▸ holds
    · exact fun holds => ⟨text.toList, likes_self _, holds⟩

end Sql

end CypherSql
