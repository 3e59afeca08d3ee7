import CypherSql.Text.Blank
import CypherSql.Text.Identifier
import Mathlib.Data.List.Basic

/-! # The tokens of SQL texts

A database is given text.  It reads it from left to right as words, texts between quotes and single
marks, and what stands between parentheses is a row of tokens of its own.

* `isWord`, `isNumber` — texts of letters, digits and underscores, and those of digits.
* `Token`, `Scanner` — what is read, and where reading stands.
* `hasComment` — a comment begins outside of quotes.
* `scan`, `tokens` — what a text is read as, and what a text without comments is read as.
* `Scans` — wherever reading stands, a text adds these tokens.
* `Scans.append`, `Scans.intercalate`, `scans_group` — texts that are put together.
* `Scans.scan_eq`, `Scans.tokens_eq` — so a whole text is read as these tokens.
-/

namespace CypherSql.Sql

open CypherSql.Text (continuesName isBlank isIdentifier sameIgnoringCase startsName)

/-! ## Words and numbers -/

/-- A text without any character that cannot be part of a name. -/
def isWord (text : String) : Bool :=
  text.toList.all continuesName

/-- Digits and nothing else. -/
def isNumber (text : String) : Bool :=
  !text.toList.isEmpty && text.toList.all Char.isDigit

theorem isWord_append (first second : String) :
    isWord (first ++ second) = (isWord first && isWord second) := by
  simp [isWord]

theorem isWord_of_isNumber {text : String} (number : isNumber text = true) :
    isWord text = true := by
  rw [isNumber, Bool.and_eq_true, List.all_eq_true] at number
  refine List.all_eq_true.mpr fun c isOne => ?_
  simp [continuesName, Char.isAlphanum, number.2 c isOne]

theorem isWord_of_isIdentifier {text : String} (isName : isIdentifier text = true) :
    isWord text = true := by
  unfold isIdentifier at isName
  unfold isWord
  cases letters : text.toList with
  | nil => rfl
  | cons first rest =>
    rw [letters] at isName
    obtain ⟨starts, continues⟩ := Bool.and_eq_true_iff.mp isName
    have continuesFirst : continuesName first = true := by
      rw [startsName, Bool.or_eq_true] at starts
      rcases starts with alpha | underscore
      · simp [continuesName, Char.isAlphanum, alpha]
      · simp [continuesName, underscore]
    rw [List.all_cons, continuesFirst, continues]
    rfl

theorem ne_empty_of_isIdentifier {text : String} (isName : isIdentifier text = true) :
    text ≠ "" := by
  rintro rfl
  contradiction

theorem isNumber_toString (value : Nat) : isNumber (toString value) = true := by
  have digits : ∀ c ∈ Nat.toDigits 10 value, c.isDigit = true :=
    fun c isOne => Nat.isDigit_of_mem_toDigits (by decide) (by decide) isOne
  rw [isNumber, Nat.toString_eq_repr, Nat.toList_repr, Bool.and_eq_true, List.all_eq_true]
  exact ⟨by simp [Nat.toDigits_ne_nil], digits⟩

/-! ## Reading -/

inductive Token where
  | word (text : String)
  | quoted (text : String)
  | mark (symbol : Char)
  | group (inner : List Token)

namespace Token

/-- SQL does not tell the cases of its keywords apart. -/
def spells (keyword : String) : Token → Bool
  | word text => sameIgnoringCase text keyword
  | _ => false

def isComma : Token → Bool
  | mark symbol => symbol == ','
  | _ => false

def isGroup : Token → Bool
  | group _ => true
  | _ => false

end Token

inductive Mode where
  | between
  | word (letters : List Char)
  | quoted (letters : List Char)

/-- Where reading stands: what is being read, the tokens of the innermost parentheses so far, and
those of the parentheses around them. -/
structure Scanner where
  mode : Mode
  level : List Token
  outer : List (List Token)

namespace Scanner

/-- The tokens of the innermost parentheses, with a word that ends here. -/
def settled : Scanner → List Token
  | ⟨.word letters, level, _⟩ => level ++ [.word (String.ofList letters)]
  | ⟨_, level, _⟩ => level

/-- What begins with a character that continues nothing. -/
def enter (level : List Token) (outer : List (List Token)) (c : Char) : Option Scanner :=
  if continuesName c then some ⟨.word [c], level, outer⟩
  else if isBlank c then some ⟨.between, level, outer⟩
  else if c == '\'' then some ⟨.quoted [], level, outer⟩
  else if c == '(' then some ⟨.between, [], level :: outer⟩
  else if c == ')' then
    match outer with
    | around :: outer => some ⟨.between, around ++ [.group level], outer⟩
    | [] => none
  else some ⟨.between, level ++ [.mark c], outer⟩

def next (scanner : Scanner) (c : Char) : Option Scanner :=
  match scanner with
  | ⟨.quoted letters, level, outer⟩ =>
    if c == '\'' then some ⟨.between, level ++ [.quoted (String.ofList letters)], outer⟩
    else some ⟨.quoted (letters ++ [c]), level, outer⟩
  | ⟨.word letters, level, outer⟩ =>
    if continuesName c then some ⟨.word (letters ++ [c]), level, outer⟩
    else enter scanner.settled outer c
  | ⟨.between, level, outer⟩ => enter level outer c

def run (scanner : Scanner) (letters : List Char) : Option Scanner :=
  letters.foldlM next scanner

theorem run_append (scanner : Scanner) (first others : List Char) :
    scanner.run (first ++ others) = (scanner.run first).bind fun next => next.run others :=
  List.foldlM_append

theorem run_cons (scanner : Scanner) (c : Char) (rest : List Char) :
    scanner.run (c :: rest) = (scanner.next c).bind fun next => next.run rest :=
  List.foldlM_cons

theorem run_singleton (scanner : Scanner) (c : Char) : scanner.run [c] = scanner.next c := by
  rw [run_cons]
  exact Option.bind_fun_some _

end Scanner

/-- A comment begins outside of quotes. -/
def commentBegins (quoted : Bool) : List Char → Bool
  | [] => false
  | c :: rest =>
    (!quoted && (c == '#' || ['-', '-'].isPrefixOf (c :: rest) || ['/', '*'].isPrefixOf (c :: rest)))
      || commentBegins (quoted != (c == '\'')) rest

def hasComment (text : String) : Bool :=
  commentBegins false text.toList

/-- What a text is read as, if its quotes and parentheses are closed. -/
def scan (text : String) : Option (List Token) :=
  match Scanner.run ⟨.between, [], []⟩ text.toList with
  | some ⟨.quoted _, _, _⟩ => none
  | some ⟨mode, level, []⟩ => some (Scanner.settled ⟨mode, level, []⟩)
  | _ => none

/-- What a text is read as, if no comment hides a part of it. -/
def tokens (text : String) : Option (List Token) :=
  if hasComment text then none else scan text

/-! ## Pieces of text -/

/-- Where a piece of text begins or ends: directly behind a word, another one would be read as a
part of it. -/
inductive Position where
  | start
  | finish

def Scanner.Stands : Position → Scanner → Prop
  | .start, ⟨.between, _, _⟩ => True
  | .finish, ⟨.between, _, _⟩ | .finish, ⟨.word _, _, _⟩ => True
  | _, _ => False

/-- Reading has gone from one place to another in the same parentheses, over these tokens. -/
structure Scanner.Gains (scanner : Scanner) (position : Position) (read : List Token)
    (next : Scanner) : Prop where
  stands : next.Stands position
  settled : next.settled = scanner.settled ++ read
  outer : next.outer = scanner.outer

/-- Wherever reading stands at a place like `before`, it goes on over a text to a place like
`after`, and the text adds these tokens. -/
def Scans (before after : Position) (text : String) (read : List Token) : Prop :=
  ∀ scanner : Scanner, scanner.Stands before →
    ∃ next, scanner.run text.toList = some next ∧ scanner.Gains after read next

namespace Scanner

theorem Stands.finish {scanner : Scanner} {position : Position} (stands : scanner.Stands position) :
    scanner.Stands .finish := by
  obtain ⟨mode, _, _⟩ := scanner
  cases position <;> cases mode <;> trivial

theorem Stands.of_start {scanner : Scanner} {position : Position} (stands : scanner.Stands .start) :
    scanner.Stands position := by
  obtain ⟨mode, _, _⟩ := scanner
  cases mode with
  | between => cases position <;> trivial
  | word | quoted => contradiction

/-- In front of a word that has ended, anything begins as if nothing stood there. -/
theorem Stands.next_eq {scanner : Scanner} (stands : scanner.Stands .finish) {c : Char}
    (ends : continuesName c = false) : scanner.next c = enter scanner.settled scanner.outer c := by
  obtain ⟨mode, _, _⟩ := scanner
  cases mode with
  | between => rfl
  | word => simp [next, ends]
  | quoted => contradiction

end Scanner

section

variable {before middle after : Position} {text more : String} {read others : List Token}

theorem Scans.append (first : Scans before middle text read) (second : Scans middle after more others) :
    Scans before after (text ++ more) (read ++ others) := by
  intro scanner stands
  obtain ⟨next, ran, gains⟩ := first scanner stands
  obtain ⟨last, ranOn, gainsMore⟩ := second next gains.stands
  refine ⟨last, ?_, gainsMore.stands, ?_, gainsMore.outer.trans gains.outer⟩
  · rw [String.toList_append, Scanner.run_append, ran]
    exact ranOn
  · rw [gainsMore.settled, gains.settled, List.append_assoc]

/-- What can begin behind a word can begin anywhere. -/
theorem Scans.anywhere (scans : Scans .finish after text read) : Scans before after text read :=
  fun scanner stands => scans scanner stands.finish

/-- Where anything can begin, what cannot follow a word can begin, too. -/
theorem Scans.loosen (scans : Scans before .start text read) : Scans before after text read := by
  intro scanner stands
  obtain ⟨next, ran, gains⟩ := scans scanner stands
  exact ⟨next, ran, gains.stands.of_start, gains.settled, gains.outer⟩

theorem Scans.finish (scans : Scans before .start text read) : Scans before .finish text read :=
  scans.loosen

theorem scans_empty : Scans before before "" [] :=
  fun scanner stands => ⟨scanner, rfl, stands, (List.append_nil _).symm, rfl⟩

/-- A single character that is no part of a word. -/
theorem scans_char {c : Char} (isText : text.toList = [c]) (ends : continuesName c = false)
    (entered : ∀ level outer,
      Scanner.enter level outer c = some ⟨.between, level ++ read, outer⟩) :
    Scans .finish .start text read := by
  intro scanner stands
  refine ⟨⟨.between, scanner.settled ++ read, scanner.outer⟩, ?_, trivial, rfl, rfl⟩
  rw [isText, Scanner.run_singleton, stands.next_eq ends, entered]

theorem scans_space : Scans .finish .start " " [] :=
  scans_char (c := ' ') rfl (by decide) fun level _ => by
    rw [List.append_nil]
    rfl

theorem scans_newline : Scans .finish .start "\n" [] :=
  scans_char (c := '\n') rfl (by decide) fun level _ => by
    rw [List.append_nil]
    rfl

/-- A character that is a token by itself. -/
def isMark (c : Char) : Bool :=
  !continuesName c && !isBlank c && !(['\'', '(', ')'].contains c)

theorem enter_mark {c : Char} (isOne : isMark c = true) (level : List Token)
    (outer : List (List Token)) :
    Scanner.enter level outer c = some ⟨.between, level ++ [.mark c], outer⟩ := by
  simp only [isMark, Bool.and_eq_true, Bool.not_eq_true', List.contains_eq_mem, List.mem_cons,
    List.not_mem_nil, or_false, decide_eq_false_iff_not, not_or] at isOne
  obtain ⟨⟨noName, noBlank⟩, noQuote, noOpening, noClosing⟩ := isOne
  simp [Scanner.enter, noName, noBlank, noQuote, noOpening, noClosing]

theorem scans_mark (text : String) {c : Char} (isText : text.toList = [c]) (isOne : isMark c = true) :
    Scans .finish .start text [.mark c] := by
  refine scans_char isText ?_ (enter_mark isOne)
  simp only [isMark, Bool.and_eq_true, Bool.not_eq_true'] at isOne
  exact isOne.1.1

/-- Several marks in a row, such as those of `<=`. -/
theorem scans_marks (each : text.toList.all isMark = true) :
    Scans .start .start text (text.toList.map .mark) := by
  rintro ⟨_ | _ | _, level, outer⟩ stands
  case between =>
    refine ⟨⟨.between, level ++ text.toList.map .mark, outer⟩, ?_, trivial, rfl, rfl⟩
    generalize text.toList = letters at each
    induction letters generalizing level with
    | nil => simp [Scanner.run]
    | cons c rest ih =>
      simp only [List.all_cons, Bool.and_eq_true] at each
      rw [Scanner.run_cons, Scanner.next, enter_mark each.1, Option.bind_some, ih _ trivial each.2]
      simp
  all_goals contradiction

theorem run_word {letters : List Char} (each : letters.all continuesName = true)
    (before : List Char) (level : List Token) (outer : List (List Token)) :
    Scanner.run ⟨.word before, level, outer⟩ letters =
      some ⟨.word (before ++ letters), level, outer⟩ := by
  induction letters generalizing before with
  | nil => simp [Scanner.run]
  | cons c rest ih =>
    simp only [List.all_cons, Bool.and_eq_true] at each
    rw [Scanner.run_cons, Scanner.next, if_pos each.1, Option.bind_some, ih each.2]
    simp

theorem scans_word (text : String) (present : text ≠ "") (each : isWord text = true) :
    Scans .start .finish text [.word text] := by
  rintro ⟨_ | _ | _, level, outer⟩ stands
  case between =>
    refine ⟨⟨.word text.toList, level, outer⟩, ?_, trivial, ?_, rfl⟩
    · obtain ⟨c, rest, isText⟩ := List.exists_cons_of_ne_nil (mt String.toList_eq_nil_iff.mp present)
      rw [isWord, isText, List.all_cons, Bool.and_eq_true] at each
      have entered : Scanner.next ⟨.between, level, outer⟩ c = some ⟨.word [c], level, outer⟩ := by
        simp [Scanner.next, Scanner.enter, each.1]
      rw [isText, Scanner.run_cons, entered, Option.bind_some, run_word each.2]
      rfl
    · simp [Scanner.settled]
  all_goals contradiction

theorem run_quoted {letters : List Char} (closed : '\'' ∉ letters) (before : List Char)
    (level : List Token) (outer : List (List Token)) :
    Scanner.run ⟨.quoted before, level, outer⟩ letters =
      some ⟨.quoted (before ++ letters), level, outer⟩ := by
  induction letters generalizing before with
  | nil => simp [Scanner.run]
  | cons c rest ih =>
    obtain ⟨other, closed⟩ := List.ne_and_not_mem_of_not_mem_cons closed
    rw [Scanner.run_cons, Scanner.next, if_neg (by simpa using Ne.symm other), Option.bind_some,
      ih closed]
    simp

/-- A text between quotes ends at the next quote. -/
theorem scans_quoted (closed : '\'' ∉ text.toList) :
    Scans .finish .start ("'" ++ text ++ "'") [.quoted text] := by
  intro scanner stands
  refine ⟨⟨.between, scanner.settled ++ [.quoted text], scanner.outer⟩, ?_, trivial, rfl, rfl⟩
  have letters : ("'" ++ text ++ "'").toList = '\'' :: (text.toList ++ ['\'']) := by
    rw [String.toList_append, String.toList_append]
    rfl
  rw [letters, Scanner.run_cons, stands.next_eq (by decide)]
  change Scanner.run ⟨.quoted [], scanner.settled, scanner.outer⟩ _ = _
  rw [Scanner.run_append, run_quoted closed, Option.bind_some, Scanner.run_singleton]
  simp [Scanner.next]

/-- What stands between parentheses is one token of the row around them. -/
theorem scans_group (inner : Scans .start .finish text read) :
    Scans .finish .start ("(" ++ text ++ ")") [.group read] := by
  intro scanner stands
  refine ⟨⟨.between, scanner.settled ++ [.group read], scanner.outer⟩, ?_, trivial, rfl, rfl⟩
  have letters : ("(" ++ text ++ ")").toList = '(' :: (text.toList ++ [')']) := by
    rw [String.toList_append, String.toList_append]
    rfl
  obtain ⟨last, ran, gains⟩ := inner ⟨.between, [], scanner.settled :: scanner.outer⟩ trivial
  rw [letters, Scanner.run_cons, stands.next_eq (by decide)]
  change Scanner.run ⟨.between, [], scanner.settled :: scanner.outer⟩ _ = _
  rw [Scanner.run_append, ran, Option.bind_some, Scanner.run_singleton,
    gains.stands.next_eq (by decide), gains.settled, gains.outer]
  rfl

/-! ## Texts in a row -/

/-- Texts with a separator between them. -/
theorem Scans.intercalate {separator : String} {between : List Token}
    (separates : Scans .finish .start separator between) {texts : List String}
    {rows : List (List Token)} (present : texts ≠ [])
    (each : List.Forall₂ (Scans .start .finish) texts rows) :
    Scans .start .finish (separator.intercalate texts) (between.intercalate rows) := by
  induction each with
  | nil => contradiction
  | @cons text row texts rows first each ih =>
    cases each with
    | nil => simpa [String.intercalate_singleton] using first
    | @cons second secondRow texts rows isSecond each =>
      rw [String.intercalate_cons_cons, List.intercalate_cons_cons]
      exact (first.append separates).append (ih (List.cons_ne_nil _ _))

/-- A word between spaces. -/
theorem scans_spaced (text : String) (present : text ≠ "") (each : isWord text = true) :
    Scans .finish .start (" " ++ text ++ " ") [.word text] :=
  (scans_space.append (scans_word text present each)).append scans_space

theorem scans_comma : Scans .finish .start ", " [.mark ','] :=
  (scans_mark "," rfl (by decide)).append scans_space.anywhere

/-! ## Whole texts -/

theorem Scans.scan_eq (scans : Scans .start .finish text read) : scan text = some read := by
  obtain ⟨⟨mode, level, outer⟩, ran, stands, settled, rfl⟩ := scans ⟨.between, [], []⟩ trivial
  simp only [scan, ran]
  cases mode with
  | between | word => exact congrArg some settled
  | quoted => contradiction

/-- A text is read in one way only. -/
theorem Scans.unique (scans : Scans .start .finish text read) (again : Scans .start .finish text others) :
    read = others :=
  Option.some.inj (scans.scan_eq.symm.trans again.scan_eq)

theorem Scans.tokens_eq (scans : Scans .start .finish text read) (plain : hasComment text = false) :
    tokens text = some read := by
  rw [tokens, plain, if_neg Bool.false_ne_true, scans.scan_eq]

end

end CypherSql.Sql
