import CypherSql.CommandLine.Arguments
import CypherSql.Proofs.Success

/-! # What a line says

A line is read from left to right, option by option.  What it gives to an option can also be seen
from its words alone, since no option may stand where a value is expected and none may be given
twice.

* `GivesValue` — the words of a line give a value to an option.
* `Reads`, `read_ok` — how a line is read that is not refused.
* `Reads.value_iff`, `Reads.bothDirections_iff` — what is read is what the words give.
-/

namespace CypherSql.CommandLine

/-! ## Words -/

def LongOption.word : LongOption → String
  | value .settingsFile => "--config"
  | value .assetsTable => "--assets-table"
  | value .relationsTable => "--relations-table"
  | bothDirections => "--no-either-optimization"
  | json => "--json"
  | version => "--version"
  | help => "--help"

/-- An option with its value in one word. -/
def ValueOption.inline (option : ValueOption) (value : String) : String :=
  LongOption.word (.value option) ++ "=" ++ value

/-- The words that may be options: those before the first `--`. -/
def optionWords (line : List String) : List String :=
  line.takeWhile (· != "--")

/-- The value of the option stands behind an equals sign, or in the next word. -/
def GivesValue (line : List String) (option : ValueOption) (value : String) : Prop :=
  option.inline value ∈ optionWords line ∨
    [LongOption.word (.value option), value] <:+: optionWords line

theorem longOption?_eq_some {name : String} {option : LongOption}
    (isOne : longOption? name = some option) : option.word = "--" ++ name := by
  unfold longOption? at isOne
  split at isOne <;> first | contradiction | (obtain rfl := Option.some.inj isOne; rfl)

theorem longOption?_word (option : LongOption) :
    longOption? (String.ofList (option.word.toList.drop 2)) = some option := by
  rcases option with (_ | _ | _) | _ | _ | _ | _ <;> decide

theorem word_inj {first second : LongOption} : first.word = second.word ↔ first = second := by
  constructor
  · intro same
    have found := longOption?_word first
    rw [same, longOption?_word] at found
    exact (Option.some.inj found).symm
  · rintro rfl
    rfl

theorem inline_inj {first second : ValueOption} {value text : String} :
    first.inline value = second.inline text ↔ first = second ∧ value = text := by
  rw [← String.toList_inj, ← @String.toList_inj value]
  cases first <;> cases second <;> simp [ValueOption.inline, LongOption.word]

theorem inline_ne_word (first : ValueOption) (value : String) (second : LongOption) :
    first.inline value ≠ second.word := by
  rw [Ne, ← String.toList_inj]
  rcases second with (_ | _ | _) | _ | _ | _ | _ <;> cases first <;>
    simp [ValueOption.inline, LongOption.word]

theorem word_ne_end (option : LongOption) : option.word ≠ "--" := by
  rcases option with (_ | _ | _) | _ | _ | _ | _ <;> decide

theorem inline_ne_end (option : ValueOption) (value : String) : option.inline value ≠ "--" := by
  rw [Ne, ← String.toList_inj]
  cases option <;> simp [ValueOption.inline, LongOption.word]

theorem isOption_word (option : LongOption) : isOption option.word = true := by
  rcases option with (_ | _ | _) | _ | _ | _ | _ <;> rfl

theorem isOption_inline (option : ValueOption) (value : String) :
    isOption (option.inline value) = true := by
  cases option <;> simp [isOption, ValueOption.inline, LongOption.word]

/-- A value is never taken for an option. -/
theorem ne_of_isOption {option value : String} (isOne : isOption option = true)
    (isValue : isOption value = false) : value ≠ option := by
  rintro rfl
  simp [isOne] at isValue

/-! ## Reading -/

/-- How a line is read that is not refused. -/
inductive Reads : Arguments → List String → Arguments → Prop where
  | done (arguments : Arguments) : Reads arguments [] arguments
  | queries {arguments result : Arguments} {words : List String}
      (set : words.foldlM Arguments.setQuery arguments = .ok result) :
      Reads arguments ("--" :: words) result
  | inline {arguments next result : Arguments} {option : ValueOption} {value : String}
      {rest : List String} (set : arguments.setValue option value = .ok next)
      (reads : Reads next rest result) : Reads arguments (option.inline value :: rest) result
  | apart {arguments next result : Arguments} {option : ValueOption} {value : String}
      {rest : List String} (isValue : isOption value = false)
      (set : arguments.setValue option value = .ok next) (reads : Reads next rest result) :
      Reads arguments (LongOption.word (.value option) :: value :: rest) result
  | flag {arguments next result : Arguments} {option : LongOption} {rest : List String}
      (set : arguments.setFlag option = .ok next) (reads : Reads next rest result) :
      Reads arguments (option.word :: rest) result
  | query {arguments next result : Arguments} {word : String} {rest : List String}
      (isValue : isOption word = false) (set : arguments.setQuery word = .ok next)
      (reads : Reads next rest result) : Reads arguments (word :: rest) result

theorem splitOption_eq {text : List Char} {name : String} {value : Option String}
    (split : splitOption text = (name, value)) :
    text = name.toList ++ value.elim [] fun value => '=' :: value.toList := by
  unfold splitOption at split
  have whole := List.takeWhile_append_dropWhile (p := (· != '=')) (l := text)
  dsimp only at split
  split at split
  · next c rest behind =>
    obtain ⟨rfl, rfl⟩ := Prod.mk.inj split
    have isEquals : c = '=' := by
      have head := List.head?_dropWhile_not (· != '=') text
      rw [behind] at head
      simpa using head
    rw [behind, isEquals] at whole
    simpa using whole.symm
  · next behind =>
    obtain ⟨rfl, rfl⟩ := Prod.mk.inj split
    rw [behind] at whole
    simpa using whole.symm

section

variable {word name : String} {text : List Char} (isLong : word.toList = '-' :: '-' :: text)

include isLong

theorem eq_inline {value : String} {option : ValueOption}
    (split : splitOption text = (name, some value))
    (isFound : longOption? name = some (.value option)) : word = option.inline value := by
  rw [← String.toList_inj, isLong, splitOption_eq split, ValueOption.inline,
    longOption?_eq_some isFound]
  simp

theorem eq_word {option : LongOption} (split : splitOption text = (name, none))
    (isFound : longOption? name = some option) : word = option.word := by
  rw [← String.toList_inj, isLong, splitOption_eq split, longOption?_eq_some isFound]
  simp

end

theorem isOption_eq_false {word : String}
    (isOther : ∀ c text, word.toList = '-' :: c :: text → False) : isOption word = false := by
  unfold isOption
  split
  · next c text isDash => exact (isOther c text isDash).elim
  · rfl

theorem read_ok {arguments result : Arguments} {line : List String}
    (read : arguments.read line = .ok result) : Reads arguments line result := by
  fun_induction Arguments.read arguments line
  case case1 arguments =>
    obtain rfl := Except.ok.inj read
    exact .done arguments
  case case2 arguments word words isEnd =>
    obtain rfl : word = "--" := String.toList_inj.mp isEnd
    exact .queries read
  case case4 arguments word rest text _ isLong name option value isValue split ih =>
    obtain ⟨next, set, read⟩ := bind_eq_ok.mp read
    obtain rfl := eq_inline isLong split isValue
    exact .inline set (ih next read)
  case case7 arguments word text _ isLong name option isValue value rest isOther split ih =>
    obtain ⟨next, set, read⟩ := bind_eq_ok.mp read
    obtain rfl := eq_word isLong split isValue
    exact .apart (Bool.eq_false_iff.mpr isOther) set (ih next read)
  case case9 arguments word rest text _ isLong name flag _ isFlag split ih =>
    obtain ⟨next, set, read⟩ := bind_eq_ok.mp read
    obtain rfl := eq_word isLong split isFlag
    exact .flag set (ih next read)
  case case11 arguments word rest _ _ isOther ih =>
    obtain ⟨next, set, read⟩ := bind_eq_ok.mp read
    exact .query (isOption_eq_false isOther) set (ih next read)
  -- In all other cases the line is refused.
  all_goals contradiction

/-! ## What is read -/

def Arguments.value? (arguments : Arguments) : ValueOption → Option String
  | .settingsFile => arguments.settingsFile
  | .assetsTable => arguments.assetsTable
  | .relationsTable => arguments.relationsTable

section

variable {arguments next : Arguments}

theorem setValue_ok {option : ValueOption} {value : String}
    (set : arguments.setValue option value = .ok next) :
    next.bothDirections = arguments.bothDirections ∧ ∀ other text,
      next.value? other = some text ↔
        arguments.value? other = some text ∨ option = other ∧ value = text := by
  cases option <;> simp only [Arguments.setValue] at set <;> split at set <;>
    first
      | contradiction
      | (next unset =>
          obtain rfl := Except.ok.inj set
          refine ⟨rfl, fun other text => ?_⟩
          cases other <;> simp_all [Arguments.value?])

/-- Only two flags let the reading go on. -/
theorem setFlag_ok {flag : LongOption} (set : arguments.setFlag flag = .ok next) :
    next.value? = arguments.value? ∧
      (flag = .bothDirections ∧ next.bothDirections = true ∨
        flag = .json ∧ next.bothDirections = arguments.bothDirections) := by
  cases flag <;> simp only [Arguments.setFlag] at set
  case bothDirections =>
    split at set
    · contradiction
    · obtain rfl := Except.ok.inj set
      exact ⟨rfl, .inl ⟨rfl, rfl⟩⟩
  case json =>
    split at set
    · contradiction
    · obtain rfl := Except.ok.inj set
      exact ⟨rfl, .inr ⟨rfl, rfl⟩⟩
  all_goals contradiction

theorem setQuery_ok {query : String} (set : arguments.setQuery query = .ok next) :
    next.value? = arguments.value? ∧ next.bothDirections = arguments.bothDirections := by
  unfold Arguments.setQuery at set
  split at set
  · contradiction
  · obtain rfl := Except.ok.inj set
    exact ⟨rfl, rfl⟩

theorem setQueries_ok {words : List String}
    (set : words.foldlM Arguments.setQuery arguments = .ok next) :
    next.value? = arguments.value? ∧ next.bothDirections = arguments.bothDirections := by
  refine foldlM_keeps (R := fun before after => after.value? = before.value? ∧
    after.bothDirections = before.bothDirections) (fun _ => ⟨rfl, rfl⟩) ?_
    (fun _ _ _ set => setQuery_ok set) set
  rintro _ _ _ ⟨values, directions⟩ ⟨valuesNext, directionsNext⟩
  exact ⟨valuesNext.trans values, directionsNext.trans directions⟩

end

/-! ## Words of a line that is read -/

theorem optionWords_end (words : List String) : optionWords ("--" :: words) = [] :=
  rfl

theorem optionWords_cons {word : String} (isOther : word ≠ "--") (rest : List String) :
    optionWords (word :: rest) = word :: optionWords rest := by
  simp [optionWords, isOther]

theorem not_givesValue_end (words : List String) (option : ValueOption) (value : String) :
    ¬ GivesValue ("--" :: words) option value := by
  simp [GivesValue, optionWords_end]

theorem givesValue_cons {word value : String} {rest : List String} {option : ValueOption}
    (isOther : word ≠ "--") : GivesValue (word :: rest) option value ↔
      word = option.inline value ∨
        word = LongOption.word (.value option) ∧ [value] <+: optionWords rest ∨
        GivesValue rest option value := by
  rw [GivesValue, optionWords_cons isOther, List.mem_cons, List.infix_cons_iff, GivesValue,
    List.cons_prefix_cons]
  grind

theorem givesValue_cons_inline {value text : String} {rest : List String}
    {given option : ValueOption} : GivesValue (given.inline value :: rest) option text ↔
      given = option ∧ value = text ∨ GivesValue rest option text := by
  rw [givesValue_cons (inline_ne_end given value), inline_inj]
  simp [inline_ne_word]

theorem givesValue_cons_word {text : String} {rest : List String} {given : LongOption}
    {option : ValueOption} : GivesValue (given.word :: rest) option text ↔
      given = .value option ∧ [text] <+: optionWords rest ∨ GivesValue rest option text := by
  have notInline : given.word ≠ option.inline text := (inline_ne_word option text given).symm
  rw [givesValue_cons (word_ne_end given), word_inj]
  simp [notInline]

theorem givesValue_cons_value {word value : String} {rest : List String} {option : ValueOption}
    (isValue : isOption word = false) :
    GivesValue (word :: rest) option value ↔ GivesValue rest option value := by
  have isOther : word ≠ "--" := ne_of_isOption rfl isValue
  have notInline : word ≠ option.inline value := ne_of_isOption (isOption_inline _ _) isValue
  have notWord : word ≠ LongOption.word (.value option) :=
    ne_of_isOption (isOption_word _) isValue
  rw [givesValue_cons isOther]
  simp [notInline, notWord]

namespace Reads

variable {arguments result : Arguments} {line : List String}

/-- An option has the value that the words give. -/
theorem value_iff (reads : Reads arguments line result) (option : ValueOption) (text : String) :
    result.value? option = some text ↔
      arguments.value? option = some text ∨ GivesValue line option text := by
  induction reads with
  | done arguments => simp [GivesValue, optionWords]
  | queries set =>
    rw [(setQueries_ok set).1]
    simp only [not_givesValue_end, or_false]
  | inline set _ ih => rw [ih, (setValue_ok set).2, givesValue_cons_inline, or_assoc]
  | @apart arguments next result given value rest isValue set _ ih =>
    -- The value is no option, so it gives no value itself.
    have isBehind : [text] <+: optionWords (value :: rest) ↔ value = text := by
      rw [optionWords_cons (ne_of_isOption rfl isValue), List.cons_prefix_cons, eq_comm]
      simp
    rw [ih, (setValue_ok set).2, givesValue_cons_word, givesValue_cons_value isValue, isBehind,
      or_assoc, LongOption.value.injEq]
  | @flag arguments next result given rest set _ ih =>
    obtain ⟨values, isFlag⟩ := setFlag_ok set
    have noValue : given ≠ .value option := by
      rintro rfl
      simp at isFlag
    rw [ih, values, givesValue_cons_word]
    simp [noValue]
  | query isValue set _ ih => rw [ih, (setQuery_ok set).1, givesValue_cons_value isValue]

/-- Undirected relationships are matched both ways when the words say so. -/
theorem bothDirections_iff (reads : Reads arguments line result) :
    result.bothDirections = true ↔ arguments.bothDirections = true ∨
      LongOption.bothDirections.word ∈ optionWords line := by
  induction reads with
  | done arguments => simp [optionWords]
  | queries set => rw [(setQueries_ok set).2, optionWords_end, List.mem_nil_iff, or_false]
  | @inline arguments next result given value rest set _ ih =>
    have isOther := inline_ne_word given value .bothDirections
    rw [ih, (setValue_ok set).1, optionWords_cons (inline_ne_end given value), List.mem_cons]
    simp [isOther.symm]
  | @apart arguments next result given value rest isValue set _ ih =>
    have notValue := ne_of_isOption (isOption_word .bothDirections) isValue
    rw [ih, (setValue_ok set).1, optionWords_cons (word_ne_end _), List.mem_cons,
      optionWords_cons (ne_of_isOption rfl isValue), List.mem_cons, word_inj]
    simp [notValue.symm]
  | @flag arguments next result given rest set _ ih =>
    rw [ih, optionWords_cons (word_ne_end given), List.mem_cons, word_inj]
    obtain ⟨-, ⟨rfl, isSet⟩ | ⟨rfl, same⟩⟩ := setFlag_ok set
    · simp [isSet]
    · simp [same]
  | query isValue set _ ih =>
    have isOther := ne_of_isOption (isOption_word .bothDirections) isValue
    rw [ih, (setQuery_ok set).2, optionWords_cons (ne_of_isOption rfl isValue), List.mem_cons]
    simp [isOther.symm]

end Reads

/-- What a line that is not refused asks for, by its words. -/
theorem parse_ok {arguments : Arguments} {line : List String}
    (parsed : Arguments.parse line = .ok arguments) :
    (∀ option value, arguments.value? option = some value ↔ GivesValue line option value) ∧
      (arguments.bothDirections = true ↔
        LongOption.bothDirections.word ∈ optionWords line) := by
  have reads := read_ok parsed
  constructor
  · intro option value
    have unset : Arguments.blank.value? option ≠ some value := by cases option <;> nofun
    rw [reads.value_iff, or_iff_right unset]
  · rw [reads.bothDirections_iff]
    simp [Arguments.blank]

end CypherSql.CommandLine
