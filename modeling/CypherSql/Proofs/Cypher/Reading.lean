import Mathlib.Data.List.DropRight
import CypherSql.Cypher.Parser.Lexeme

/-! # How the combinators read

A parser is run by hand on an input that is known only in part: first what is in front
of it, then a rest about which little is said.

* `Rejects` — a parser turns an input down, so that another alternative is tried.
* `dropSpaces` — an input without the white space in front of it.
* `many_reads` — a loop reads the texts of a list of items, one after the other, and
  stops where the rest is turned down.
-/

namespace CypherSql.Cypher.Parser

variable {α β : Type} {input rest : List Char}

def Rejects (parser : Parser α) (input : List Char) : Prop :=
  ∃ error, parser input = .reject error

/-! ## Sequences and alternatives -/

theorem bind_accepts {first : Parser α} {next : α → Parser β} {value : α}
    (read : first input = .accept value rest) : (first >>= next) input = next value rest := by
  show andThen first next input = next value rest
  simp only [andThen, read]

theorem bind_rejects {first : Parser α} {next : α → Parser β}
    (rejected : Rejects first input) : Rejects (first >>= next) input := by
  obtain ⟨error, failed⟩ := rejected
  refine ⟨error, ?_⟩
  show andThen first next input = .reject error
  simp only [andThen, failed]

theorem bind_rejects_next {first : Parser α} {next : α → Parser β} {value : α}
    (read : first input = .accept value rest) (rejected : Rejects (next value) rest) :
    Rejects (first >>= next) input := by
  rw [Rejects, bind_accepts read]
  exact rejected

theorem pure_accepts {value : α} : (pure value : Parser α) input = .accept value input :=
  rfl

theorem orElse_first {first second : Parser α} {value : α}
    (read : first input = .accept value rest) :
    orElse first second input = .accept value rest := by
  simp only [orElse, read]

theorem orElse_second {first second : Parser α} (rejected : Rejects first input) :
    orElse first second input = second input := by
  obtain ⟨error, failed⟩ := rejected
  simp only [orElse, failed]

theorem orElse_rejects {first second : Parser α} (rejectedFirst : Rejects first input)
    (rejectedSecond : Rejects second input) : Rejects (orElse first second) input := by
  rw [Rejects, orElse_second rejectedFirst]
  exact rejectedSecond

theorem optional_accepts {parser : Parser α} {value : α}
    (read : parser input = .accept value rest) :
    optional parser input = .accept (some value) rest := by
  simp only [optional, read]

theorem optional_rejected {parser : Parser α} (rejected : Rejects parser input) :
    optional parser input = .accept none input := by
  obtain ⟨error, failed⟩ := rejected
  simp only [optional, failed]

theorem commit_accepts {parser : Parser α} {value : α}
    (read : parser input = .accept value rest) : commit parser input = .accept value rest := by
  simp only [commit, read]

theorem inContext_accepts {parser : Parser α} {context : Context} {value : α}
    (read : parser input = .accept value rest) :
    inContext context parser input = .accept value rest := by
  simp only [inContext, read]

theorem satisfying_accepts {test : α → Bool} {parser : Parser α} {value : α}
    (read : parser input = .accept value rest) (passes : test value = true) :
    satisfying test parser input = .accept value rest := by
  simp only [satisfying, read, passes, if_true]

theorem satisfying_rejects {test : α → Bool} {parser : Parser α}
    (rejected : Rejects parser input) : Rejects (satisfying test parser) input := by
  obtain ⟨error, failed⟩ := rejected
  exact ⟨error, by simp only [satisfying, failed]⟩

theorem satisfying_rejects_value {test : α → Bool} {parser : Parser α} {value : α}
    (read : parser input = .accept value rest) (fails : test value = false) :
    Rejects (satisfying test parser) input := by
  refine ⟨.here input .unexpectedInput, ?_⟩
  simp only [satisfying, read, fails, Bool.false_eq_true, if_false]

/-! ## White space -/

def dropSpaces (input : List Char) : List Char :=
  input.dropWhile isSpacing

theorem dropSpaces_cons {c : Char} (visible : isSpacing c = false) :
    dropSpaces (c :: rest) = c :: rest := by
  simp [dropSpaces, visible]

theorem dropSpaces_space : dropSpaces (' ' :: rest) = dropSpaces rest :=
  rfl

theorem dropSpaces_dropSpaces : dropSpaces (dropSpaces input) = dropSpaces input :=
  List.dropWhile_idempotent isSpacing input

theorem spaces_accepts : spaces input = .accept (input.takeWhile isSpacing) (dropSpaces input) :=
  rfl

theorem spacing_accepts {parser : Parser α} {value : α}
    (read : parser (dropSpaces input) = .accept value rest) :
    spacing parser input = .accept value (dropSpaces rest) := by
  rw [spacing, bind_accepts spaces_accepts, bind_accepts read, bind_accepts spaces_accepts]
  rfl

theorem spacing_accepts_bare {parser : Parser α} {value : α} (opens : dropSpaces input = input)
    (read : parser input = .accept value rest) (ends : dropSpaces rest = rest) :
    spacing parser input = .accept value rest := by
  have spaced := @spacing_accepts α input rest parser value (by rw [opens, read])
  rwa [ends] at spaced

theorem spacing_rejects {parser : Parser α} (rejected : Rejects parser (dropSpaces input)) :
    Rejects (spacing parser) input :=
  bind_rejects_next spaces_accepts (bind_rejects rejected)

/-- How many visible characters a text has.  White space in front does not count, so
the loops are bounded by it. -/
def visible (input : List Char) : Nat :=
  input.countP fun c => !isSpacing c

theorem visible_pos {c : Char} (isIn : c ∈ input) (shown : isSpacing c = false) :
    0 < visible input :=
  List.countP_pos_iff.mpr ⟨c, isIn, by simp [shown]⟩

theorem visible_append {left right : List Char} :
    visible (left ++ right) = visible left + visible right :=
  List.countP_append

theorem visible_dropSpaces : visible (dropSpaces input) = visible input := by
  induction input with
  | nil => rfl
  | cons c rest ih =>
    cases spacing : isSpacing c with
    | true => simpa [dropSpaces, visible, spacing] using ih
    | false => rw [dropSpaces_cons spacing]

theorem visible_le_length : visible input ≤ input.length :=
  List.countP_le_length

/-! ## Loops -/

theorem manyUpTo_reads {item : Parser α} {text : α → List Char} {Ends : List Char → Prop}
    {values : List α}
    (each : ∀ value ∈ values, ∀ more, Ends more → Ends (text value ++ more) ∧
      item (dropSpaces (text value ++ more)) = .accept value (dropSpaces more))
    (ends : Ends rest) (stops : Rejects item (dropSpaces rest)) {fuel : Nat}
    (enough : values.length < fuel) :
    Ends (values.flatMap text ++ rest) ∧
      manyUpTo fuel item (dropSpaces (values.flatMap text ++ rest)) =
        .accept values (dropSpaces rest) := by
  induction values generalizing fuel with
  | nil =>
    obtain ⟨error, failed⟩ := stops
    cases fuel with
    | zero => exact absurd enough (by simp)
    | succ fuel =>
      exact ⟨ends, by simp only [manyUpTo, List.flatMap_nil, List.nil_append, failed]⟩
  | cons value values ih =>
    cases fuel with
    | zero => exact absurd enough (by simp)
    | succ fuel =>
      obtain ⟨endsLater, readLater⟩ :=
        ih (fun other isIn => each other (List.mem_cons_of_mem value isIn))
          (Nat.lt_of_succ_lt_succ enough)
      -- What the later items begin with ends the text of this one.
      obtain ⟨endsHere, readHere⟩ := each value List.mem_cons_self _ endsLater
      rw [List.flatMap_cons, List.append_assoc]
      exact ⟨endsHere, by simp only [manyUpTo, readHere, readLater]⟩

/-- A loop reads the texts of its items where each item is read in front of any text
that may end it.  `Ends` is what the texts of the items and the rest have in common. -/
theorem many_reads {item : Parser α} {text : α → List Char} {Ends : List Char → Prop}
    {values : List α}
    (each : ∀ value ∈ values, ∀ more, Ends more → Ends (text value ++ more) ∧
      item (dropSpaces (text value ++ more)) = .accept value (dropSpaces more))
    (shown : ∀ value ∈ values, 0 < visible (text value)) (ends : Ends rest)
    (stops : Rejects item (dropSpaces rest)) :
    Ends (values.flatMap text ++ rest) ∧
      many item (dropSpaces (values.flatMap text ++ rest)) = .accept values (dropSpaces rest) := by
  -- Every item shows a character at least, so the fuel lasts for all of them.
  have counted : values.length ≤ visible (values.flatMap text) := by
    clear each
    induction values with
    | nil => exact Nat.zero_le _
    | cons value values ih =>
      have here := shown value List.mem_cons_self
      have later := ih fun other isIn => shown other (List.mem_cons_of_mem value isIn)
      rw [List.flatMap_cons, visible_append, List.length_cons]
      omega
  have bounded : visible (values.flatMap text ++ rest) ≤
      (dropSpaces (values.flatMap text ++ rest)).length :=
    visible_dropSpaces ▸ visible_le_length
  rw [visible_append] at bounded
  exact manyUpTo_reads each ends stops (by omega)

theorem many_rejected {item : Parser α} (rejected : Rejects item input) :
    many item input = .accept [] input := by
  obtain ⟨error, failed⟩ := rejected
  simp only [many, manyUpTo, failed]

theorem separated_reads {separator : Parser β} {item : Parser α} {first : α} {others : List α}
    {middle : List Char} (readFirst : item input = .accept first middle)
    (readOthers : many (separator >>= fun _ => item) middle = .accept others rest) :
    separated separator item input = .accept (first :: others) rest := by
  rw [separated, bind_accepts readFirst, bind_accepts readOthers]
  rfl

end CypherSql.Cypher.Parser
