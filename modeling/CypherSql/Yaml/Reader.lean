import CypherSql.Yaml.Node
import CypherSql.Yaml.Token

/-! # From tokens to nodes

* `Reader` — the tokens that are left, with the names met before them.
* `readNode` — the node that the next tokens describe.
-/

namespace CypherSql.Yaml

/-- The tokens that are left, what the handles of tags stand for, and the numbers of the
anchors before. -/
structure Reader where
  tokens : List Token
  handles : List (String × String)
  anchors : List (String × Nat)

namespace Reader

def move (reader : Reader) (tokens : List Token) : Reader :=
  { reader with tokens }

def isAt (reader : Reader) (tokens : List Token) : Bool :=
  reader.tokens.head?.any tokens.contains

/-- Adds an anchor.  Its number tells how many names have been anchored before it. -/
def addAnchor (reader : Reader) (name : String) : Nat × Reader :=
  let number := reader.anchors.length
  let others := reader.anchors.filter fun anchor => anchor.1 != name
  (number, { reader with anchors := (name, number) :: others })

def resolve (reader : Reader) (handle suffix : String) : Option String :=
  if handle.isEmpty then some suffix
  else (reader.handles.lookup handle).map fun address => address ++ suffix

def readAnchor (reader : Reader) : Option Nat × Reader :=
  match reader.tokens with
  | .anchor name :: rest =>
    let (number, reader) := (reader.move rest).addAnchor name
    (some number, reader)
  | _ => (none, reader)

def readTag (reader : Reader) : Option (Option String × Reader) :=
  match reader.tokens with
  | .tag handle suffix :: rest =>
    (reader.resolve handle suffix).map fun tag => (some tag, reader.move rest)
  | _ => some (none, reader)

/-- An anchor and a tag, in any order, possibly none of them. -/
def readProperties (reader : Reader) : Option (Option Nat × Option String × Reader) := do
  let (before, reader) := reader.readAnchor
  let (tag, reader) ← reader.readTag
  if before.isSome || tag.isNone then some (before, tag, reader)
  else
    let (anchor, reader) := reader.readAnchor
    some (anchor, tag, reader)

end Reader

/-! ## Nodes from tokens -/

/-- What a node is part of.  In an entry of a block mapping, which is a key or a value, a
sequence may stand in the column of the mapping itself. -/
inductive Context where
  | flow
  | block
  | entry
  deriving DecidableEq, Repr

/-- The tag of a scalar.  The one that says nothing counts as none. -/
def scalarTag (tag : Option String) : Option String :=
  if tag == some "!" then none else tag

mutual

def readNode : Nat → Context → Reader → Option (Node × Reader)
  | 0, _, _ => none
  | fuel + 1, context, reader =>
    match reader.tokens with
    | .alias name :: rest =>
      (reader.anchors.lookup name).map fun number => (.alias number, reader.move rest)
    | _ => do
      let (anchor, tag, reader) ← reader.readProperties
      readContent fuel context anchor tag reader

/-- The content of a node.  Behind an anchor or a tag there need not be any. -/
def readContent :
    Nat → Context → Option Nat → Option String → Reader → Option (Node × Reader)
  | 0, _, _, _, _ => none
  | fuel + 1, context, anchor, tag, reader =>
    let sequence (read : Option (List Node × Reader)) : Option (Node × Reader) :=
      read.map fun (items, reader) => (.sequence anchor items, reader)
    let mapping (read : Option (List (Node × Node) × Reader)) : Option (Node × Reader) :=
      read.map fun (entries, reader) => (.mapping anchor entries, reader)
    let missing : Option (Node × Reader) :=
      if anchor.isSome || tag.isSome then some (.scalar anchor tag "" .plain, reader) else none
    match reader.tokens with
    | .scalar text style :: rest =>
      some (.scalar anchor (scalarTag tag) text style, reader.move rest)
    | .openBracket :: rest => sequence (readFlowItems fuel true [] (reader.move rest))
    | .openBrace :: rest => mapping (readFlowEntries fuel true [] (reader.move rest))
    | .blockSequence :: rest =>
      if context == .flow then missing else sequence (readItems fuel [] (reader.move rest))
    | .blockMapping :: rest =>
      if context == .flow then missing else mapping (readEntries fuel [] (reader.move rest))
    | .dash :: _ => if context == .entry then sequence (readOpenItems fuel [] reader) else missing
    | _ => missing

def readOptional : Nat → Context → List Token → Reader → Option (Node × Reader)
  | 0, _, _, _ => none
  | fuel + 1, context, ends, reader =>
    if reader.isAt ends then some (.nothing, reader) else readNode fuel context reader

def readItems : Nat → List Node → Reader → Option (List Node × Reader)
  | 0, _, _ => none
  | fuel + 1, items, reader =>
    match reader.tokens with
    | .dash :: rest => do
      let (item, reader) ← readOptional fuel .block [.dash, .blockEnd] (reader.move rest)
      readItems fuel (item :: items) reader
    | .blockEnd :: rest => some (items.reverse, reader.move rest)
    | _ => none

/-- The items of a sequence in the column of the mapping around it. -/
def readOpenItems : Nat → List Node → Reader → Option (List Node × Reader)
  | 0, _, _ => none
  | fuel + 1, items, reader =>
    match reader.tokens with
    | .dash :: rest => do
      let (item, reader) ←
        readOptional fuel .block [.dash, .key, .value, .blockEnd] (reader.move rest)
      readOpenItems fuel (item :: items) reader
    | _ => some (items.reverse, reader)

def readEntries : Nat → List (Node × Node) → Reader → Option (List (Node × Node) × Reader)
  | 0, _, _ => none
  | fuel + 1, entries, reader =>
    match reader.tokens with
    | .key :: rest => do
      let ends := [.key, .value, .blockEnd]
      let (key, reader) ← readOptional fuel .entry ends (reader.move rest)
      let (value, reader) ←
        match reader.tokens with
        | .value :: rest => readOptional fuel .entry ends (reader.move rest)
        | _ => some (.nothing, reader)
      readEntries fuel ((key, value) :: entries) reader
    | .blockEnd :: rest => some (entries.reverse, reader.move rest)
    | _ => none

def readFlowValue : Nat → Token → Reader → Option (Node × Reader)
  | 0, _, _ => none
  | fuel + 1, bracket, reader =>
    match reader.tokens with
    | .value :: rest => readOptional fuel .flow [.comma, bracket] (reader.move rest)
    | _ => some (.nothing, reader)

/-- A key and its value as an item of a sequence.  A token that stands in the place of the
key is lost. -/
def readPair : Nat → Reader → Option (Node × Reader)
  | 0, _ => none
  | fuel + 1, reader => do
    let (key, reader) ←
      if reader.isAt [.value, .comma, .closeBracket] then
        some (.nothing, reader.move reader.tokens.tail)
      else readNode fuel .flow reader
    let (value, reader) ← readFlowValue fuel .closeBracket reader
    some (.mapping none [(key, value)], reader)

/-- The items of a sequence between brackets, with a comma in front of each but the
`first`. -/
def readFlowItems : Nat → Bool → List Node → Reader → Option (List Node × Reader)
  | 0, _, _, _ => none
  | fuel + 1, first, items, reader =>
    match reader.tokens, first with
    | .closeBracket :: rest, _ => some (items.reverse, reader.move rest)
    | .comma :: .closeBracket :: rest, false => some (items.reverse, reader.move rest)
    | .comma :: .key :: rest, false => do
      let (item, reader) ← readPair fuel (reader.move rest)
      readFlowItems fuel false (item :: items) reader
    | .comma :: rest, false => do
      let (item, reader) ← readNode fuel .flow (reader.move rest)
      readFlowItems fuel false (item :: items) reader
    | .key :: rest, true => do
      let (item, reader) ← readPair fuel (reader.move rest)
      readFlowItems fuel false (item :: items) reader
    | _, true => do
      let (item, reader) ← readNode fuel .flow reader
      readFlowItems fuel false (item :: items) reader
    | _, false => none

/-- An entry of a mapping between braces.  What is no key is one without a value. -/
def readFlowEntry : Nat → Reader → Option ((Node × Node) × Reader)
  | 0, _ => none
  | fuel + 1, reader =>
    match reader.tokens with
    | .key :: rest => do
      let (key, reader) ←
        readOptional fuel .flow [.value, .comma, .closeBrace] (reader.move rest)
      let (value, reader) ← readFlowValue fuel .closeBrace reader
      some ((key, value), reader)
    | _ => do
      let (key, reader) ← readNode fuel .flow reader
      some ((key, .nothing), reader)

def readFlowEntries :
    Nat → Bool → List (Node × Node) → Reader → Option (List (Node × Node) × Reader)
  | 0, _, _, _ => none
  | fuel + 1, first, entries, reader =>
    match reader.tokens, first with
    | .closeBrace :: rest, _ => some (entries.reverse, reader.move rest)
    | .comma :: .closeBrace :: rest, false => some (entries.reverse, reader.move rest)
    | .comma :: rest, false => do
      let (entry, reader) ← readFlowEntry fuel (reader.move rest)
      readFlowEntries fuel false (entry :: entries) reader
    | _, true => do
      let (entry, reader) ← readFlowEntry fuel reader
      readFlowEntries fuel false (entry :: entries) reader
    | _, false => none

end

end CypherSql.Yaml
