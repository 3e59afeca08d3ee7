import CypherSql.Yaml.Lexer
import CypherSql.Yaml.Reader

/-! # YAML documents

* `readDirectives` — what is declared in front of a document.
* `parse` — the node of a text that holds one document.
-/

namespace CypherSql.Yaml

def standardHandles : List (String × String) :=
  [("!", "!"), ("!!", "tag:yaml.org,2002:")]

/-- The handles that directives declare, and the tokens behind these.  No handle is declared
twice, and the version is given once at most and is 1.1 or 1.2. -/
def readDirectives (versioned : Bool) (handles : List (String × String)) :
    List Token → Option (List (String × String) × List Token)
  | .version major minor :: rest =>
    if versioned || major != 1 || !(minor == 1 || minor == 2) then none
    else readDirectives true handles rest
  | .handle name address :: rest =>
    if (handles.lookup name).isSome then none
    else readDirectives versioned ((name, address) :: handles) rest
  | rest => some (handles ++ standardHandles, rest)

def isAnnounced : List Token → Bool
  | .version _ _ :: _ => true
  | .handle _ _ :: _ => true
  | .documentStart :: _ => true
  | _ => false

def readAnnounced (fuel : Nat) (handles : List (String × String)) (tokens : List Token) :
    Option (Node × List Token) :=
  if tokens.isEmpty || isAnnounced tokens || tokens.head? == some .documentEnd then
    some (.nothing, tokens)
  else (readNode fuel .block ⟨tokens, handles, []⟩).map fun (node, reader) => (node, reader.tokens)

def readDocument (fuel : Nat) (tokens : List Token) : Option (Node × List Token) :=
  if isAnnounced tokens then
    match readDirectives false [] tokens with
    | some (handles, .documentStart :: rest) => readAnnounced fuel handles rest
    | _ => none
  else if tokens.isEmpty then some (.nothing, [])
  else
    (readNode fuel .block ⟨tokens, standardHandles, []⟩).map fun (node, reader) =>
      (node, reader.tokens)

/-- Reads a text that holds one document, or nothing at all. -/
def parse (text : String) : Option Node := do
  let tokens ← tokens? text
  let (node, rest) ← readDocument (4 * tokens.length + 4) tokens
  if rest.all (· == .documentEnd) then some node else none

end CypherSql.Yaml
