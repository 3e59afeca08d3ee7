import CypherSql.Cypher.Parser.Lexeme

/-! # Reading patterns

`(a:ip)-[:resolves]->(b)<--(c)`: a node followed by any number of hops.

* `Parser.nodePattern`, `Parser.relationshipPattern` — the two constructs.
* `Parser.pattern` — a node and its hops.
-/

namespace CypherSql.Cypher.Parser

/-- `(variable:label:label)`, every part optional. -/
def nodePattern : Parser NodePattern := do
  let _ ← char '('
  let name ← optional (spacing variableName)
  let labels ← many (do
    let _ ← spacing (char ':')
    spacing symbolicName)
  let _ ← spacing (char ')')
  return ⟨name, labels⟩

def typeSeparator : Parser Unit :=
  orElse (token "|:") (token "|")

/-- `:type|type` inside a relationship. -/
def relationshipTypes : Parser (List String) := do
  let _ ← spacing (char ':')
  separated (spacing typeSeparator) (spacing symbolicName)

/-- `[variable:types]`, every part optional. -/
def relationshipDetail : Parser (Option String × List String) := do
  let _ ← spacing (char '[')
  let name ← optional (spacing variableName)
  let types ← optional relationshipTypes
  let _ ← spacing (char ']')
  return (name, types.getD [])

def spacedChar (c : Char) : Parser Char := do
  let _ ← spaces
  char c

/-- `-[r:a|b]->`, `<-[]-`, `--`, `-->` and `<-->`; the detail in brackets may be left
out. -/
def relationshipPattern : Parser RelationshipPattern := do
  let left ← optional (char '<')
  let _ ← spacedChar '-'
  let detail ← optional relationshipDetail
  let _ ← spacedChar '-'
  let right ← optional (spacedChar '>')
  let (name, types) := detail.getD (none, [])
  return ⟨name, types, left.isSome, right.isSome⟩

def hop : Parser Hop := do
  let relationship ← spacing relationshipPattern
  -- Nothing is committed: an arrow without a node gives the input back.
  let node ← inContext .nodePattern (spacing nodePattern)
  return ⟨relationship, node⟩

def pattern : Parser Pattern := do
  let node ← spacing nodePattern
  let hops ← many hop
  return ⟨node, hops⟩

end CypherSql.Cypher.Parser
