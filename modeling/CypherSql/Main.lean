import CypherSql.CommandLine.Basic

/-! # Entry point

Gathers what the tool finds around it, runs it and prints what it leaves behind.
-/

namespace CypherSql.CommandLine

def settingVariables : List String :=
  ["GRAPHKB_ASSETS_TABLE", "GRAPHKB_RELATIONS_TABLE", "GRAPHKB_OPTIMIZE_EITHER_DIRECTION",
    "GRAPHKB_KNOWN_ASSET_TYPES", "GRAPHKB_KNOWN_RELATION_TYPES"]

/-- The words of a text that could name variables. -/
def variableWords (content : String) : List String :=
  let inName (c : Char) : Bool := c.isAlphanum || c == '_' || c == '.'
  let words := content.toList.map fun c => if inName c then c else ' '
  ((Text.pieces ' ' words).filter fun word => !word.isEmpty).map String.ofList

/-- Why a file could not be read.  A path through a file fails when it is opened, which
tells the path, and a folder when it is read, which does not. -/
def fileError : IO.Error → FileError
  | .noFileOrDirectory _ _ _ => .missing
  | .inappropriateType none _ _ => .isFolder
  | .inappropriateType (some _) _ _ => .notFolder
  | .invalidArgument _ _ _ => .nameTooLong
  | error => .other (toString error)

def readText (path : String) : IO (Except FileError String) := do
  try
    return .ok (← IO.FS.readFile path)
  catch error => return .error (fileError error)

/-- Everything that is left of a stream. -/
partial def readAll (stream : IO.FS.Stream) (text : String) : IO String := do
  let line ← stream.getLine
  if line.isEmpty then return text else readAll stream (text ++ line)

def readVariables : List String → IO Environment
  | [] => return []
  | name :: rest => do
    let others ← readVariables rest
    match ← IO.getEnv name with
    | some value => return (name, value) :: others
    | none => return others

/-- What the tool finds around it, as far as a command line needs it. -/
def gather (line : List String) : IO World := do
  let assignments ← readText environmentFile
  let words := match assignments with
    | .ok content => variableWords content
    | .error _ => []
  let environment ← readVariables (settingVariables ++ words)
  let (path, needsInput) := match Arguments.parse line with
    | .ok arguments => (arguments.settingsFile.getD environmentFile, arguments.query.isNone)
    | .error _ => (environmentFile, false)
  let settings ← readText path
  let input ← if needsInput then readAll (← IO.getStdin) "" else pure ""
  let file (name : String) := if name == path then settings else assignments
  return { environment, input, file }

end CypherSql.CommandLine

open CypherSql.CommandLine in
def main (line : List String) : IO UInt32 := do
  let response := run (← gather line) line
  (← IO.getStdout).putStr response.output
  (← IO.getStderr).putStr response.errors
  return response.code.toUInt32
