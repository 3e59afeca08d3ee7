/-! # Command line arguments

* `Arguments` — what a command line asks for.
* `Arguments.parse` — reads a command line from left to right.
-/

namespace CypherSql.CommandLine

/-- What a command line asks for. -/
structure Arguments where
  settingsFile : Option String
  assetsTable : Option String
  relationsTable : Option String
  bothDirections : Bool
  json : Bool
  query : Option String
  deriving DecidableEq, Repr

def Arguments.blank : Arguments :=
  ⟨none, none, none, false, false, none⟩

inductive Stop where
  | version
  | help
  | misuse
  deriving DecidableEq, Repr

inductive ValueOption where
  | settingsFile
  | assetsTable
  | relationsTable
  deriving DecidableEq, Repr

inductive LongOption where
  | value (option : ValueOption)
  | bothDirections
  | json
  | version
  | help
  deriving DecidableEq, Repr

def longOption? : String → Option LongOption
  | "config" => some (.value .settingsFile)
  | "assets-table" => some (.value .assetsTable)
  | "relations-table" => some (.value .relationsTable)
  | "no-either-optimization" => some .bothDirections
  | "json" => some .json
  | "version" => some .version
  | "help" => some .help
  | _ => none

/-- Whether an argument is an option rather than a value.  A single dash is a value. -/
def isOption (argument : String) : Bool :=
  match argument.toList with
  | '-' :: _ :: _ => true
  | _ => false

/-- The name of a long option and the value behind an equals sign. -/
def splitOption (text : List Char) : String × Option String :=
  let name := String.ofList (text.takeWhile (· != '='))
  match text.dropWhile (· != '=') with
  | _ :: value => (name, some (String.ofList value))
  | [] => (name, none)

namespace Arguments

/-- Sets an option, which may be given once only.  The name of a file is not empty. -/
def setValue (arguments : Arguments) (option : ValueOption) (value : String) :
    Except Stop Arguments :=
  match option with
  | .settingsFile =>
    if arguments.settingsFile.isSome || value.isEmpty then .error .misuse
    else .ok { arguments with settingsFile := some value }
  | .assetsTable =>
    if arguments.assetsTable.isSome then .error .misuse
    else .ok { arguments with assetsTable := some value }
  | .relationsTable =>
    if arguments.relationsTable.isSome then .error .misuse
    else .ok { arguments with relationsTable := some value }

def setFlag (arguments : Arguments) : LongOption → Except Stop Arguments
  | .bothDirections =>
    if arguments.bothDirections then .error .misuse
    else .ok { arguments with bothDirections := true }
  | .json =>
    if arguments.json then .error .misuse else .ok { arguments with json := true }
  | .version => .error .version
  | .help => .error .help
  | .value _ => .error .misuse

def setQuery (arguments : Arguments) (query : String) : Except Stop Arguments :=
  if arguments.query.isSome then .error .misuse
  else .ok { arguments with query := some query }

def shortStop : List Char → Stop
  | 'V' :: _ => .version
  | 'h' :: _ => .help
  | _ => .misuse

/-- Reads arguments one after the other.  `--` ends the options. -/
def read (arguments : Arguments) : List String → Except Stop Arguments
  | [] => .ok arguments
  | argument :: rest =>
    match argument.toList with
    | ['-', '-'] => rest.foldlM setQuery arguments
    | '-' :: '-' :: text =>
      let (name, inline) := splitOption text
      match longOption? name, inline with
      | none, _ => .error .misuse
      | some (.value option), some value => do
        let arguments ← arguments.setValue option value
        arguments.read rest
      | some (.value option), none =>
        match rest with
        | [] => .error .misuse
        | value :: rest =>
          if isOption value then .error .misuse
          else do
            let arguments ← arguments.setValue option value
            arguments.read rest
      | some _, some _ => .error .misuse
      | some flag, none => do
        let arguments ← arguments.setFlag flag
        arguments.read rest
    | '-' :: c :: text => .error (shortStop (c :: text))
    | _ => do
      let arguments ← arguments.setQuery argument
      arguments.read rest

def parse (line : List String) : Except Stop Arguments :=
  blank.read line

end Arguments

end CypherSql.CommandLine
