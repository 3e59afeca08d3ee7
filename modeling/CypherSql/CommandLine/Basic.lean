import CypherSql.CommandLine.Arguments
import CypherSql.CommandLine.Report
import CypherSql.Json
import CypherSql.Settings.Dotenv
import CypherSql.Settings.File
import CypherSql.Compilation.Basic

/-! # The command line tool

The tool compiles one query, which is an argument or else the standard input, and
prints the SQL.

* `World` — what the tool finds around it.
* `Response` — what it leaves behind.
* `run` — what it does.
-/

namespace CypherSql.CommandLine

open CypherSql.Cypher (Query)

/-- What the tool finds around it: variables, the content of a file or the reason why
there is none, and the standard input. -/
structure World where
  environment : Environment
  file : String → Except FileError String
  input : String

structure Response where
  code : Nat
  output : String
  errors : String
  deriving DecidableEq, Repr

def environmentFile : String := ".env"

def World.extended (world : World) : Environment :=
  match world.file environmentFile with
  | .ok content => world.environment.extend content
  | .error _ => world.environment

/-- The settings before any option replaces them: those of the settings file, if one is
named, else those of the environment. -/
def baseSettings (world : World) (arguments : Arguments) : Except Report Settings :=
  match arguments.settingsFile with
  | some path =>
    let loaded := match world.file path with
      | .ok content => Settings.ofFile content
      | .error error => .error (.unreadableFile error)
    loaded.mapError fun error => ⟨"loading configuration from " ++ path, error.causes⟩
  | none =>
    (Settings.ofEnvironment world.extended).mapError fun error =>
      ⟨"reading configuration from environment", error.causes⟩

def overridesOf (arguments : Arguments) (base : Settings) : Overrides where
  assetsTable := arguments.assetsTable.getD base.assetsTable
  relationsTable := arguments.relationsTable.getD base.relationsTable
  optimizeEitherDirection := base.optimizeEitherDirection && !arguments.bothDirections

def settingsOf (world : World) (arguments : Arguments) : Except Report Settings := do
  let base ← baseSettings world arguments
  let settings := base.merge (overridesOf arguments base)
  if settings.isValid then return settings
  else throw ⟨"invalid configuration", [SettingsError.faultsText settings.faults]⟩

def compiledOf (world : World) (arguments : Arguments) : Except Report CompiledQuery := do
  let settings ← settingsOf world arguments
  let text := arguments.query.getD world.input
  let query ← (Query.parse text).mapError fun error =>
    ⟨"failed to parse query:\n" ++ error.message, []⟩
  (query.compile settings).mapError fun error =>
    ⟨"failed to translate query", [error.message]⟩

def queryJson (compiled : CompiledQuery) : Json :=
  .object [("query", .text compiled.sql),
    ("projections", .array (compiled.projections.map fun projection =>
      .object [("alias", .text projection.name), ("kind", .text projection.kind.name)]))]

def outputOf (arguments : Arguments) (compiled : CompiledQuery) : String :=
  (if arguments.json then (queryJson compiled).pretty else compiled.sql) ++ "\n"

def stopResponse : Stop → Response
  | .version => ⟨0, "graphkb 0.3.0-dev\n", ""⟩
  | .help => ⟨0, "Usage: graphkb-sql [OPTIONS] [QUERY]\n", ""⟩
  | .misuse => ⟨2, "", "Usage: graphkb-sql [OPTIONS] [QUERY]\n"⟩

def run (world : World) (line : List String) : Response :=
  match Arguments.parse line with
  | .error stop => stopResponse stop
  | .ok arguments =>
    match compiledOf world arguments with
    | .ok compiled => ⟨0, outputOf arguments compiled, ""⟩
    | .error report => ⟨1, "", report.text⟩

end CypherSql.CommandLine
