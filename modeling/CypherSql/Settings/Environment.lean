import CypherSql.Settings.Error
import CypherSql.Text.Blank
import CypherSql.Text.Pieces

/-! # Settings from environment variables

* `Environment` — variables and their values.
* `Settings.ofEnvironment` — the settings that the variables describe.
-/

namespace CypherSql

/-- Environment variables.  Of two entries with one name the first counts. -/
abbrev Environment : Type :=
  List (String × String)

def Environment.find? (environment : Environment) (name : String) : Option String :=
  (List.find? (fun entry => entry.1 == name) environment).map (·.2)

namespace Settings

/-- A list with commas between its members.  Blanks around a member do not count, and
empty members are left out. -/
def commaSeparated (text : String) : List String :=
  let members := (Text.pieces ',' text.toList).map Text.trim
  (members.filter fun piece => !piece.isEmpty).map String.ofList

def boolean? (text : String) : Option Bool :=
  if text == "true" then some true else if text == "false" then some false else none

/-- The flag that a variable holds, or `standard` when it is not set. -/
def flagOf (environment : Environment) (name : String) (standard : Bool) :
    Except SettingsError Bool :=
  match environment.find? name with
  | none => .ok standard
  | some value =>
    match boolean? value with
    | some flag => .ok flag
    | none => .error (.notBoolean name value)

/-- The settings that the environment describes.  A list that is set but empty admits
no label at all. -/
def ofEnvironment (environment : Environment) : Except SettingsError Settings := do
  let optimizeEitherDirection ← flagOf environment "GRAPHKB_OPTIMIZE_EITHER_DIRECTION"
    standard.optimizeEitherDirection
  let settings : Settings :=
    { assetsTable := (environment.find? "GRAPHKB_ASSETS_TABLE").getD standard.assetsTable
      relationsTable :=
        (environment.find? "GRAPHKB_RELATIONS_TABLE").getD standard.relationsTable
      optimizeEitherDirection
      knownAssetTypes := (environment.find? "GRAPHKB_KNOWN_ASSET_TYPES").map commaSeparated
      knownRelationTypes :=
        (environment.find? "GRAPHKB_KNOWN_RELATION_TYPES").map commaSeparated }
  settings.validated

end Settings

end CypherSql
