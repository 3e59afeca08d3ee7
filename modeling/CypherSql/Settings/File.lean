import CypherSql.Settings.Error
import CypherSql.Yaml.Document

/-! # Settings from a file

A settings file is a YAML mapping.  Keys that name no setting are ignored, and settings
without a key keep their standard value.

* `Settings.ofYaml` — the settings a document describes.
* `Settings.ofFile` — the settings that the content of a file describes.
-/

namespace CypherSql.Settings

open CypherSql.Yaml (Node)

/-- The text of a scalar, whatever it looks like. -/
def text? (document value : Node) : Option String :=
  match document.follow value with
  | .scalar _ _ text _ => some text
  | _ => none

/-- A flag, written without quotes, or as a block of lines that is tagged as one. -/
def flag? (document value : Node) : Option Bool :=
  match document.follow value with
  | .scalar _ tag text style =>
    if style == .plain || (style == .literal && tag == some "tag:yaml.org,2002:bool") then
      if ["true", "True", "TRUE"].contains text then some true
      else if ["false", "False", "FALSE"].contains text then some false
      else none
    else none
  | _ => none

def nullWords : List String :=
  ["~", "null", "Null", "NULL"]

/-- A list of texts, or no value.  Nothing at all is no value, and an empty list behind a
tag.  What is tagged as no value must be written as such. -/
def labels? (document value : Node) : Option (Option (List String)) :=
  match document.follow value with
  | .scalar _ none text .plain =>
    if text.isEmpty || nullWords.contains text then some none else none
  | .scalar _ (some tag) text .plain =>
    if tag == "tag:yaml.org,2002:null" then
      if nullWords.contains text then some none else none
    else if text.isEmpty then some (some [])
    else none
  | .sequence _ items => (items.mapM (text? document)).map some
  | _ => none

/-- The value of a setting, `standard` when the key is missing.  No key may be given
twice. -/
def member {α : Type} (entries : List (String × Node)) (key : String) (read : Node → Option α)
    (standard : α) : Option α :=
  match entries.filter fun entry => entry.1 == key with
  | [] => some standard
  | [(_, value)] => read value
  | _ => none

def entries? (document : Node) : Option (List (String × Node)) :=
  match document with
  | .mapping _ entries =>
    entries.mapM fun (key, value) => (text? document key).map fun name => (name, value)
  | .scalar _ _ "" .plain => some []
  | _ => none

def ofYaml (document : Node) : Option Settings := do
  let entries ← entries? document
  let text := text? document
  let flag := flag? document
  let labels := labels? document
  let assetsTable ← member entries "assets_table" text standard.assetsTable
  let relationsTable ← member entries "relations_table" text standard.relationsTable
  let optimizeEitherDirection ←
    member entries "optimize_either_direction" flag standard.optimizeEitherDirection
  let knownAssetTypes ← member entries "known_asset_types" labels standard.knownAssetTypes
  let knownRelationTypes ←
    member entries "known_relation_types" labels standard.knownRelationTypes
  return { assetsTable, relationsTable, optimizeEitherDirection, knownAssetTypes,
           knownRelationTypes }

def ofFile (content : String) : Except SettingsError Settings :=
  match (Yaml.parse content).bind ofYaml with
  | some settings => settings.validated
  | none => .error (.malformedFile content)

end CypherSql.Settings
