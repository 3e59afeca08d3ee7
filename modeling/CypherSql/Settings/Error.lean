import CypherSql.Folder
import CypherSql.Settings.Basic

/-! # Errors of loading settings

* `SettingsError` — why settings cannot be loaded.
* `SettingsError.causes` — the error and what brought it about, as a message shows
  them.
-/

namespace CypherSql

inductive SettingsError where
  | unreadableFile (error : FileError)
  | malformedFile (content : String)
  | notBoolean (field value : String)
  | invalid (faults : List Settings.Fault)
  deriving DecidableEq, Repr

namespace SettingsError

def faultsText (faults : List Settings.Fault) : String :=
  "\n".intercalate (faults.map fun fault => fault.field ++ ": " ++ fault.message)

def location? : SettingsError → Option (String × String)
  | unreadableFile _ => some ("yaml_file", "file read failed")
  | malformedFile content => some ("yaml_content", content)
  | notBoolean field value => some (field, value)
  | invalid _ => none

def source : SettingsError → String
  | unreadableFile error => error.message
  | malformedFile _ => "not a mapping of settings"
  | notBoolean _ _ => "provided string was not `true` or `false`"
  | invalid faults => faultsText faults

def message (error : SettingsError) : String :=
  match error.location? with
  | some (field, value) => "Parse error for " ++ field ++ ": " ++ value ++ " - " ++ error.source
  | none => "Validation error: " ++ error.source

def causes (error : SettingsError) : List String :=
  [error.message, error.source]

end SettingsError

def Settings.validated (settings : Settings) : Except SettingsError Settings :=
  if settings.isValid then .ok settings else .error (.invalid settings.faults)

end CypherSql
