import CypherSql.Text.Identifier

/-! # Settings of the compiler

* `Settings` — the tables of the knowledge base, the labels it knows and whether
  undirected relationships may be matched one way only.
* `Settings.faults` — what is wrong with them.
* `Overrides` — what replaces them.
-/

namespace CypherSql

/-- How the knowledge base is stored and how queries over it are compiled. -/
structure Settings where
  assetsTable : String
  relationsTable : String
  optimizeEitherDirection : Bool
  knownAssetTypes : Option (List String)
  knownRelationTypes : Option (List String)
  deriving DecidableEq, Repr

namespace Settings

/-- Tables `assets` and `relations`, and any label. -/
def standard : Settings where
  assetsTable := "assets"
  relationsTable := "relations"
  optimizeEitherDirection := true
  knownAssetTypes := none
  knownRelationTypes := none

/-- A table name that cannot be put into SQL as it is. -/
inductive Fault where
  | assetsTable
  | relationsTable
  deriving DecidableEq, Repr

def Fault.field : Fault → String
  | assetsTable => "assets_table"
  | relationsTable => "relations_table"

def Fault.message : Fault → String
  | assetsTable => "Assets table must be a plain SQL identifier"
  | relationsTable => "Relations table must be a plain SQL identifier"

/-- Everything that is wrong with the settings.  Table names must be plain
identifiers, since they become part of the SQL. -/
def faults (settings : Settings) : List Fault :=
  (if Text.isIdentifier settings.assetsTable then [] else [.assetsTable]) ++
    (if Text.isIdentifier settings.relationsTable then [] else [.relationsTable])

def isValid (settings : Settings) : Bool :=
  settings.faults.isEmpty

end Settings

/-- Settings that take the place of others.  The known labels cannot be replaced. -/
structure Overrides where
  assetsTable : String
  relationsTable : String
  optimizeEitherDirection : Bool
  deriving DecidableEq, Repr

namespace Settings

def merge (settings : Settings) (overrides : Overrides) : Settings :=
  { settings with
    assetsTable := overrides.assetsTable
    relationsTable := overrides.relationsTable
    optimizeEitherDirection := overrides.optimizeEitherDirection }

/-- Overrides alone, with any label known. -/
def ofOverrides (overrides : Overrides) : Settings :=
  standard.merge overrides

end Settings

end CypherSql
