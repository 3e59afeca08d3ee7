import CypherSql.Graph.Slot
import CypherSql.Proofs.Success
import CypherSql.Settings.Environment
import CypherSql.Settings.File

/-! # Settings that are described

A settings file gives values to keys, the environment gives values to variables, and what neither
of them gives has a standard value.  Whether the tables can be put into SQL is looked at afterwards.

* `Settings.table` — the table with the rows of a kind of slot.
* `Member` — what the entries of a mapping say about a key.
* `DescribedByFile`, `ofFile_eq_ok` — the settings that a file describes, and those it is read as.
* `DescribedByEnvironment`, `ofEnvironment_eq_ok` — the same for the environment.
-/

namespace CypherSql

open CypherSql.Graph (SlotKind)

namespace Settings

open CypherSql.Yaml (Node)

/-! ## Tables -/

/-- The table with the rows of a kind of slot. -/
def table (settings : Settings) : SlotKind → String
  | .node => settings.assetsTable
  | .relation => settings.relationsTable

theorem isValid_iff {settings : Settings} :
    settings.isValid = true ↔ ∀ kind, Text.isIdentifier (settings.table kind) = true := by
  have both : settings.isValid = true ↔ Text.isIdentifier settings.assetsTable = true ∧
      Text.isIdentifier settings.relationsTable = true := by
    cases assets : Text.isIdentifier settings.assetsTable <;>
      cases relations : Text.isIdentifier settings.relationsTable <;>
      simp [isValid, faults, assets, relations]
  rw [both]
  constructor
  · rintro ⟨assets, relations⟩ (_ | _)
    · exact assets
    · exact relations
  · exact fun all => ⟨all .node, all .relation⟩

theorem validated_eq_ok {settings result : Settings} :
    settings.validated = .ok result ↔ settings = result ∧ result.isValid = true := by
  unfold validated
  split
  · next valid =>
    rw [Except.ok.injEq]
    exact ⟨fun same => ⟨same, same ▸ valid⟩, And.left⟩
  · next invalid =>
    refine ⟨nofun, ?_⟩
    rintro ⟨rfl, valid⟩
    exact absurd valid invalid

theorem validated_eq_error {settings : Settings} (invalid : settings.isValid = false) :
    settings.validated = .error (.invalid settings.faults) := by
  simp [validated, invalid]

/-! ## Files -/

/-- What the entries of a mapping say about a key: nothing, or a value, once. -/
inductive Member {α : Type} (entries : List (String × Node)) (key : String)
    (read : Node → Option α) (standard : α) : α → Prop where
  | missing (absent : key ∉ entries.map Prod.fst) : Member entries key read standard standard
  | given {node : Node} {value : α}
      (once : (entries.filter fun entry => entry.1 == key) = [(key, node)])
      (isValue : read node = some value) : Member entries key read standard value

theorem filter_eq_nil_iff_absent {entries : List (String × Node)} {key : String} :
    (entries.filter fun entry => entry.1 == key) = [] ↔ key ∉ entries.map Prod.fst := by
  rw [List.filter_eq_nil_iff, List.mem_map]
  simp only [beq_iff_eq, not_exists, not_and]

theorem member_eq_some {α : Type} {entries : List (String × Node)} {key : String}
    {read : Node → Option α} {standard value : α} :
    member entries key read standard = some value ↔ Member entries key read standard value := by
  unfold member
  constructor
  · intro isMember
    split at isMember
    · next none =>
      obtain rfl := Option.some.inj isMember
      exact .missing (filter_eq_nil_iff_absent.mp none)
    · next name node once =>
      have isOne := once ▸ List.mem_singleton_self (name, node)
      obtain rfl : name = key := by simpa using (List.mem_filter.mp isOne).2
      exact .given once isMember
    · contradiction
  · rintro (absent | ⟨once, isValue⟩)
    · rw [filter_eq_nil_iff_absent.mpr absent]
    · rw [once]
      exact isValue

/-- A document with these entries describes the settings.  Keys other than these five say
nothing. -/
structure DescribedBy (document : Node) (entries : List (String × Node))
    (settings : Settings) : Prop where
  isMapping : entries? document = some entries
  assetsTable : Member entries "assets_table" (text? document) "assets" settings.assetsTable
  relationsTable :
    Member entries "relations_table" (text? document) "relations" settings.relationsTable
  optimizeEitherDirection : Member entries "optimize_either_direction" (flag? document) true
    settings.optimizeEitherDirection
  knownAssetTypes :
    Member entries "known_asset_types" (labels? document) none settings.knownAssetTypes
  knownRelationTypes :
    Member entries "known_relation_types" (labels? document) none settings.knownRelationTypes

def DescribedByFile (content : String) (settings : Settings) : Prop :=
  ∃ document entries, Yaml.parse content = some document ∧ DescribedBy document entries settings

theorem ofYaml_eq_some {document : Node} {settings : Settings} :
    ofYaml document = some settings ↔ ∃ entries, DescribedBy document entries settings := by
  simp only [ofYaml, Option.bind_eq_bind, Option.bind_eq_some_iff, member_eq_some, Option.pure_def,
    Option.some.injEq]
  constructor
  · rintro ⟨entries, isMapping, _, assets, _, relations, _, optimize, _, assetTypes, _,
      relationTypes, rfl⟩
    exact ⟨entries, isMapping, assets, relations, optimize, assetTypes, relationTypes⟩
  · rintro ⟨entries, isMapping, assets, relations, optimize, assetTypes, relationTypes⟩
    exact ⟨entries, isMapping, _, assets, _, relations, _, optimize, _, assetTypes, _,
      relationTypes, rfl⟩

theorem describedByFile_iff {content : String} {settings : Settings} :
    DescribedByFile content settings ↔ (Yaml.parse content).bind ofYaml = some settings := by
  simp only [DescribedByFile, Option.bind_eq_some_iff, ofYaml_eq_some, exists_and_left]

/-- A file that describes settings is read as them, unless a table is no plain name. -/
theorem DescribedByFile.ofFile {content : String} {settings : Settings}
    (described : DescribedByFile content settings) :
    Settings.ofFile content = settings.validated := by
  rw [Settings.ofFile, describedByFile_iff.mp described]

theorem ofFile_eq_ok {content : String} {settings : Settings} :
    ofFile content = .ok settings ↔
      DescribedByFile content settings ∧ settings.isValid = true := by
  constructor
  · intro read
    unfold ofFile at read
    split at read
    · next found isFound =>
      obtain ⟨rfl, valid⟩ := validated_eq_ok.mp read
      exact ⟨describedByFile_iff.mpr isFound, valid⟩
    · contradiction
  · rintro ⟨described, valid⟩
    rw [described.ofFile]
    exact validated_eq_ok.mpr ⟨rfl, valid⟩

/-! ## The environment -/

/-- The environment describes the settings.  A list of labels that is not set admits all. -/
structure DescribedByEnvironment (environment : Environment) (settings : Settings) : Prop where
  assetsTable :
    settings.assetsTable = (environment.find? "GRAPHKB_ASSETS_TABLE").getD "assets"
  relationsTable :
    settings.relationsTable = (environment.find? "GRAPHKB_RELATIONS_TABLE").getD "relations"
  optimizeEitherDirection :
    boolean? ((environment.find? "GRAPHKB_OPTIMIZE_EITHER_DIRECTION").getD "true") =
      some settings.optimizeEitherDirection
  knownAssetTypes : settings.knownAssetTypes =
    (environment.find? "GRAPHKB_KNOWN_ASSET_TYPES").map commaSeparated
  knownRelationTypes : settings.knownRelationTypes =
    (environment.find? "GRAPHKB_KNOWN_RELATION_TYPES").map commaSeparated

theorem flagOf_true_eq_ok {environment : Environment} {name : String} {flag : Bool} :
    flagOf environment name true = .ok flag ↔
      boolean? ((environment.find? name).getD "true") = some flag := by
  unfold flagOf
  cases environment.find? name with
  | none => simp [boolean?]
  | some value =>
    dsimp only [Option.getD_some]
    cases boolean? value with
    | none => simp
    | some found => simp

/-- An environment that describes settings is read as them, unless a table is no plain name. -/
theorem DescribedByEnvironment.ofEnvironment {environment : Environment} {settings : Settings}
    (described : DescribedByEnvironment environment settings) :
    Settings.ofEnvironment environment = settings.validated := by
  obtain ⟨assets, relations, optimize, assetTypes, relationTypes⟩ := described
  have flag : flagOf environment "GRAPHKB_OPTIMIZE_EITHER_DIRECTION"
      standard.optimizeEitherDirection = .ok settings.optimizeEitherDirection :=
    flagOf_true_eq_ok.mpr optimize
  rw [Settings.ofEnvironment, flag, ok_bind]
  simp only [standard, ← assets, ← relations, ← assetTypes, ← relationTypes]

theorem ofEnvironment_eq_ok {environment : Environment} {settings : Settings} :
    ofEnvironment environment = .ok settings ↔
      DescribedByEnvironment environment settings ∧ settings.isValid = true := by
  constructor
  · intro read
    obtain ⟨flag, isFlag, read⟩ := bind_eq_ok.mp read
    obtain ⟨rfl, valid⟩ := validated_eq_ok.mp read
    exact ⟨⟨rfl, rfl, flagOf_true_eq_ok.mp isFlag, rfl, rfl⟩, valid⟩
  · rintro ⟨described, valid⟩
    rw [described.ofEnvironment]
    exact validated_eq_ok.mpr ⟨rfl, valid⟩

end Settings

end CypherSql
