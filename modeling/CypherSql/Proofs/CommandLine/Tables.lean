import CypherSql.CommandLine.Basic
import CypherSql.Proofs.CommandLine.Lines
import CypherSql.Proofs.Compilation.Plain
import CypherSql.Proofs.Settings.Described

/-! # Tables of a translation

The names of tables become part of the SQL as they are.  They come from a flag, or else from the
settings file that the line names, or else from the environment, or else they are the standard
ones, and they are looked at twice: when the file or the environment is read, and when the flags
have taken effect.

* `Branch.ReadsTables`, `Query.compile_readsTables` — a statement reads the tables of its settings
  and no others.
* `Base`, `Layered` — the settings that a line starts from, and those with its flags.
* `settingsOf_ok`, `Base.refused` — what settings a line leads to, and which are refused.
* `Query.compile_readsNames` — the tables that are named in the SQL of a clear query.
* `run_readsTables` — the tables that a run can put into SQL.
-/

namespace CypherSql

open CypherSql.Cypher (Query)
open CypherSql.Graph (Slot SlotKind)
open CypherSql.Sql (hasComment isReserved tablesIn tokens)

/-! ## Statements -/

namespace Sql

/-- A row of a slot is one of the table for slots of its kind, in the `SELECT` itself and in its
sub-selects.  What else a database finds in the words, the labels and the texts that become part of the
SQL is not seen here. -/
structure Branch.ReadsTables (settings : Settings) (branch : Branch Statement) : Prop where
  sources : ∀ source ∈ branch.sources, ∃ slot : Slot,
    source = .table (settings.table slot.kind) (some (.outer slot))
  joins : branch.joins = []
  subselects : ∀ sub, .existing sub ∈ branch.lexemes → ∀ source ∈ sub.sources, ∃ slot : Slot,
    source = (settings.table slot.kind, .inner slot)
  given : ∀ text, .given text ∉ branch.lexemes

end Sql

namespace Compilation

open CypherSql.Sql (Branch Lexeme Statement)

/-- A lexeme reads no other tables than those of the settings. -/
def ReadsTables (settings : Settings) : Lexeme → Prop
  | .existing sub => ∀ source ∈ sub.sources, ∃ slot : Slot,
      source = (settings.table slot.kind, .inner slot)
  | .given _ => False
  | _ => True

theorem readsTables_ofRows (settings : Settings) : OfRows (ReadsTables settings) where
  fixed lexeme isFixed := by cases lexeme <;> trivial
  column _ _ _ _ _ := trivial

theorem Run.readsTables {settings : Settings} {query : Query} {final : Draft}
    (run : Run (.start settings) query.events final) {branch : Branch Statement}
    (places : Places settings final branch) : branch.ReadsTables settings := by
  have lexemes : ∀ lexeme ∈ branch.lexemes, ReadsTables settings lexeme := by
    apply run.forall_lexemes places (readsTables_ofRows settings)
    intro stage _ draft sound _
    constructor
    case slot => exact fun _ _ _ => trivial
    case word => exact fun _ _ _ _ => trivial
    case path => exact fun _ _ _ _ _ _ => trivial
    case text => exact fun _ _ => ⟨trivial, fun _ => trivial⟩
    case test =>
      -- A draft keeps the settings that the query is compiled with.
      intro pattern embedding _ _ source isOne
      rw [sound.settings] at isOne
      exact mem_sources_subselect isOne
  constructor
  case sources =>
    intro source isOne
    rw [places.sources] at isOne
    exact mem_slotTables isOne
  case joins => exact places.joins
  case subselects => exact fun sub isOne => lexemes _ isOne
  case given => exact fun text isOne => lexemes _ isOne

end Compilation

/-- Every `SELECT` of a statement reads the tables of the settings, and no others. -/
theorem Cypher.Query.compile_readsTables {settings : Settings} {query : Query}
    {compiled : CompiledQuery} (compiles : query.compile settings = .ok compiled) :
    ∀ branch ∈ compiled.statement.branches, branch.ReadsTables settings := by
  obtain ⟨_, _, _, _, _, run, places⟩ := Query.compile_places compiles
  exact fun branch isBranch => run.readsTables (places branch isBranch)

/-- The SQL of a clear query names the tables of the settings behind its `FROM`s, and no others. -/
theorem Cypher.Query.compile_readsNames {settings : Settings} {query : Query}
    {compiled : CompiledQuery} (compiles : query.compile settings = .ok compiled)
    (clear : query.IsClear settings compiled) :
    ∃ row, tokens compiled.sql = some row ∧ ∀ table ∈ tablesIn row, table ∈ settings.tables := by
  obtain ⟨row, isRead, reads⟩ := Query.compile_reads compiles clear
  refine ⟨row, isRead, reads.tables.tablesIn ?_⟩
  exact List.forall_mem_cons.mpr ⟨(clear.tables .node).unreserved,
    List.forall_mem_singleton.mpr (clear.tables .relation).unreserved⟩

namespace CommandLine

/-! ## Settings -/

/-- The option that names the table for slots of a kind. -/
def tableOption : SlotKind → ValueOption
  | .node => .assetsTable
  | .relation => .relationsTable

/-- The settings that a line starts from: those of the file that it names, or else those of the
environment.  Their tables may have any names. -/
inductive Base (world : World) (line : List String) (base : Settings) : Prop where
  | file {path content : String} (given : GivesValue line .settingsFile path)
      (isContent : world.file path = .ok content)
      (described : Settings.DescribedByFile content base)
  | environment (notGiven : ∀ path, ¬ GivesValue line .settingsFile path)
      (described : Settings.DescribedByEnvironment world.extended base)

/-- The settings with the flags of a line. -/
structure Layered (line : List String) (base settings : Settings) : Prop where
  given : ∀ kind name, GivesValue line (tableOption kind) name → settings.table kind = name
  notGiven : ∀ kind, (∀ name, ¬ GivesValue line (tableOption kind) name) →
    settings.table kind = base.table kind
  optimizeEitherDirection : settings.optimizeEitherDirection = true ↔
    base.optimizeEitherDirection = true ∧
      LongOption.bothDirections.word ∉ optionWords line
  knownAssetTypes : settings.knownAssetTypes = base.knownAssetTypes
  knownRelationTypes : settings.knownRelationTypes = base.knownRelationTypes

section

variable {world : World} {line : List String} {arguments : Arguments}
  (parsed : Arguments.parse line = .ok arguments)

include parsed

theorem base_of_baseSettings {base : Settings}
    (isBase : baseSettings world arguments = .ok base) : Base world line base := by
  have paths := (parse_ok parsed).1 .settingsFile
  rw [Arguments.value?] at paths
  unfold baseSettings at isBase
  split at isBase
  · next path isPath =>
    have given := (paths path).mp isPath
    rw [mapError_eq_ok] at isBase
    split at isBase
    · next content isContent =>
      exact .file given isContent (Settings.ofFile_eq_ok.mp isBase).1
    · contradiction
  · next unset =>
    rw [mapError_eq_ok] at isBase
    refine .environment (fun path given => ?_) (Settings.ofEnvironment_eq_ok.mp isBase).1
    have isPath := (paths path).mpr given
    simp [unset] at isPath

/-- The settings that a line starts from are looked at before any flag takes effect. -/
theorem Base.baseSettings_eq {base : Settings} (isBase : Base world line base) :
    ∃ summary, baseSettings world arguments =
      base.validated.mapError fun error => ⟨summary, error.causes⟩ := by
  have paths := (parse_ok parsed).1 .settingsFile
  rw [Arguments.value?] at paths
  unfold CommandLine.baseSettings
  cases isBase with
  | @file path content given isContent described =>
    refine ⟨"loading configuration from " ++ path, ?_⟩
    rw [(paths path).mpr given]
    simp only [isContent, described.ofFile]
  | environment notGiven described =>
    refine ⟨"reading configuration from environment", ?_⟩
    have unset : arguments.settingsFile = none :=
      Option.eq_none_iff_forall_ne_some.mpr fun path isPath =>
        notGiven path ((paths path).mp isPath)
    rw [unset]
    simp only [described.ofEnvironment]

theorem layered_merge (base : Settings) :
    Layered line base (base.merge (overridesOf arguments base)) := by
  obtain ⟨values, directions⟩ := parse_ok parsed
  constructor
  case given =>
    intro kind name given
    have isValue := (values _ _).mpr given
    cases kind <;>
      simp_all [tableOption, Arguments.value?, Settings.table, Settings.merge, overridesOf]
  case notGiven =>
    intro kind notGiven
    have unset : arguments.value? (tableOption kind) = none :=
      Option.eq_none_iff_forall_ne_some.mpr fun name isValue =>
        notGiven name ((values _ name).mp isValue)
    cases kind <;>
      simp_all [tableOption, Arguments.value?, Settings.table, Settings.merge, overridesOf]
  case optimizeEitherDirection =>
    rw [← directions]
    simp [Settings.merge, overridesOf]
  case knownAssetTypes => rfl
  case knownRelationTypes => rfl

theorem settingsOf_ok {settings : Settings} (isOne : settingsOf world arguments = .ok settings) :
    ∃ base, Base world line base ∧ Layered line base settings ∧
      ∀ kind, Text.isIdentifier (settings.table kind) = true := by
  obtain ⟨base, isBase, isOne⟩ := bind_eq_ok.mp isOne
  dsimp only at isOne
  split at isOne
  · next valid =>
    obtain rfl := pure_eq_ok.mp isOne
    exact ⟨base, base_of_baseSettings parsed isBase, layered_merge parsed base,
      Settings.isValid_iff.mp valid⟩
  · contradiction

/-- A table that is no plain name is refused, even if a flag gives another. -/
theorem Base.refused {base : Settings} (isBase : Base world line base) {kind : SlotKind}
    (isOther : Text.isIdentifier (base.table kind) = false) :
    ∃ summary, run world line =
      ⟨1, "", Report.text ⟨summary, (SettingsError.invalid base.faults).causes⟩⟩ := by
  have invalid : base.isValid = false := by
    rw [Bool.eq_false_iff, Ne, Settings.isValid_iff]
    intro all
    simp [all kind] at isOther
  obtain ⟨summary, isError⟩ := isBase.baseSettings_eq parsed
  rw [Settings.validated_eq_error invalid] at isError
  refine ⟨summary, ?_⟩
  simp only [run, parsed, compiledOf, settingsOf, isError]
  rfl

end

/-! ## Runs -/

/-- A run without an error asks for the version or for help, or prints a translation. -/
theorem run_ok {world : World} {line : List String} (isOk : (run world line).code = 0) :
    (Arguments.parse line = .error .version ∨ Arguments.parse line = .error .help) ∨
      ∃ arguments settings query compiled, Arguments.parse line = .ok arguments ∧
        settingsOf world arguments = .ok settings ∧
        Query.parse (arguments.query.getD world.input) = .ok query ∧
        query.compile settings = .ok compiled ∧
        run world line = ⟨0, outputOf arguments compiled, ""⟩ := by
  unfold run at isOk
  split at isOk
  · next stop parsed =>
    cases stop with
    | version => exact .inl (.inl parsed)
    | help => exact .inl (.inr parsed)
    | misuse => contradiction
  · next arguments parsed =>
    split at isOk
    · next compiled succeeds =>
      obtain ⟨settings, areSettings, rest⟩ := bind_eq_ok.mp succeeds
      obtain ⟨query, isQuery, compiles⟩ := bind_eq_ok.mp rest
      rw [mapError_eq_ok] at isQuery compiles
      have result : run world line = ⟨0, outputOf arguments compiled, ""⟩ := by
        simp only [run, parsed, succeeds]
      exact .inr ⟨arguments, settings, query, compiled, parsed, areSettings, isQuery, compiles,
        result⟩
    · contradiction

/-- A run without an error that prints a translation reads tables with plain names only: those
that flags give, or else those of the settings that the line starts from.  The optimization is that
of these settings unless a flag forbids it, and the known labels are theirs.  Where the query is clear,
they are the tables that are named in its SQL.  Where one of the tables that the line starts from has
another name, the run fails, whatever the flags give. -/
theorem run_readsTables (world : World) (line : List String) :
    ((run world line).code = 0 →
      (Arguments.parse line = .error .version ∨ Arguments.parse line = .error .help) ∨
        ∃ arguments base settings query compiled, Arguments.parse line = .ok arguments ∧
          settingsOf world arguments = .ok settings ∧
          Base world line base ∧ Layered line base settings ∧
          (∀ kind, Text.isIdentifier (settings.table kind) = true) ∧
          Query.parse (arguments.query.getD world.input) = .ok query ∧
          query.compile settings = .ok compiled ∧
          run world line = ⟨0, outputOf arguments compiled, ""⟩ ∧
          (∀ branch ∈ compiled.statement.branches, branch.ReadsTables settings) ∧
          (query.IsClear settings compiled → ∃ row, tokens compiled.sql = some row ∧
            ∀ table ∈ tablesIn row, table ∈ settings.tables)) ∧
    ∀ arguments base kind, Arguments.parse line = .ok arguments → Base world line base →
      Text.isIdentifier (base.table kind) = false → ∃ summary, run world line =
        ⟨1, "", Report.text ⟨summary, (SettingsError.invalid base.faults).causes⟩⟩ := by
  constructor
  · intro isOk
    refine (run_ok isOk).imp_right ?_
    rintro ⟨arguments, settings, query, compiled, parsed, areSettings, isQuery, compiles, result⟩
    obtain ⟨base, isBase, layered, plain⟩ := settingsOf_ok parsed areSettings
    exact ⟨arguments, base, settings, query, compiled, parsed, areSettings, isBase, layered, plain,
      isQuery, compiles, result, Query.compile_readsTables compiles, Query.compile_readsNames compiles⟩
  · intro arguments base kind parsed isBase isOther
    exact isBase.refused parsed isOther

/-- A settings file with one table and one list of labels, next to an environment with a table that
is no plain name. -/
def severalWorld : World where
  environment := [("GRAPHKB_ASSETS_TABLE", "machines"), ("GRAPHKB_RELATIONS_TABLE", "no name")]
  file path :=
    if path == "kb.yml" then .ok "relations_table: links\nknown_asset_types: [ip, host]\n"
    else .error .missing
  input := "MATCH (a:ip) WHERE (a)--(:host) RETURN a.value"

def severalLine : List String :=
  ["--config", "kb.yml", "--assets-table=hosts", "--no-either-optimization"]

def severalSettings : Settings where
  assetsTable := "hosts"
  relationsTable := "links"
  optimizeEitherDirection := false
  knownAssetTypes := some ["ip", "host"]
  knownRelationTypes := none

def severalSql : String :=
  "SELECT a0.value\nFROM (hosts a0)\nWHERE a0.type = 'ip' AND EXISTS (SELECT 1\n" ++
    "FROM (hosts aw0, hosts aw1, links rw0)\nWHERE aw0.id = a0.id AND aw1.type = 'host' AND " ++
    "((rw0.from_id = aw0.id AND rw0.to_id = aw1.id) OR " ++
    "(rw0.from_id = aw1.id AND rw0.to_id = aw0.id)))"

theorem hasComment_severalSql : hasComment severalSql = false := by
  unfold severalSql hasComment
  simp only [String.toList_append]
  decide +kernel

/-- The file takes the place of the environment, and a flag that of one of its tables.  Without the
file, no flag makes up for the environment. -/
theorem run_readsTables_severalWorld : (run severalWorld severalLine).code = 0 ∧
    (∃ base query compiled row, Base severalWorld severalLine base ∧
      Layered severalLine base severalSettings ∧ Query.parse severalWorld.input = .ok query ∧
      query.compile severalSettings = .ok compiled ∧
      (∀ branch ∈ compiled.statement.branches, branch.ReadsTables severalSettings) ∧
      tokens compiled.sql = some row ∧ ∀ table ∈ tablesIn row, table ∈ ["hosts", "links"]) ∧
    (run severalWorld ["--relations-table", "links"]).code = 1 := by
  have isOk : (run severalWorld severalLine).code = 0 := by decide +kernel
  refine ⟨isOk, ?_, ?_⟩
  · have evaluated : ((Arguments.parse severalLine).toOption.any fun arguments =>
        arguments.query.isNone &&
          (settingsOf severalWorld arguments).toOption.any fun settings =>
            settings == severalSettings &&
              (Query.parse severalWorld.input).toOption.any fun query =>
                query.isPlain && query.isUnreserved &&
                  (query.compile settings).toOption.any fun compiled =>
                    compiled.sql == severalSql) = true := by
      decide +kernel
    simp only [Option.any_eq_true, toOption_eq_some, Bool.and_eq_true, beq_iff_eq,
      Option.isNone_iff_eq_none] at evaluated
    obtain ⟨given, isGiven, noQuery, settings, areSettings, rfl, query, isRead, ⟨plain, unreserved⟩,
      compiled, compiles, isSql⟩ := evaluated
    obtain (asked | asked) | ⟨arguments, base, found, other, result, parsed, areFound, isBase,
      layered, identifiers, isQuery, compilesTo, -, structural, named⟩ :=
        (run_readsTables severalWorld severalLine).1 isOk
    · cases isGiven.symm.trans asked
    · cases isGiven.symm.trans asked
    obtain rfl := Except.ok.inj (isGiven.symm.trans parsed)
    obtain rfl := Except.ok.inj (areSettings.symm.trans areFound)
    rw [noQuery] at isQuery
    obtain rfl := Except.ok.inj (isRead.symm.trans isQuery)
    obtain rfl := Except.ok.inj (compiles.symm.trans compilesTo)
    have tables : ∀ kind, Sql.IsName (severalSettings.table kind) := by
      intro kind
      cases kind <;> exact ⟨by decide, by decide⟩
    have uncommented : hasComment compiled.sql = false := isSql ▸ hasComment_severalSql
    obtain ⟨row, isTokens, each⟩ := named ⟨plain, unreserved, tables, uncommented⟩
    exact ⟨base, query, compiled, row, isBase, layered, isRead, compiles, structural, isTokens, each⟩
  · have parsed : Arguments.parse ["--relations-table", "links"] =
        .ok { Arguments.blank with relationsTable := some "links" } := by decide +kernel
    have isBase : Base severalWorld ["--relations-table", "links"]
        ⟨"machines", "no name", true, none, none⟩ := by
      refine .environment (fun path given => ?_) ⟨rfl, rfl, rfl, rfl, rfl⟩
      have isPath := ((parse_ok parsed).1 .settingsFile path).mpr given
      cases isPath
    obtain ⟨summary, fails⟩ := (run_readsTables severalWorld _).2 _ _ .relation parsed isBase
      (by decide)
    rw [fails]

/-- Nothing but a query on the standard input. -/
def plainWorld (text : String) : World where
  environment := []
  file _ := .error .missing
  input := text

/-- What is not clear may name other tables: a name, a text or a label that ends what it stands in, a
keyword, and a table that is a keyword. -/
def strayRuns : List (List String × String) :=
  [([], "MATCH (a) RETURN `1 FROM secrets UNION ALL SELECT a0.id`"),
    ([], "MATCH (a) RETURN \"' FROM secrets UNION SELECT '\""),
    ([], "MATCH (a:`x' UNION SELECT 1 FROM secrets WHERE 'x`) RETURN a"),
    ([], "MATCH (a) RETURN `FROM`, a.value"),
    (["--assets-table=from"], "MATCH (a) RETURN a")]

/-- A run that prints SQL in which another table is named. -/
def Strays (world : World) (line : List String) : Prop :=
  ∃ arguments settings query compiled row, Arguments.parse line = .ok arguments ∧
    settingsOf world arguments = .ok settings ∧
    Query.parse (arguments.query.getD world.input) = .ok query ∧
    query.compile settings = .ok compiled ∧
    run world line = ⟨0, outputOf arguments compiled, ""⟩ ∧
    tokens compiled.sql = some row ∧ ∃ table ∈ tablesIn row, table ∉ settings.tables

/-- All these runs do, and where a comment begins, the tables are not seen at all. -/
theorem not_readsTables_strayRuns :
    (∀ stray ∈ strayRuns, Strays (plainWorld stray.2) stray.1) ∧
      ∃ query compiled, Query.parse "MATCH (a) WITH -a.id AS x RETURN -x" = .ok query ∧
        query.compile .standard = .ok compiled ∧ tokens compiled.sql = none := by
  constructor
  · have evaluated : (strayRuns.all fun stray =>
        (run (plainWorld stray.2) stray.1).code == 0 &&
          (Arguments.parse stray.1).toOption.any fun arguments =>
            (settingsOf (plainWorld stray.2) arguments).toOption.any fun settings =>
              (Query.parse (arguments.query.getD stray.2)).toOption.any fun query =>
                (query.compile settings).toOption.any fun compiled =>
                  (tokens compiled.sql).any fun row =>
                    (tablesIn row).any fun table => !settings.tables.contains table) = true := by
      decide +kernel
    intro stray isOne
    have found := List.all_eq_true.mp evaluated stray isOne
    simp only [Option.any_eq_true, toOption_eq_some, Bool.and_eq_true, beq_iff_eq, List.any_eq_true,
      Bool.not_eq_true', List.contains_eq_mem, decide_eq_false_iff_not] at found
    obtain ⟨isOk, arguments, isGiven, settings, areSettings, query, isRead, compiled, compiles, row,
      isTokens, other⟩ := found
    refine ⟨arguments, settings, query, compiled, row, isGiven, areSettings, isRead, compiles, ?_,
      isTokens, other⟩
    obtain (asked | asked) | ⟨given, found, read, result, parsed, areFound, isQuery, compilesTo, runs⟩ :=
      run_ok isOk
    · cases isGiven.symm.trans asked
    · cases isGiven.symm.trans asked
    obtain rfl := Except.ok.inj (isGiven.symm.trans parsed)
    obtain rfl := Except.ok.inj (areSettings.symm.trans areFound)
    obtain rfl := Except.ok.inj (isRead.symm.trans isQuery)
    obtain rfl := Except.ok.inj (compiles.symm.trans compilesTo)
    exact runs
  · have evaluated : ((Query.parse "MATCH (a) WITH -a.id AS x RETURN -x").toOption.any fun query =>
        (query.compile .standard).toOption.any fun compiled => (tokens compiled.sql).isNone) = true := by
      decide +kernel
    simp only [Option.any_eq_true, toOption_eq_some, Option.isNone_iff_eq_none] at evaluated
    obtain ⟨query, parsed, compiled, compiles, unread⟩ := evaluated
    exact ⟨query, compiled, parsed, compiles, unread⟩

end CommandLine

end CypherSql
