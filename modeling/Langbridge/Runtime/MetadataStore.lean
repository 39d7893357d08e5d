/-
The metadata store of a runtime and what a start writes to it (`_build_dataset_models`,
`_build_dataset_repository_records`, `_reconcile_sql_runtime_metadata`).

A start builds a record for everything the configuration names, under identifiers made from the names, and merges the
records over the persisted ones; the columns and the policies of the configured datasets are deleted and written anew.
Requests write the other rows, under random identifiers. The sync states are not touched.

Main results:
- `started_configured`, `started_other`: the rows of the datasets after a start.
- `started_columns_iff`, `started_policies_iff`, `started_resources_iff`: what requests made is left alone.
- `started_twice`: a second start overwrites what the first one wrote.
-/
import Langbridge.Runtime.ApiSync

namespace Langbridge.Runtime.Metadata

open Core List PyText

/-! ## Rows -/

/-- `uuid.uuid4()`, and `uuid.uuid5()` of a name or of another identifier's text followed by a name -/
inductive Uuid where
  | random (bits : ℕ)
  | named (kind name : String)
  | owned (kind : String) (owner : Uuid) (suffix : String)
deriving DecidableEq

def stableUuid (kind name : String) : Uuid := .named kind name

inductive ManagementMode where
  | configManaged
  | runtimeManaged
deriving DecidableEq

inductive DatasetStatus where
  | published
  | pendingSync
deriving DecidableEq

/-- what a sync materialises of a dataset's row -/
structure Materialized where
  storageUri : Option String
  status : DatasetStatus
  revisionId : Option Uuid
  rowCountEstimate : Option ℕ
  bytesEstimate : Option ℕ
deriving DecidableEq

inductive SyncSource where
  | resource (path : String)
  | table (name : String)
  | sql (text : String)
  | storage (uri : String)
deriving DecidableEq

/-- how a dataset is read -/
structure Definition where
  datasetType : String
  sourceKind : String
  storageKind : String
  dialect : String
  catalogName : Option String
  schemaName : Option String
  tableName : String
  sqlText : Option String
  fileConfig : List (String × String)
deriving DecidableEq

/-- a row of `datasets` -/
structure Dataset where
  id : Uuid
  connectionId : Option Uuid
  name : String
  sqlAlias : String
  description : Option String
  tags : List String
  sync : Option SyncSource
  definition : Definition
  materialized : Materialized
  managementMode : ManagementMode
  createdAt : ℕ
  updatedAt : ℕ
deriving DecidableEq

/-- a row of `dataset_columns` -/
structure Column where
  id : Uuid
  datasetId : Uuid
  name : String
  dataType : String
  nullable : Bool
  ordinalPosition : ℕ
  description : Option String
  expression : Option String
  createdAt : ℕ
  updatedAt : ℕ
deriving DecidableEq

/-- a row of `dataset_policies` -/
structure Policy where
  id : Uuid
  datasetId : Uuid
  maxRowsPreview : ℕ
  maxExportRows : ℕ
  redactionRules : List (String × String)
  rowFilters : List String
  allowDml : Bool
  createdAt : ℕ
  updatedAt : ℕ
deriving DecidableEq

inductive ResourceKind where
  | connector
  | llmConnection
  | agent
  | semanticModel
deriving DecidableEq

/-- a row of one of them -/
structure Resource where
  kind : ResourceKind
  id : Uuid
  name : String
  content : String
  managementMode : ManagementMode
  updatedAt : ℕ
deriving DecidableEq

def Resource.key (r : Resource) : ResourceKind × Uuid := (r.kind, r.id)

/-- the SQL store; sync states are kept under the connection and the source key -/
structure MetadataStore where
  resources : Dict (ResourceKind × Uuid) Resource
  datasets : Dict Uuid Dataset
  columns : Dict Uuid Column
  policies : Dict Uuid Policy
  states : Dict (Uuid × String) SyncState

def MetadataStore.empty : MetadataStore := ⟨.empty, .empty, .empty, .empty, .empty⟩

/-- a column as `describe_file_source_schema` and pyarrow describe it -/
structure FileColumn where
  name : String
  dataType : String
  nullable : Bool

/-! ## The configuration -/

/-- how a configured dataset is materialised: a live one as its source says, a synced one from what is synced -/
inductive Materialization where
  | live (definition : Definition) (storageUri : Option String)
  | synced (source : SyncSource)

structure PolicyConfig where
  maxRowsPreview : Option ℕ := none
  maxExportRows : Option ℕ := none
  redactionRules : List (String × String) := []
  rowFilters : List String := []
  allowDml : Bool := false

structure DatasetConfig where
  name : String
  connector : Option String
  description : Option String := none
  tags : List String := []
  materialization : Materialization
  policy : PolicyConfig := {}

structure ResourceConfig where
  name : String
  content : String

structure ConnectorConfig extends ResourceConfig where
  connectorType : String

/-- a dimension or a measure -/
structure SemanticField where
  name : String
  expression : Option String
  type : Option String
  description : Option String

/-- a semantic model, with the fields of its datasets unless it is a unified one -/
structure SemanticModelConfig extends ResourceConfig where
  datasets : Option (Dict String (List SemanticField))

structure RuntimeConfig where
  path : String
  workspace : String
  connectors : List ConnectorConfig
  llmConnections : List ResourceConfig
  agents : List ResourceConfig
  semanticModels : List SemanticModelConfig
  datasets : List DatasetConfig
  defaultMaxRowsPreview : ℕ
  defaultMaxExportRows : ℕ

/-- what a start finds besides the configuration: the clock and the schemas of the files -/
structure Start where
  now : ℕ
  describe : String → List (String × String) → Option (List FileColumn)

section Building

variable [PyText] (hash : String → String) (cfg : RuntimeConfig)

/-! ## Dataset records -/

/-- a pattern's runs, each replaced by an underscore -/
def subRuns (p : Char → Bool) : Bool → List Char → List Char
  | _, [] => []
  | inRun, c :: cs =>
    if p c then
      if inRun then subRuns p true cs else '_' :: subRuns p true cs
    else c :: subRuns p false cs

def isAliasChar (c : Char) : Bool := c.isLower || c.isDigit || c = '_'

def datasetSqlAlias (name : String) : String :=
  let lowered := subRuns (fun c => !isAliasChar c) false (lower (strip name)).toList
  match trim (· = '_') (subRuns (· = '_') false lowered) with
  | [] => "dataset"
  | c :: cs => if c.isDigit then "dataset_" ++ String.ofList (c :: cs) else String.ofList (c :: cs)

def syncSourceKey : SyncSource → String
  | .resource path => "resource:" ++ strip path
  | .table name => "table:" ++ strip name
  | .sql text => "sql:" ++ hash (strip text)
  | .storage uri => "storage:" ++ strip uri

def syncSourceDescription : SyncSource → String
  | .resource path => "resource path '" ++ strip path ++ "'"
  | .table name => "table '" ++ strip name ++ "'"
  | .sql _ => "SQL query"
  | .storage uri => "storage source '" ++ strip uri ++ "'"

def syncSourceTags (connectorType : String) : SyncSource → List String
  | .resource path =>
    ["managed", "api-connector", connectorType, "resource:" ++ lower (strip path)]
  | .table name =>
    ["managed", "database-connector", connectorType, "table:" ++ lower (strip name)]
  | .sql _ => ["managed", "database-connector", connectorType, "sql-sync"]
  | .storage _ => ["managed", connectorType]

def mergeDatasetTags (existing required : List String) : List String :=
  (existing ++ required).foldl (fun merged raw =>
    let tag := strip raw
    if tag = "" ∨ lower tag ∈ merged.map lower then merged else merged ++ [tag]) []

def connectorId (name : String) : Uuid := stableUuid "connector" (cfg.path ++ ":" ++ name)

def datasetId (d : DatasetConfig) : Uuid := stableUuid "dataset" (cfg.path ++ ":" ++ d.name)

/-- `connectors.get(dataset.connector)` -/
def connectorOf (d : DatasetConfig) : Option ConnectorConfig :=
  (d.connector.filter fun name => strip name ≠ "").bind fun name =>
    cfg.connectors.reverse.find? fun c => c.name = name

def sourceKindOf : SyncSource → String
  | .resource _ => "api"
  | .table _ => "database"
  | .sql _ => "database"
  | .storage _ => "file"

/-- how a synced dataset is read -/
def syncedDefinition (sqlAlias : String) (source : SyncSource) : Definition :=
  ⟨"FILE", sourceKindOf source, "parquet", "duckdb", none, none, sqlAlias, none,
    [("format", "parquet"), ("managed_dataset", "true")]⟩

/-- what is materialised before any sync -/
def pending : Materialized := ⟨none, .pendingSync, none, none, none⟩

def connectionOf (d : DatasetConfig) : Option Uuid := (connectorOf cfg d).map fun c => connectorId cfg c.name

def buildDataset (now : ℕ) (d : DatasetConfig) : Dataset :=
  match d.materialization with
  | .live definition storageUri =>
    { id := datasetId cfg d
      connectionId := connectionOf cfg d
      name := d.name
      sqlAlias := datasetSqlAlias d.name
      description := d.description.filter (· ≠ "")
      tags := mergeDatasetTags d.tags []
      sync := none
      definition := definition
      materialized := ⟨storageUri, .published, none, none, none⟩
      managementMode := .configManaged
      createdAt := now
      updatedAt := now }
  | .synced source =>
    { id := datasetId cfg d
      connectionId := connectionOf cfg d
      name := d.name
      sqlAlias := datasetSqlAlias d.name
      description := some ((d.description.filter (· ≠ "")).getD
        ("Configured synced dataset awaiting dataset sync for " ++ syncSourceDescription source ++ "."))
      tags := mergeDatasetTags d.tags
        (syncSourceTags (((connectorOf cfg d).map fun c => lower c.connectorType).getD "") source)
      sync := some source
      definition := syncedDefinition (datasetSqlAlias d.name) source
      materialized := pending
      managementMode := .configManaged
      createdAt := now
      updatedAt := now }

/-- a synced dataset needs its connector, and a source that no dataset before it is bound to -/
def checkBinding (bindings : List (String × String)) (d : DatasetConfig) : Except String (List (String × String)) :=
  match d.materialization with
  | .live _ _ => .ok bindings
  | .synced source =>
    match connectorOf cfg d with
    | none => .error ("Dataset '" ++ d.name ++ "' requires connector '" ++ d.connector.getD "None" ++ "'.")
    | some c =>
      if (c.name, syncSourceKey hash source) ∈ bindings then
        .error ("Connector '" ++ c.name ++ "' has multiple datasets bound to sync.source '" ++
          syncSourceKey hash source ++ "'. Sync source keys must be unique per connector.")
      else .ok (bindings ++ [(c.name, syncSourceKey hash source)])

/-- the datasets by name: of two of one name the later one stands -/
def datasetConfigs : List DatasetConfig := (upsert DatasetConfig.name cfg.datasets).values

def buildDatasetModels (now : ℕ) : Except String (List Dataset) := do
  let _ ← cfg.datasets.foldlM (checkBinding hash cfg) []
  return (datasetConfigs cfg).map (buildDataset cfg now)

/-! ## Columns and policies -/

def isIdentifier (s : String) : Bool :=
  match s.toList with
  | [] => false
  | c :: cs => (c.isAlpha || c = '_') && cs.all fun c => c.isAlphanum || c = '_'

def buildFileDatasetBootstrapColumns (t : Start) (d : Dataset) : List Column :=
  match d.definition.datasetType, d.materialized.storageUri.filter (· ≠ "") with
  | "FILE", some uri =>
    ((t.describe uri d.definition.fileConfig).getD []).zipIdx.map fun e =>
      ⟨.owned "dataset-column" d.id (":" ++ e.1.name), d.id, e.1.name, e.1.dataType, e.1.nullable, e.2, none, none,
        d.createdAt, d.updatedAt⟩
  | _, _ => []

/-- the column of a field: the one its expression names, else one of its own name -/
def columnName (f : SemanticField) : String :=
  let expression := strip (f.expression.getD "")
  if isIdentifier expression then expression else strip f.name

/-- a field's column, unless it has none or there is one -/
def addSemanticColumn (d : Dataset) (columns : List Column) (f : SemanticField) : List Column :=
  let name := columnName f
  if name = "" ∨ lower name ∈ columns.map (fun c => lower c.name) then columns
  else columns ++
    [⟨.owned "dataset-column" d.id (":" ++ name), d.id, name, (f.type.filter (· ≠ "")).getD "string", true,
      columns.length + 1, f.description, some (strip (f.expression.getD "")) |>.filter (· ≠ ""),
      d.createdAt, d.updatedAt⟩]

def semanticFields (name : String) : List SemanticField :=
  (upsert (fun m => m.name) cfg.semanticModels).values.flatMap fun m =>
    (m.datasets.bind fun datasets => datasets.get? name).getD []

def datasetColumns (t : Start) (d : Dataset) : List Column :=
  match buildFileDatasetBootstrapColumns t d with
  | [] => (semanticFields cfg d.name).foldl (addSemanticColumn d) []
  | columns => columns

def limitOr (dflt : ℕ) (limit : Option ℕ) : ℕ := (limit.filter (· ≠ 0)).getD dflt

/-- the policy of a dataset, under an identifier -/
def buildPolicy (id owner : Uuid) (now : ℕ) (p : PolicyConfig) : Policy :=
  ⟨id, owner, limitOr cfg.defaultMaxRowsPreview p.maxRowsPreview, limitOr cfg.defaultMaxExportRows p.maxExportRows,
    p.redactionRules, p.rowFilters, p.allowDml, now, now⟩

/-! ## What a start writes -/

/-- the records a start builds -/
structure Built where
  resources : List Resource
  datasets : List Dataset
  columns : List Column
  policies : List Policy

def configured (kind : ResourceKind) (id : Uuid) (now : ℕ) (r : ResourceConfig) : Resource :=
  ⟨kind, id, r.name, r.content, .configManaged, now⟩

def buildResources (now : ℕ) : List Resource :=
  (cfg.connectors.map fun c => configured .connector (connectorId cfg c.name) now c.toResourceConfig) ++
    (cfg.llmConnections.map fun c =>
      configured .llmConnection (stableUuid "llm-connection" (cfg.path ++ ":" ++ c.name)) now c) ++
    (cfg.agents.map fun a => configured .agent (stableUuid "agent" (cfg.path ++ ":" ++ a.name)) now a) ++
    (cfg.semanticModels.map fun m =>
      configured .semanticModel (stableUuid "semantic-model" (cfg.workspace ++ ":" ++ m.name)) now m.toResourceConfig)

def records (t : Start) (datasets : List Dataset) : Built where
  resources := buildResources cfg t.now
  datasets := datasets
  columns := datasets.flatMap (datasetColumns cfg t)
  policies := (datasetConfigs cfg).map fun d =>
    buildPolicy cfg (.owned "dataset-policy" (datasetId cfg d) "") (datasetId cfg d) t.now d.policy

/-- `_build_resources` -/
def buildRecords (t : Start) : Except String Built := do
  let datasets ← buildDatasetModels hash cfg t.now
  return records cfg t datasets

/-- the constraints `uq_datasets_workspace_name` and `uq_datasets_workspace_sql_alias` -/
def UniqueNames (datasets : Dict Uuid Dataset) : Prop :=
  ∀ e ∈ datasets.entries, ∀ e' ∈ datasets.entries, e.2.name = e'.2.name ∨ e.2.sqlAlias = e'.2.sqlAlias → e.1 = e'.1

instance (datasets : Dict Uuid Dataset) : Decidable (UniqueNames datasets) :=
  inferInstanceAs (Decidable (∀ e ∈ datasets.entries, ∀ e' ∈ datasets.entries,
    e.2.name = e'.2.name ∨ e.2.sqlAlias = e'.2.sqlAlias → e.1 = e'.1))

/-- the store once the records are merged -/
def written (b : Built) (s : MetadataStore) : MetadataStore :=
  let ids := b.datasets.map Dataset.id
  { s with
    resources := merged Resource.key b.resources s.resources
    datasets := merged Dataset.id b.datasets s.datasets
    columns := replaced Column.id Column.datasetId ids b.columns s.columns
    policies := replaced Policy.id Policy.datasetId ids b.policies s.policies }

/-- `_reconcile_sql_runtime_metadata`: committed, or rolled back and raised -/
def reconcile (b : Built) (s : MetadataStore) : Except String MetadataStore :=
  if UniqueNames (written b s).datasets then .ok (written b s) else .error "IntegrityError"

/-- a start of the runtime -/
def start (t : Start) (s : MetadataStore) : Except String MetadataStore := do
  let b ← buildRecords hash cfg t
  reconcile b s

/-! ## The records -/

variable {hash cfg} {t t' : Start} {s s' : MetadataStore} {b : Built}

@[simp] theorem buildDataset_id (now : ℕ) (d : DatasetConfig) : (buildDataset cfg now d).id = datasetId cfg d := by
  rw [buildDataset]
  split <;> rfl

@[simp] theorem buildDataset_name (now : ℕ) (d : DatasetConfig) : (buildDataset cfg now d).name = d.name := by
  rw [buildDataset]
  split <;> rfl

@[simp] theorem buildDataset_sqlAlias (now : ℕ) (d : DatasetConfig) :
    (buildDataset cfg now d).sqlAlias = datasetSqlAlias d.name := by
  rw [buildDataset]
  split <;> rfl

@[simp] theorem buildDataset_connectionId (now : ℕ) (d : DatasetConfig) :
    (buildDataset cfg now d).connectionId = connectionOf cfg d := by
  rw [buildDataset]
  split <;> rfl

@[simp] theorem buildDataset_managementMode (now : ℕ) (d : DatasetConfig) :
    (buildDataset cfg now d).managementMode = .configManaged := by
  rw [buildDataset]
  split <;> rfl

def syncOf (d : DatasetConfig) : Option SyncSource :=
  match d.materialization with
  | .live _ _ => none
  | .synced source => some source

@[simp] theorem buildDataset_sync (now : ℕ) (d : DatasetConfig) : (buildDataset cfg now d).sync = syncOf d := by
  rw [buildDataset, syncOf]
  split <;> rfl

theorem buildDataset_materialized (now : ℕ) {d : DatasetConfig} {source : SyncSource} (h : syncOf d = some source) :
    (buildDataset cfg now d).materialized = pending := by
  cases hm : d.materialization with
  | live definition uri =>
    rw [syncOf, hm] at h
    cases h
  | synced source' =>
    rw [buildDataset, hm]

theorem map_id_built (now : ℕ) :
    ((datasetConfigs cfg).map (buildDataset cfg now)).map Dataset.id = (datasetConfigs cfg).map (datasetId cfg) := by
  rw [List.map_map]
  exact map_congr_left fun d _ => buildDataset_id now d

omit [PyText] in
/-- configured datasets have identifiers of their own -/
theorem datasetIds_nodup : ((datasetConfigs cfg).map (datasetId cfg)).Nodup := by
  have hnames : ((datasetConfigs cfg).map DatasetConfig.name).Nodup := by
    rw [datasetConfigs, map_key_upsert]
    exact Dict.keys_nodup _
  have hmap : (datasetConfigs cfg).map (datasetId cfg) =
      ((datasetConfigs cfg).map DatasetConfig.name).map fun name => stableUuid "dataset" (cfg.path ++ ":" ++ name) := by
    rw [List.map_map]
    rfl
  rw [hmap]
  refine hnames.map fun a b hab => ?_
  exact (String.append_right_inj _).1 (Uuid.named.inj hab).2

theorem mem_datasetColumns {d : Dataset} {c : Column} (h : c ∈ datasetColumns cfg t d) :
    c.datasetId = d.id ∧ ∃ suffix, c.id = .owned "dataset-column" d.id suffix := by
  have hfile : ∀ c ∈ buildFileDatasetBootstrapColumns t d,
      c.datasetId = d.id ∧ ∃ suffix, c.id = .owned "dataset-column" d.id suffix := by
    intro c hc
    rw [buildFileDatasetBootstrapColumns] at hc
    split at hc
    · obtain ⟨e, _, rfl⟩ := mem_map.1 hc
      exact ⟨rfl, _, rfl⟩
    · cases hc
  have hfields : ∀ (fields : List SemanticField) (columns : List Column),
      (∀ c ∈ columns, c.datasetId = d.id ∧ ∃ suffix, c.id = .owned "dataset-column" d.id suffix) →
      ∀ c ∈ fields.foldl (addSemanticColumn d) columns,
        c.datasetId = d.id ∧ ∃ suffix, c.id = .owned "dataset-column" d.id suffix := by
    intro fields
    induction fields with
    | nil => exact fun _ hcols => hcols
    | cons f fields ih =>
      intro columns hcols
      apply ih
      intro c hc
      rw [addSemanticColumn] at hc
      split at hc
      · exact hcols c hc
      · rcases mem_append.1 hc with hc | hc
        · exact hcols c hc
        · rw [mem_singleton] at hc
          subst hc
          exact ⟨rfl, _, rfl⟩
  rw [datasetColumns] at h
  split at h
  · exact hfields _ [] (fun _ hc => by cases hc) c h
  · exact hfile c h

/-- the records of a start, whose bindings have been checked -/
theorem buildRecords_ok_iff :
    buildRecords hash cfg t = .ok b ↔
      (∃ bindings, cfg.datasets.foldlM (checkBinding hash cfg) [] = .ok bindings) ∧
      b = records cfg t ((datasetConfigs cfg).map (buildDataset cfg t.now)) := by
  rw [buildRecords, buildDatasetModels]
  cases cfg.datasets.foldlM (checkBinding hash cfg) [] with
  | error e =>
    refine ⟨fun h => (by cases h), ?_⟩
    rintro ⟨⟨_, h⟩, _⟩
    cases h
  | ok bindings =>
    refine ⟨fun h => ⟨⟨bindings, rfl⟩, (Except.ok.inj h).symm⟩, ?_⟩
    rintro ⟨_, rfl⟩
    rfl

/-- what a start leaves -/
def started (cfg : RuntimeConfig) (t : Start) (s : MetadataStore) : MetadataStore :=
  written (records cfg t ((datasetConfigs cfg).map (buildDataset cfg t.now))) s

theorem start_ok_iff :
    start hash cfg t s = .ok s' ↔
      (∃ bindings, cfg.datasets.foldlM (checkBinding hash cfg) [] = .ok bindings) ∧
      UniqueNames (started cfg t s).datasets ∧ s' = started cfg t s := by
  constructor
  · intro h
    obtain ⟨b, hb, h⟩ := of_bind_ok h
    obtain ⟨hcheck, rfl⟩ := buildRecords_ok_iff.1 hb
    rw [reconcile] at h
    split at h
    · exact ⟨hcheck, by assumption, (Except.ok.inj h).symm⟩
    · cases h
  · rintro ⟨hcheck, hunique, rfl⟩
    rw [start, buildRecords_ok_iff.2 ⟨hcheck, rfl⟩]
    exact if_pos hunique

/-! ## The rows after a start -/

/-- a configured dataset has the row of its record -/
theorem started_configured {d : DatasetConfig} (h : d ∈ datasetConfigs cfg) :
    (started cfg t s).datasets.get? (datasetId cfg d) = some (buildDataset cfg t.now d) := by
  have hmem : buildDataset cfg t.now d ∈ (datasetConfigs cfg).map (buildDataset cfg t.now) := mem_map_of_mem h
  obtain ⟨r, hr, hid, hget⟩ := get?_merged_of_mem Dataset.id _ s.datasets
    (mem_map_of_mem (f := Dataset.id) hmem)
  have hnodup : (((datasetConfigs cfg).map (buildDataset cfg t.now)).map Dataset.id).Nodup := by
    rw [map_id_built]
    exact datasetIds_nodup
  have heq : r = buildDataset cfg t.now d := inj_on_of_nodup_map hnodup hr hmem hid
  rw [buildDataset_id] at hget
  rw [started, written, records, hget, heq]

/-- every other dataset keeps its row -/
theorem started_other {k : Uuid} (h : k ∉ (datasetConfigs cfg).map (datasetId cfg)) :
    (started cfg t s).datasets.get? k = s.datasets.get? k := by
  refine get?_merged_of_not_mem Dataset.id _ s.datasets ?_
  rw [records, map_id_built]
  exact h

/-- a row after a start is that of a record, or one that was there -/
theorem started_cases {k : Uuid} {row : Dataset} (h : (started cfg t s).datasets.get? k = some row) :
    (∃ d ∈ datasetConfigs cfg, k = datasetId cfg d ∧ row = buildDataset cfg t.now d) ∨
      (k ∉ (datasetConfigs cfg).map (datasetId cfg) ∧ s.datasets.get? k = some row) := by
  by_cases hk : k ∈ (datasetConfigs cfg).map (datasetId cfg)
  · obtain ⟨d, hd, rfl⟩ := mem_map.1 hk
    rw [started_configured hd] at h
    exact .inl ⟨d, hd, rfl, (Option.some.inj h).symm⟩
  · rw [started_other hk] at h
    exact .inr ⟨hk, h⟩

abbrev configuredIds (cfg : RuntimeConfig) : List Uuid := (datasetConfigs cfg).map (datasetId cfg)

/-- the columns and the policies of the configured datasets are deleted and written anew -/
theorem started_columns : (started cfg t s).columns = replaced Column.id Column.datasetId (configuredIds cfg)
    (((datasetConfigs cfg).map (buildDataset cfg t.now)).flatMap (datasetColumns cfg t)) s.columns := by
  rw [started, written, records, map_id_built]

theorem started_policies : (started cfg t s).policies = replaced Policy.id Policy.datasetId (configuredIds cfg)
    ((datasetConfigs cfg).map fun d =>
      buildPolicy cfg (.owned "dataset-policy" (datasetId cfg d) "") (datasetId cfg d) t.now d.policy) s.policies := by
  rw [started, written, records, map_id_built]

theorem builtColumns_owner {c : Column}
    (h : c ∈ ((datasetConfigs cfg).map (buildDataset cfg t.now)).flatMap (datasetColumns cfg t)) :
    c.datasetId ∈ configuredIds cfg ∧ ∀ n, c.id ≠ .random n := by
  obtain ⟨row, hrow, hc⟩ := mem_flatMap.1 h
  obtain ⟨d, hd, rfl⟩ := mem_map.1 hrow
  obtain ⟨howner, suffix, hid⟩ := mem_datasetColumns hc
  rw [howner, hid, buildDataset_id]
  exact ⟨mem_map_of_mem hd, fun n h => (by cases h)⟩

omit [PyText] in
theorem builtPolicies_owner {p : Policy}
    (h : p ∈ (datasetConfigs cfg).map fun d =>
      buildPolicy cfg (.owned "dataset-policy" (datasetId cfg d) "") (datasetId cfg d) t.now d.policy) :
    p.datasetId ∈ configuredIds cfg ∧ ∀ n, p.id ≠ .random n := by
  obtain ⟨d, hd, rfl⟩ := mem_map.1 h
  exact ⟨mem_map_of_mem hd, fun n h => (by cases h)⟩

omit [PyText] in
theorem buildResources_configured {now : ℕ} {r : Resource} (h : r ∈ buildResources cfg now) :
    r.managementMode = .configManaged ∧ ∀ n, r.key.2 ≠ .random n := by
  simp only [buildResources, mem_append, mem_map] at h
  rcases h with ((⟨_, _, rfl⟩ | ⟨_, _, rfl⟩) | ⟨_, _, rfl⟩) | ⟨_, _, rfl⟩ <;>
    exact ⟨rfl, fun n h => (by cases h)⟩

omit [PyText] in
theorem map_key_buildResources (now now' : ℕ) :
    (buildResources cfg now).map Resource.key = (buildResources cfg now').map Resource.key := by
  simp only [buildResources, map_append, List.map_map]
  rfl

/-- rows that stand under random identifiers: those of the datasets and the resources that requests made -/
structure UnderRandomIds (cfg : RuntimeConfig) (s : MetadataStore) : Prop where
  columns : ∀ k c, s.columns.get? k = some c → c.datasetId ∉ configuredIds cfg → ∃ n, k = .random n
  policies : ∀ k p, s.policies.get? k = some p → p.datasetId ∉ configuredIds cfg → p.id = k ∧ ∃ n, k = .random n
  resources : ∀ k r, s.resources.get? k = some r → r.managementMode = .runtimeManaged → ∃ n, k.2 = .random n

omit [PyText] in
theorem random_not_mem {R K : Type} {key : R → K} {rows : List R} {f : K → Uuid}
    (h : ∀ r ∈ rows, ∀ n, f (key r) ≠ .random n) {k : K} (hk : ∃ n, f k = .random n) : k ∉ rows.map key := by
  rintro hmem
  obtain ⟨r, hr, rfl⟩ := mem_map.1 hmem
  obtain ⟨n, hn⟩ := hk
  exact h r hr n hn

/-- a start leaves the rows that requests made under random identifiers -/
theorem underRandomIds_started (h : UnderRandomIds cfg s) : UnderRandomIds cfg (started cfg t s) where
  columns := by
    intro k c hc howner
    rcases replaced_cases hc with ⟨hmem, _⟩ | ⟨_, hc, _⟩
    · exact absurd (builtColumns_owner hmem).1 howner
    · exact h.columns k c hc howner
  policies := by
    intro k p hp howner
    rcases replaced_cases hp with ⟨hmem, _⟩ | ⟨_, hp, _⟩
    · exact absurd (builtPolicies_owner hmem).1 howner
    · exact h.policies k p hp howner
  resources := by
    intro k r hr hmode
    rcases merged_cases Resource.key _ _ hr with ⟨hmem, _⟩ | ⟨_, hr⟩
    · rw [(buildResources_configured hmem).1] at hmode
      cases hmode
    · exact h.resources k r hr hmode

/-- **Columns.** The columns of every other dataset are left alone. -/
theorem started_columns_iff (h : UnderRandomIds cfg s) {k : Uuid} {c : Column}
    (howner : c.datasetId ∉ configuredIds cfg) :
    (started cfg t s).columns.get? k = some c ↔ s.columns.get? k = some c := by
  rw [started_columns]
  refine get?_replaced_other_iff (fun r hr => (builtColumns_owner hr).1) howner fun hc => ?_
  exact random_not_mem (f := id) (fun r hr => (builtColumns_owner hr).2) (h.columns k c hc howner)

theorem started_policies_iff (h : UnderRandomIds cfg s) {k : Uuid} {p : Policy}
    (howner : p.datasetId ∉ configuredIds cfg) :
    (started cfg t s).policies.get? k = some p ↔ s.policies.get? k = some p := by
  rw [started_policies]
  refine get?_replaced_other_iff (fun r hr => (builtPolicies_owner hr).1) howner fun hp => ?_
  exact random_not_mem (f := id) (fun r hr => (builtPolicies_owner hr).2) (h.policies k p hp howner).2

theorem started_resources_iff (h : UnderRandomIds cfg s) {k : ResourceKind × Uuid} {r : Resource}
    (hmode : r.managementMode = .runtimeManaged) :
    (started cfg t s).resources.get? k = some r ↔ s.resources.get? k = some r := by
  constructor
  · intro hr
    rcases merged_cases Resource.key _ _ hr with ⟨hmem, _⟩ | ⟨_, hr⟩
    · rw [(buildResources_configured hmem).1] at hmode
      cases hmode
    · exact hr
  · intro hr
    have hk : k ∉ (buildResources cfg t.now).map Resource.key :=
      random_not_mem (f := Prod.snd) (fun r hr => (buildResources_configured hr).2) (h.resources k r hr hmode)
    exact (get?_merged_of_not_mem Resource.key _ s.resources hk).trans hr

/-- two stores with the same rows -/
structure MetadataStore.Same (s s' : MetadataStore) : Prop where
  resources : ∀ k, s.resources.get? k = s'.resources.get? k
  datasets : ∀ k, s.datasets.get? k = s'.datasets.get? k
  columns : ∀ k, s.columns.get? k = s'.columns.get? k
  policies : ∀ k, s.policies.get? k = s'.policies.get? k
  states : ∀ k, s.states.get? k = s'.states.get? k

/-- **Two starts.** A second start overwrites what the first one wrote. -/
theorem started_twice (h : UnderRandomIds cfg s) : (started cfg t' (started cfg t s)).Same (started cfg t' s) where
  resources := get?_merged_merged Resource.key _ _ s.resources (map_key_buildResources t.now t'.now)
  datasets := get?_merged_merged Dataset.id _ _ s.datasets (by rw [records, records, map_id_built, map_id_built])
  columns := by
    intro k
    rw [started_columns, started_columns, started_columns]
    refine get?_replaced_replaced (fun r hr => (builtColumns_owner hr).1) (fun k c hc howner => ?_) k
    exact random_not_mem (f := id) (fun r hr => (builtColumns_owner hr).2) (h.columns k c hc howner)
  policies := by
    intro k
    rw [started_policies, started_policies, started_policies]
    refine get?_replaced_replaced (fun r hr => (builtPolicies_owner hr).1) (fun k p hp howner => ?_) k
    exact random_not_mem (f := id) (fun r hr => (builtPolicies_owner hr).2) (h.policies k p hp howner).2
  states := fun _ => rfl

end Building

end Langbridge.Runtime.Metadata
