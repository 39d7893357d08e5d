/-
Datasets, columns and policies as values of the runtime and as rows of the database
(`persistence/mappers/datasets.py`, `models/metadata.py`).

A value is mapped to its row and back field by field. There is no column for the owner, who is read from the creator; a
limit of zero is read as the default; and references to other datasets come back as texts.
-/
import Langbridge.Core.Codec

namespace Langbridge.Runtime.Records

open Core List PyText
open Core.Codec

/-! ## Enumerations -/

/-- a `str` enumeration -/
structure PyEnum (α : Type) where
  name : String
  value : α → String
  members : List α
  upperCase : Bool

/-- the values of an enumeration are distinct words of one case -/
def PyEnum.Plain {α : Type} (e : PyEnum α) : Prop :=
  ∀ a, (e.members.find? fun b => e.value b = e.value a) = some a ∧ e.value a ≠ "" ∧
    ∀ c ∈ (e.value a).toList, (33 ≤ c.toNat ∧ c.toNat ≤ 126) ∧ c ≠ '.' ∧
      (if e.upperCase then c.isLower else c.isUpper) = false

inductive DatasetType where
  | table
  | sql
  | api
  | file
  | federated
deriving DecidableEq

def datasetType : PyEnum DatasetType where
  name := "DatasetType"
  value | .table => "TABLE" | .sql => "SQL" | .api => "API" | .file => "FILE" | .federated => "FEDERATED"
  members := [.table, .sql, .api, .file, .federated]
  upperCase := true

theorem datasetType_plain : datasetType.Plain := by
  intro a
  cases a <;> exact ⟨by decide, by decide, forall_mem_of_all (by decide)⟩

inductive DatasetMaterializationMode where
  | live
  | synced
deriving DecidableEq

def materializationMode : PyEnum DatasetMaterializationMode where
  name := "DatasetMaterializationMode"
  value | .live => "live" | .synced => "synced"
  members := [.live, .synced]
  upperCase := false

theorem materializationMode_plain : materializationMode.Plain := by
  intro a
  cases a <;> exact ⟨by decide, by decide, forall_mem_of_all (by decide)⟩

inductive DatasetSourceKind where
  | database
  | saas
  | api
  | file
  | virtual
deriving DecidableEq

def sourceKind : PyEnum DatasetSourceKind where
  name := "DatasetSourceKind"
  value | .database => "database" | .saas => "saas" | .api => "api" | .file => "file" | .virtual => "virtual"
  members := [.database, .saas, .api, .file, .virtual]
  upperCase := false

theorem sourceKind_plain : sourceKind.Plain := by
  intro a
  cases a <;> exact ⟨by decide, by decide, forall_mem_of_all (by decide)⟩

inductive DatasetStorageKind where
  | table
  | memory
  | parquet
  | csv
  | json
  | view
  | virtual
deriving DecidableEq

def storageKind : PyEnum DatasetStorageKind where
  name := "DatasetStorageKind"
  value
    | .table => "table" | .memory => "memory" | .parquet => "parquet" | .csv => "csv" | .json => "json"
    | .view => "view" | .virtual => "virtual"
  members := [.table, .memory, .parquet, .csv, .json, .view, .virtual]
  upperCase := false

theorem storageKind_plain : storageKind.Plain := by
  intro a
  cases a <;> exact ⟨by decide, by decide, forall_mem_of_all (by decide)⟩

inductive DatasetStatus where
  | published
  | pendingSync
deriving DecidableEq

def datasetStatus : PyEnum DatasetStatus where
  name := "DatasetStatus"
  value | .published => "published" | .pendingSync => "pending_sync"
  members := [.published, .pendingSync]
  upperCase := false

theorem datasetStatus_plain : datasetStatus.Plain := by
  intro a
  cases a <;> exact ⟨by decide, by decide, forall_mem_of_all (by decide)⟩

inductive ConnectorSyncStrategy where
  | fullRefresh
  | incremental
  | windowedIncremental
  | manual
deriving DecidableEq

def syncStrategy : PyEnum ConnectorSyncStrategy where
  name := "ConnectorSyncStrategy"
  value
    | .fullRefresh => "FULL_REFRESH" | .incremental => "INCREMENTAL"
    | .windowedIncremental => "WINDOWED_INCREMENTAL" | .manual => "MANUAL"
  members := [.fullRefresh, .incremental, .windowedIncremental, .manual]
  upperCase := true

theorem syncStrategy_plain : syncStrategy.Plain := by
  intro a
  cases a <;> exact ⟨by decide, by decide, forall_mem_of_all (by decide)⟩

inductive ManagementMode where
  | configManaged
  | runtimeManaged
deriving DecidableEq

def managementMode : PyEnum ManagementMode where
  name := "ManagementMode"
  value | .configManaged => "config_managed" | .runtimeManaged => "runtime_managed"
  members := [.configManaged, .runtimeManaged]
  upperCase := false

theorem managementMode_plain : managementMode.Plain := by
  intro a
  cases a <;> exact ⟨by decide, by decide, forall_mem_of_all (by decide)⟩

inductive LifecycleState where
  | active
  | archived
deriving DecidableEq

def lifecycleState : PyEnum LifecycleState where
  name := "LifecycleState"
  value | .active => "active" | .archived => "archived"
  members := [.active, .archived]
  upperCase := false

theorem lifecycleState_plain : lifecycleState.Plain := by
  intro a
  cases a <;> exact ⟨by decide, by decide, forall_mem_of_all (by decide)⟩

section Records

variable [PyCase]

/-- the text behind the last dot -/
def afterLastDot (s : String) : String := String.ofList (s.toList.reverse.takeWhile (· ≠ '.')).reverse

/-- `_normalize_enum_value` of a text or `None`; `none` raises -/
def normalizeEnumValue {α : Type} (e : PyEnum α) : Option String → Option (Option α)
  | none => some none
  | some value =>
    let raw := strip value
    if raw = "" then some none
    else
      let named := '.' ∈ raw.toList ∧
        (lower (e.name ++ ".")).toList.isPrefixOf (lower raw).toList = true
      let raw := if named then afterLastDot raw else raw
      let raw := if e.upperCase then PyCase.upper raw else lower raw
      (e.members.find? fun a => e.value a = raw).map some

/-- `Enum(text.lower())` -/
def memberOf {α : Type} (e : PyEnum α) (text : String) : Option α :=
  e.members.find? fun a => e.value a = lower text

/-! ## Sources and syncs -/

/-- the fields of `DatasetSource` -/
def sourceNames : List String :=
  ["table", "resource", "flatten", "sql", "storage_uri", "format", "header", "delimiter", "quote"]

/-- `bool(str(value or "").strip())` -/
def hasText (value : Option String) : Bool := strip (value.getD "") ≠ ""

structure SourceFields where
  table : Option String
  resource : Option String
  flatten : Option (List String)
  sql : Option String
  storageUri : Option String
  format : Option String
  header : Option Bool
  delimiter : Option String
  quote : Option String
  extra : Extras sourceNames

/-- `_validate_source`: exactly one kind of source, and flatten paths for a resource only -/
def SourceFields.check (s : SourceFields) : Bool :=
  [s.table, s.resource, s.sql, s.storageUri].countP hasText = 1 ∧ ((s.flatten.getD []) = [] ∨ hasText s.resource)

/-- `DatasetSource`, and `DatasetSyncSource` -/
structure DatasetSource extends SourceFields where
  valid : toSourceFields.check = true

def SourceFields.entries (s : SourceFields) : List (String × Json) :=
  [("table", text.optional.dump s.table), ("resource", text.optional.dump s.resource),
    ("flatten", text.list.optional.dump s.flatten), ("sql", text.optional.dump s.sql),
    ("storage_uri", text.optional.dump s.storageUri), ("format", text.optional.dump s.format),
    ("header", boolean.optional.dump s.header), ("delimiter", text.optional.dump s.delimiter),
    ("quote", text.optional.dump s.quote)]

def DatasetSource.dump (s : DatasetSource) : List (String × Json) := Extras.dumpWith s.entries s.extra

/-- `DatasetSource.model_validate` of a mapping -/
def DatasetSource.validate (es : List (String × Json)) : Option DatasetSource := do
  let table ← text.optional.defaulted none es "table"
  let resource ← text.optional.defaulted none es "resource"
  let flatten ← text.list.optional.defaulted none es "flatten"
  let sql ← text.optional.defaulted none es "sql"
  let storageUri ← text.optional.defaulted none es "storage_uri"
  let format ← text.optional.defaulted none es "format"
  let header ← boolean.optional.defaulted none es "header"
  let delimiter ← text.optional.defaulted none es "delimiter"
  let quote ← text.optional.defaulted none es "quote"
  let s : SourceFields := ⟨table, resource, flatten, sql, storageUri, format, header, delimiter, quote,
    Extras.ofEntries sourceNames es⟩
  if h : s.check = true then some ⟨s, h⟩ else none

/-- an interval such as `30s` -/
def isCadence (s : String) : Bool :=
  match s.toList.reverse with
  | unit :: digits => unit ∈ ['s', 'm', 'h', 'd'] && digits.all Char.isDigit &&
    digits.getLast?.any fun c => c ≠ '0'
  | [] => false

def normalizeDatasetSyncCadence (value : Json) : Option (Option String) :=
  let normalized := norm (value.orElse (.str "")).text
  if normalized = "" then some none else if isCadence normalized then some (some normalized) else none

/-- the fields of `DatasetSyncConfig` -/
def syncNames : List String :=
  ["source", "strategy", "cadence", "cursor_field", "initial_cursor", "lookback_window", "backfill_start",
    "backfill_end", "sync_on_start"]

/-- `DatasetSyncConfig`, with its cadence normalised -/
structure DatasetSyncConfig where
  source : DatasetSource
  strategy : ConnectorSyncStrategy
  cadence : Option String
  cursorField : Option String
  initialCursor : Option String
  lookbackWindow : Option String
  backfillStart : Option String
  backfillEnd : Option String
  syncOnStart : Bool
  extra : Extras syncNames
  normalized : ∀ c, cadence = some c → norm c = c ∧ c ≠ "" ∧ isCadence c = true

def DatasetSyncConfig.entries (s : DatasetSyncConfig) : List (String × Json) :=
  [("source", .obj s.source.dump), ("strategy", .str (syncStrategy.value s.strategy)),
    ("cadence", text.optional.dump s.cadence), ("cursor_field", text.optional.dump s.cursorField),
    ("initial_cursor", text.optional.dump s.initialCursor), ("lookback_window", text.optional.dump s.lookbackWindow),
    ("backfill_start", text.optional.dump s.backfillStart), ("backfill_end", text.optional.dump s.backfillEnd),
    ("sync_on_start", boolean.dump s.syncOnStart)]

def DatasetSyncConfig.dump (s : DatasetSyncConfig) : List (String × Json) := Extras.dumpWith s.entries s.extra

def syncSource : Json → Option DatasetSource
  | .obj es => DatasetSource.validate es
  | _ => none

def strategyOf : Json → Option ConnectorSyncStrategy
  | .str s => (normalizeEnumValue syncStrategy (some s)).join
  | _ => none

theorem normalized_of_cadence {value : Json} {c : Option String} (h : normalizeDatasetSyncCadence value = some c) :
    ∀ c', c = some c' → norm c' = c' ∧ c' ≠ "" ∧ isCadence c' = true := by
  rw [normalizeDatasetSyncCadence] at h
  rintro c' rfl
  split_ifs at h with hempty hcadence
  · cases h
  · obtain rfl := Option.some.inj (Option.some.inj h)
    exact ⟨PyText.norm_norm _, hempty, hcadence⟩

/-- `DatasetSyncConfig.model_validate` of a mapping -/
def DatasetSyncConfig.validate (es : List (String × Json)) : Option DatasetSyncConfig := do
  let source ← (es.lookup "source").bind syncSource
  let strategy ← (es.lookup "strategy").bind strategyOf
  let cursorField ← text.optional.defaulted none es "cursor_field"
  let initialCursor ← text.optional.defaulted none es "initial_cursor"
  let lookbackWindow ← text.optional.defaulted none es "lookback_window"
  let backfillStart ← text.optional.defaulted none es "backfill_start"
  let backfillEnd ← text.optional.defaulted none es "backfill_end"
  let syncOnStart ← boolean.defaulted false es "sync_on_start"
  match h : normalizeDatasetSyncCadence ((es.lookup "cadence").getD .null) with
  | none => none
  | some cadence => some ⟨source, strategy, cadence, cursorField, initialCursor, lookbackWindow, backfillStart,
      backfillEnd, syncOnStart, Extras.ofEntries syncNames es, normalized_of_cadence h⟩

/-! ## Columns and policies -/

variable {U T : Type}

def columnNames : List String :=
  ["id", "dataset_id", "workspace_id", "name", "data_type", "nullable", "description", "is_allowed", "is_computed",
    "expression", "ordinal_position", "created_at", "updated_at"]

/-- `DatasetColumnMetadata`, with identifiers and times -/
structure DatasetColumnMetadata (U T : Type) where
  id : U
  datasetId : U
  workspaceId : Option U
  name : String
  dataType : String
  nullable : Bool
  description : Option String
  isAllowed : Bool
  isComputed : Bool
  expression : Option String
  ordinalPosition : ℤ
  createdAt : Option T
  updatedAt : Option T
  extra : Extras columnNames

/-- `DatasetColumnRecord` -/
structure DatasetColumnRecord (U T : Type) where
  id : U
  datasetId : U
  workspaceId : Option U
  name : String
  dataType : String
  nullable : Bool
  ordinalPosition : ℤ
  description : Option String
  isAllowed : Bool
  isComputed : Bool
  expression : Option String
  createdAt : Option T
  updatedAt : Option T

/-- `value or other` of an integer -/
def intOr (value other : ℤ) : ℤ := if value = 0 then other else value

def fromDatasetColumnRecord (r : DatasetColumnRecord U T) : DatasetColumnMetadata U T where
  id := r.id
  datasetId := r.datasetId
  workspaceId := r.workspaceId
  name := r.name
  dataType := r.dataType
  nullable := r.nullable
  description := r.description
  isAllowed := r.isAllowed
  isComputed := r.isComputed
  expression := r.expression
  ordinalPosition := intOr r.ordinalPosition 0
  createdAt := r.createdAt
  updatedAt := r.updatedAt
  extra := .empty

def toDatasetColumnRecord (v : DatasetColumnMetadata U T) : DatasetColumnRecord U T where
  id := v.id
  datasetId := v.datasetId
  workspaceId := v.workspaceId
  name := v.name
  dataType := v.dataType
  nullable := v.nullable
  ordinalPosition := v.ordinalPosition
  description := v.description
  isAllowed := v.isAllowed
  isComputed := v.isComputed
  expression := v.expression
  createdAt := v.createdAt
  updatedAt := v.updatedAt

def policyNames : List String :=
  ["id", "dataset_id", "workspace_id", "max_rows_preview", "max_export_rows", "redaction_rules", "row_filters",
    "allow_dml", "created_at", "updated_at"]

/-- `DatasetPolicyMetadata` -/
structure DatasetPolicyMetadata (U T : Type) where
  id : Option U
  datasetId : Option U
  workspaceId : Option U
  maxRowsPreview : ℤ
  maxExportRows : ℤ
  redactionRules : Dict String String
  rowFilters : List String
  allowDml : Bool
  createdAt : Option T
  updatedAt : Option T
  extra : Extras policyNames

/-- `DatasetPolicyRecord` -/
structure DatasetPolicyRecord (U T : Type) where
  id : Option U
  datasetId : Option U
  workspaceId : Option U
  maxRowsPreview : ℤ
  maxExportRows : ℤ
  redactionRulesJson : Dict String String
  rowFiltersJson : List String
  allowDml : Bool
  createdAt : Option T
  updatedAt : Option T

def fromDatasetPolicyRecord (r : DatasetPolicyRecord U T) : DatasetPolicyMetadata U T where
  id := r.id
  datasetId := r.datasetId
  workspaceId := r.workspaceId
  maxRowsPreview := intOr r.maxRowsPreview 1000
  maxExportRows := intOr r.maxExportRows 10000
  redactionRules := r.redactionRulesJson
  rowFilters := r.rowFiltersJson
  allowDml := r.allowDml
  createdAt := r.createdAt
  updatedAt := r.updatedAt
  extra := .empty

def toDatasetPolicyRecord (v : DatasetPolicyMetadata U T) : DatasetPolicyRecord U T where
  id := v.id
  datasetId := v.datasetId
  workspaceId := v.workspaceId
  maxRowsPreview := v.maxRowsPreview
  maxExportRows := v.maxExportRows
  redactionRulesJson := v.redactionRules
  rowFiltersJson := v.rowFilters
  allowDml := v.allowDml
  createdAt := v.createdAt
  updatedAt := v.updatedAt

/-! ## Datasets -/

def datasetNames : List String :=
  ["id", "workspace_id", "connection_id", "owner_id", "created_by", "updated_by", "name", "sql_alias", "description",
    "tags", "dataset_type", "materialization_mode", "source", "sync", "source_kind", "connector_kind", "storage_kind",
    "dialect", "catalog_name", "schema_name", "table_name", "storage_uri", "sql_text", "relation_identity",
    "execution_capabilities", "referenced_dataset_ids", "federated_plan", "file_config", "status", "revision_id",
    "row_count_estimate", "bytes_estimate", "last_profiled_at", "columns", "policy", "created_at", "updated_at",
    "management_mode", "lifecycle_state"]

/-- `dict[str, Any]` -/
abbrev AnyMap := List (String × AnyValue)

/-- the fields of `DatasetMetadata` -/
structure DatasetFields (U T : Type) where
  id : U
  workspaceId : U
  connectionId : Option U
  ownerId : Option U
  createdBy : Option U
  updatedBy : Option U
  name : String
  sqlAlias : String
  description : Option String
  tags : List String
  datasetType : DatasetType
  materializationMode : DatasetMaterializationMode
  source : Option DatasetSource
  sync : Option DatasetSyncConfig
  sourceKind : Option DatasetSourceKind
  connectorKind : Option String
  storageKind : Option DatasetStorageKind
  dialect : Option String
  catalogName : Option String
  schemaName : Option String
  tableName : Option String
  storageUri : Option String
  sqlText : Option String
  relationIdentity : Option AnyMap
  executionCapabilities : Option AnyMap
  referencedDatasetIds : List AnyValue
  federatedPlan : Option AnyMap
  fileConfig : Option AnyMap
  status : DatasetStatus
  revisionId : Option U
  rowCountEstimate : Option ℤ
  bytesEstimate : Option ℤ
  lastProfiledAt : Option T
  columns : List (DatasetColumnMetadata U T)
  policy : Option (DatasetPolicyMetadata U T)
  createdAt : Option T
  updatedAt : Option T
  managementMode : ManagementMode
  lifecycleState : LifecycleState
  extra : Extras datasetNames

/-- `_validate_materialization_contract` -/
def DatasetFields.contract (v : DatasetFields U T) : Bool :=
  match v.materializationMode with
  | .live => v.source.isSome && v.sync.isNone
  | .synced => v.sync.isSome && v.source.isNone

/-- `DatasetMetadata` -/
structure DatasetMetadata (U T : Type) extends DatasetFields U T where
  valid : toDatasetFields.contract = true

/-- `DatasetRecord`, with the rows that its relationships load -/
structure DatasetRecord (U T : Type) where
  id : U
  workspaceId : U
  connectionId : Option U
  createdByActorId : Option U
  updatedByActorId : Option U
  name : String
  sqlAlias : String
  description : Option String
  tagsJson : List String
  datasetType : String
  materializationMode : Option String
  sourceJson : Option (List (String × Json))
  syncJson : Option (List (String × Json))
  sourceKind : Option String
  connectorKind : Option String
  storageKind : Option String
  dialect : Option String
  catalogName : Option String
  schemaName : Option String
  tableName : Option String
  storageUri : Option String
  sqlText : Option String
  relationIdentityJson : Option AnyMap
  executionCapabilitiesJson : Option AnyMap
  referencedDatasetIdsJson : List String
  federatedPlanJson : Option AnyMap
  fileConfigJson : Option AnyMap
  status : String
  revisionId : Option U
  rowCountEstimate : Option ℤ
  bytesEstimate : Option ℤ
  lastProfiledAt : Option T
  managementMode : String
  lifecycleState : String
  createdAt : Option T
  updatedAt : Option T
  columns : List (DatasetColumnRecord U T)
  policy : Option (DatasetPolicyRecord U T)

def inferDatasetRecordMaterializationMode (r : DatasetRecord U T) : String :=
  match r.materializationMode.filter (· ≠ "") with
  | some explicit => explicit
  | none => if r.syncJson.getD [] = [] then "live" else "synced"

/-- the keys of a file's configuration that its source takes -/
def fileKeys : List String := ["format", "file_format", "header", "delimiter", "quote"]

def inferDatasetRecordSource (r : DatasetRecord U T) (mode : String) : Option (List (String × Json)) :=
  match r.sourceJson.filter (·.length ≠ 0) with
  | some explicit => some explicit
  | none =>
    let storageUri := strip (r.storageUri.getD "")
    let sqlText := strip (r.sqlText.getD "")
    let tableName := strip (r.tableName.getD "")
    if norm mode = "synced" then none
    else if storageUri ≠ "" then
      some (("storage_uri", .str storageUri) :: fileKeys.filterMap fun key =>
        ((((r.fileConfigJson.getD []).lookup key).map AnyValue.dump).filter fun v => !v.isNull).map fun v => (key, v))
    else if sqlText ≠ "" then some [("sql", .str sqlText)]
    else if tableName ≠ "" then some [("table", .str tableName)]
    else none

/-- a validator of an optional field: `None` stays -/
def validated {α β : Type} (f : α → Option β) : Option α → Option (Option β)
  | none => some none
  | some a => (f a).map some

/-- `from_dataset_record`, where the record has no `owner_id`, `tags`, `source` and the like of its own -/
def fromDatasetRecord (r : DatasetRecord U T) : Option (DatasetMetadata U T) := do
  let mode := inferDatasetRecordMaterializationMode r
  let type ← (normalizeEnumValue datasetType (some r.datasetType)).join
  let materialization ← (normalizeEnumValue materializationMode (some mode)).join
  let source ← validated DatasetSource.validate (inferDatasetRecordSource r mode)
  let sync ← validated DatasetSyncConfig.validate r.syncJson
  let kind ← normalizeEnumValue sourceKind r.sourceKind
  let storage ← normalizeEnumValue storageKind r.storageKind
  let status ← normalizeEnumValue datasetStatus (some r.status)
  let management ← memberOf managementMode r.managementMode
  let lifecycle ← memberOf lifecycleState r.lifecycleState
  let v : DatasetFields U T :=
    { id := r.id
      workspaceId := r.workspaceId
      connectionId := r.connectionId
      ownerId := r.createdByActorId
      createdBy := r.createdByActorId
      updatedBy := r.updatedByActorId
      name := r.name
      sqlAlias := r.sqlAlias
      description := r.description
      tags := r.tagsJson
      datasetType := type
      materializationMode := materialization
      source := source
      sync := sync
      sourceKind := kind
      connectorKind := r.connectorKind
      storageKind := storage
      dialect := r.dialect
      catalogName := r.catalogName
      schemaName := r.schemaName
      tableName := r.tableName
      storageUri := r.storageUri
      sqlText := r.sqlText
      relationIdentity := r.relationIdentityJson
      executionCapabilities := r.executionCapabilitiesJson
      referencedDatasetIds := r.referencedDatasetIdsJson.map .str
      federatedPlan := r.federatedPlanJson
      fileConfig := r.fileConfigJson
      status := status.getD .published
      revisionId := r.revisionId
      rowCountEstimate := r.rowCountEstimate
      bytesEstimate := r.bytesEstimate
      lastProfiledAt := r.lastProfiledAt
      columns := r.columns.map fromDatasetColumnRecord
      policy := r.policy.map fromDatasetPolicyRecord
      createdAt := r.createdAt
      updatedAt := r.updatedAt
      managementMode := management
      lifecycleState := lifecycle
      extra := .empty }
  if h : v.contract = true then some ⟨v, h⟩ else none

def itemText : AnyValue → String
  | .str s => s
  | .other _ text _ => text
  | v => v.dump.text

def toDatasetRecord (v : DatasetMetadata U T) : DatasetRecord U T where
  id := v.id
  workspaceId := v.workspaceId
  connectionId := v.connectionId
  createdByActorId := v.createdBy
  updatedByActorId := v.updatedBy
  name := v.name
  sqlAlias := v.sqlAlias
  description := v.description
  tagsJson := v.tags
  datasetType := datasetType.value v.datasetType
  materializationMode := some (materializationMode.value v.materializationMode)
  sourceJson := v.source.map DatasetSource.dump
  syncJson := v.sync.map DatasetSyncConfig.dump
  sourceKind := v.sourceKind.map sourceKind.value
  connectorKind := v.connectorKind
  storageKind := v.storageKind.map storageKind.value
  dialect := v.dialect
  catalogName := v.catalogName
  schemaName := v.schemaName
  tableName := v.tableName
  storageUri := v.storageUri
  sqlText := v.sqlText
  relationIdentityJson := v.relationIdentity
  executionCapabilitiesJson := v.executionCapabilities
  referencedDatasetIdsJson := v.referencedDatasetIds.map itemText
  federatedPlanJson := v.federatedPlan
  fileConfigJson := v.fileConfig
  status := datasetStatus.value v.status
  revisionId := v.revisionId
  rowCountEstimate := v.rowCountEstimate
  bytesEstimate := v.bytesEstimate
  lastProfiledAt := v.lastProfiledAt
  managementMode := managementMode.value v.managementMode
  lifecycleState := lifecycleState.value v.lifecycleState
  createdAt := v.createdAt
  updatedAt := v.updatedAt
  columns := []
  policy := none

/-! ## Members of enumerations come back -/

theorem normalizeEnumValue_value {α : Type} {e : PyEnum α} (h : e.Plain) (a : α) :
    normalizeEnumValue e (some (e.value a)) = some (some a) := by
  obtain ⟨hfind, hne, hchars⟩ := h a
  have hstrip : strip (e.value a) = e.value a := PyGraph.strip_graph _ fun c hc => (hchars c hc).1
  have hdot : '.' ∉ (e.value a).toList := fun hmem => (hchars '.' hmem).2.1 rfl
  have hcase : (if e.upperCase then PyCase.upper (e.value a) else lower (e.value a)) = e.value a := by
    cases hupper : e.upperCase with
    | true =>
      exact PyCase.upper_large _ fun c hc =>
        ⟨by have := (hchars c hc).1; omega, by simpa [hupper] using (hchars c hc).2.2⟩
    | false =>
      exact PySmall.lower_small _ fun c hc =>
        ⟨by have := (hchars c hc).1; omega, by simpa [hupper] using (hchars c hc).2.2⟩
  simp only [normalizeEnumValue, hstrip, if_neg hne, hdot, false_and, if_false, hcase, hfind, Option.map_some]

theorem memberOf_value {α : Type} {e : PyEnum α} (h : e.Plain) (hlower : e.upperCase = false) (a : α) :
    memberOf e (e.value a) = some a := by
  obtain ⟨hfind, -, hchars⟩ := h a
  have hcase : lower (e.value a) = e.value a := PySmall.lower_small _ fun c hc =>
    ⟨by have := (hchars c hc).1; omega, by simpa [hlower] using (hchars c hc).2.2⟩
  rw [memberOf, hcase, hfind]

/-- an optional member comes back -/
theorem normalizeEnumValue_map {α : Type} {e : PyEnum α} (h : e.Plain) (o : Option α) :
    normalizeEnumValue e (o.map e.value) = some o := by
  cases o with
  | none => rfl
  | some a => exact normalizeEnumValue_value h a

/-! ## What survives of sources and syncs -/

/-- a source as it comes back -/
def DatasetSource.read (s : DatasetSource) : DatasetSource where
  toSourceFields := { s.toSourceFields with extra := Extras.ofEntries sourceNames s.dump }
  valid := s.valid

theorem DatasetSource.validate_dump (s : DatasetSource) : DatasetSource.validate s.dump = some s.read := by
  have hkeys : (s.entries.map Prod.fst).Nodup := (by decide : sourceNames.Nodup)
  have hfield : ∀ {α : Type} (c : Codec α) (key : String), key ∈ sourceNames →
      c.optional.defaulted none s.dump key = c.optional.defaulted none s.entries key :=
    fun c key hkey => Extras.optional_dumpWith c hkeys s.extra hkey
  have htext := fun t => optional_reads text_reads text_neverNull t
  have hflag := fun b => optional_reads boolean_reads boolean_neverNull b
  have hlist := fun l => optional_reads (list_reads text_reads) (list_neverNull text) l
  simp only [Option.map_id, map_id_fun, id] at htext hflag hlist
  rw [DatasetSource.validate, hfield text "table" (by decide), hfield text "resource" (by decide),
    hfield text.list "flatten" (by decide), hfield text "sql" (by decide), hfield text "storage_uri" (by decide),
    hfield text "format" (by decide), hfield boolean "header" (by decide), hfield text "delimiter" (by decide),
    hfield text "quote" (by decide)]
  simp only [SourceFields.entries, defaulted_cons_self, defaulted_cons_of_ne, ne_eq, String.reduceEq,
    not_false_eq_true, htext, hflag, hlist]
  exact dif_pos s.valid

/-- **A source** survives its dump exactly when its undeclared attributes do. -/
theorem datasetSource_read_iff (s : DatasetSource) : s.read = s ↔ s.extra.Kept := by
  have hentries : ∀ e ∈ s.entries, e.1 ∈ sourceNames := fun e he => mem_map_of_mem (f := Prod.fst) he
  rw [← Extras.ofEntries_dumpWith_iff hentries s.extra]
  constructor
  · exact fun h => congrArg (·.extra) h
  · intro h
    simp only [DatasetSource.read, DatasetSource.dump, h]

/-- a sync as it comes back -/
def DatasetSyncConfig.read (s : DatasetSyncConfig) : DatasetSyncConfig :=
  { s with source := s.source.read, extra := Extras.ofEntries syncNames s.dump }

/-- a normalised cadence is read as it is, and `None` where it has been left out -/
theorem normalize_cadence (s : DatasetSyncConfig) :
    normalizeDatasetSyncCadence (((some (text.optional.dump s.cadence)).filter fun v => !v.isNull).getD .null) =
      some s.cadence := by
  cases hcadence : s.cadence with
  | none => exact if_pos PyText.norm_empty
  | some c =>
    obtain ⟨hnorm, hne, hform⟩ := s.normalized c hcadence
    have htext : ((Json.str c).orElse (.str "")).text = c := by
      rw [Json.orElse, if_pos (by simp [Json.truthy, hne])]
      rfl
    change normalizeDatasetSyncCadence (.str c) = _
    rw [normalizeDatasetSyncCadence, htext, hnorm, if_neg hne, if_pos hform]

theorem DatasetSyncConfig.validate_dump (s : DatasetSyncConfig) : DatasetSyncConfig.validate s.dump = some s.read := by
  have hkeys : (s.entries.map Prod.fst).Nodup := (by decide : syncNames.Nodup)
  have hfield : ∀ {α : Type} (c : Codec α) (key : String), key ∈ syncNames →
      c.optional.defaulted none s.dump key = c.optional.defaulted none s.entries key :=
    fun c key hkey => Extras.optional_dumpWith c hkeys s.extra hkey
  have hlookup : ∀ key ∈ syncNames, s.dump.lookup key = (s.entries.lookup key).filter fun v => !v.isNull :=
    fun key hkey => Extras.lookup_dumpWith hkeys s.extra hkey
  have htext := fun t => optional_reads text_reads text_neverNull t
  simp only [Option.map_id, id] at htext
  have hsource : (s.dump.lookup "source").bind syncSource = some s.source.read := by
    exact DatasetSource.validate_dump s.source
  have hstrategy : (s.dump.lookup "strategy").bind strategyOf = some s.strategy := by
    change (normalizeEnumValue syncStrategy (some (syncStrategy.value s.strategy))).join = _
    rw [normalizeEnumValue_value syncStrategy_plain]
    rfl
  have hstart : boolean.defaulted false s.dump "sync_on_start" = some s.syncOnStart := by
    rw [defaulted, hlookup "sync_on_start" (by decide)]
    rfl
  have hcadence : normalizeDatasetSyncCadence ((s.dump.lookup "cadence").getD .null) = some s.cadence := by
    rw [hlookup "cadence" (by decide)]
    exact normalize_cadence s
  rw [DatasetSyncConfig.validate, hsource, hstrategy, hstart, hfield text "cursor_field" (by decide),
    hfield text "initial_cursor" (by decide), hfield text "lookback_window" (by decide),
    hfield text "backfill_start" (by decide), hfield text "backfill_end" (by decide)]
  simp only [DatasetSyncConfig.entries, defaulted_cons_self, defaulted_cons_of_ne, ne_eq, String.reduceEq,
    not_false_eq_true, htext]
  split
  · rename_i hnone
    rw [hcadence] at hnone
    cases hnone
  · rename_i cadence hsome
    obtain rfl := Option.some.inj (hcadence.symm.trans hsome)
    rfl

/-- what survives of a sync's dump: the undeclared attributes of the sync and of its source -/
def DatasetSyncConfig.Kept (s : DatasetSyncConfig) : Prop := s.source.extra.Kept ∧ s.extra.Kept

/-- **A sync** survives its dump exactly when the undeclared attributes do. -/
theorem datasetSyncConfig_read_iff (s : DatasetSyncConfig) : s.read = s ↔ s.Kept := by
  have hentries : ∀ e ∈ s.entries, e.1 ∈ syncNames := fun e he => mem_map_of_mem (f := Prod.fst) he
  rw [DatasetSyncConfig.Kept, ← datasetSource_read_iff, ← Extras.ofEntries_dumpWith_iff hentries s.extra]
  constructor
  · exact fun h => ⟨congrArg (·.source) h, congrArg (·.extra) h⟩
  · rintro ⟨hsource, hextra⟩
    simp only [DatasetSyncConfig.read, DatasetSyncConfig.dump, hsource, hextra]

/-! ## What survives of columns and policies -/

omit [PyCase] in
theorem intOr_zero (value : ℤ) : intOr value 0 = value := by
  rw [intOr]
  split_ifs with h
  · exact h.symm
  · rfl

omit [PyCase] in
theorem fromColumn_toColumn_iff (v : DatasetColumnMetadata U T) :
    fromDatasetColumnRecord (toDatasetColumnRecord v) = v ↔ v.extra = .empty := by
  have hordinal : intOr v.ordinalPosition 0 = v.ordinalPosition := intOr_zero v.ordinalPosition
  constructor
  · exact fun h => (congrArg (·.extra) h).symm
  · intro h
    simp only [fromDatasetColumnRecord, toDatasetColumnRecord, hordinal, ← h]

omit [PyCase] in
theorem toColumn_fromColumn (r : DatasetColumnRecord U T) : toDatasetColumnRecord (fromDatasetColumnRecord r) = r := by
  have hordinal : intOr r.ordinalPosition 0 = r.ordinalPosition := intOr_zero r.ordinalPosition
  simp only [fromDatasetColumnRecord, toDatasetColumnRecord, hordinal]

/-- a policy that comes back: no limit is zero -/
def DatasetPolicyMetadata.Kept (v : DatasetPolicyMetadata U T) : Prop :=
  v.maxRowsPreview ≠ 0 ∧ v.maxExportRows ≠ 0 ∧ v.extra = .empty

omit [PyCase] in
theorem intOr_eq_iff {value other : ℤ} (h : other ≠ 0) : intOr value other = value ↔ value ≠ 0 := by
  rw [intOr]
  split_ifs with hzero
  · rw [hzero]
    exact iff_of_false h fun hne => hne rfl
  · exact iff_of_true rfl hzero

omit [PyCase] in
theorem fromPolicy_toPolicy_iff (v : DatasetPolicyMetadata U T) :
    fromDatasetPolicyRecord (toDatasetPolicyRecord v) = v ↔ v.Kept := by
  rw [DatasetPolicyMetadata.Kept, ← intOr_eq_iff (show (1000 : ℤ) ≠ 0 by decide),
    ← intOr_eq_iff (show (10000 : ℤ) ≠ 0 by decide)]
  constructor
  · exact fun h => ⟨congrArg (·.maxRowsPreview) h, congrArg (·.maxExportRows) h, (congrArg (·.extra) h).symm⟩
  · rintro ⟨hpreview, hexport, hextra⟩
    simp only [fromDatasetPolicyRecord, toDatasetPolicyRecord, hpreview, hexport, ← hextra]

omit [PyCase] in
theorem kept_fromPolicy (r : DatasetPolicyRecord U T) : (fromDatasetPolicyRecord r).Kept := by
  have hne : ∀ {value other : ℤ}, other ≠ 0 → intOr value other ≠ 0 := fun h => by
    rw [intOr]
    split_ifs with hzero
    · exact h
    · exact hzero
  exact ⟨hne (by decide), hne (by decide), rfl⟩

omit [PyCase] in
theorem toPolicy_fromPolicy_iff (r : DatasetPolicyRecord U T) :
    toDatasetPolicyRecord (fromDatasetPolicyRecord r) = r ↔ r.maxRowsPreview ≠ 0 ∧ r.maxExportRows ≠ 0 := by
  rw [← intOr_eq_iff (show (1000 : ℤ) ≠ 0 by decide), ← intOr_eq_iff (show (10000 : ℤ) ≠ 0 by decide)]
  constructor
  · exact fun h => ⟨congrArg (·.maxRowsPreview) h, congrArg (·.maxExportRows) h⟩
  · rintro ⟨hpreview, hexport⟩
    simp only [fromDatasetPolicyRecord, toDatasetPolicyRecord, hpreview, hexport]

/-! ## What survives of datasets -/

/-- the record with the rows that the stores of columns and policies write -/
def withRows (v : DatasetMetadata U T) : DatasetRecord U T :=
  { toDatasetRecord v with
    columns := v.columns.map toDatasetColumnRecord
    policy := v.policy.map toDatasetPolicyRecord }

/-- a dataset as it comes back, with what its relationships load -/
def DatasetMetadata.read (v : DatasetMetadata U T) (columns : List (DatasetColumnMetadata U T))
    (policy : Option (DatasetPolicyMetadata U T)) : DatasetMetadata U T where
  toDatasetFields :=
    { v.toDatasetFields with
      ownerId := v.createdBy
      source := v.source.map DatasetSource.read
      sync := v.sync.map DatasetSyncConfig.read
      referencedDatasetIds := (v.referencedDatasetIds.map itemText).map .str
      columns := columns
      policy := policy
      extra := .empty }
  valid := by simpa [DatasetFields.contract] using v.valid

theorem DatasetSource.dump_ne_nil (s : DatasetSource) : s.dump ≠ [] := by
  intro h
  have hread := s.validate_dump
  rw [h] at hread
  have hblank : hasText none = false := by rw [hasText, Option.getD_none, PyText.strip_empty]; rfl
  simp [DatasetSource.validate, SourceFields.check, hblank] at hread

theorem norm_mode (m : DatasetMaterializationMode) :
    norm (materializationMode.value m) = materializationMode.value m := by
  obtain ⟨-, -, hchars⟩ := materializationMode_plain m
  rw [PyText.norm, PyGraph.strip_graph _ fun c hc => (hchars c hc).1]
  exact PySmall.lower_small _ fun c hc => ⟨by have := (hchars c hc).1; omega, (hchars c hc).2.2⟩

/-- the source of a live dataset is the one it has, and a synced one has none -/
theorem inferSource_toRecord (v : DatasetMetadata U T) (columns : List (DatasetColumnRecord U T))
    (policy : Option (DatasetPolicyRecord U T)) :
    validated DatasetSource.validate (inferDatasetRecordSource
        { toDatasetRecord v with columns := columns, policy := policy }
        (materializationMode.value v.materializationMode)) = some (v.source.map DatasetSource.read) := by
  have hvalid := v.valid
  rw [DatasetFields.contract] at hvalid
  cases hsource : v.source with
  | some s =>
    have hjson : (toDatasetRecord v).sourceJson = some s.dump := congrArg (Option.map DatasetSource.dump) hsource
    rw [inferDatasetRecordSource]
    simp only [hjson]
    rw [Option.filter_some_pos (by simpa using s.dump_ne_nil)]
    exact congrArg (Option.map some) s.validate_dump
  | none =>
    have hjson : (toDatasetRecord v).sourceJson = none := congrArg (Option.map DatasetSource.dump) hsource
    have hmode : v.materializationMode = .synced := by
      cases hmode : v.materializationMode with
      | live => simp [hmode, hsource] at hvalid
      | synced => rfl
    rw [inferDatasetRecordSource]
    simp only [hjson, Option.filter_none, norm_mode, hmode]
    rfl

/-- **What comes back** of a dataset, whatever rows its relationships load. -/
theorem fromRecord_toRecord (v : DatasetMetadata U T) (columns : List (DatasetColumnRecord U T))
    (policy : Option (DatasetPolicyRecord U T)) :
    fromDatasetRecord { toDatasetRecord v with columns := columns, policy := policy } =
      some (v.read (columns.map fromDatasetColumnRecord) (policy.map fromDatasetPolicyRecord)) := by
  have hmode : inferDatasetRecordMaterializationMode { toDatasetRecord v with columns := columns, policy := policy } =
      materializationMode.value v.materializationMode := by
    rw [inferDatasetRecordMaterializationMode]
    have hexplicit : (toDatasetRecord v).materializationMode =
        some (materializationMode.value v.materializationMode) := rfl
    simp only [hexplicit]
    rw [Option.filter_some_pos (by simpa using (materializationMode_plain v.materializationMode).2.1)]
  have hsync : validated DatasetSyncConfig.validate (toDatasetRecord v).syncJson =
      some (v.sync.map DatasetSyncConfig.read) := by
    change validated _ (v.sync.map DatasetSyncConfig.dump) = _
    cases v.sync with
    | none => rfl
    | some s => exact congrArg (Option.map some) s.validate_dump
  have htype : normalizeEnumValue datasetType (some (toDatasetRecord v).datasetType) = some (some v.datasetType) :=
    normalizeEnumValue_value datasetType_plain _
  have hkind : normalizeEnumValue sourceKind (toDatasetRecord v).sourceKind = some v.sourceKind :=
    normalizeEnumValue_map sourceKind_plain _
  have hstorage : normalizeEnumValue storageKind (toDatasetRecord v).storageKind = some v.storageKind :=
    normalizeEnumValue_map storageKind_plain _
  have hstatus : normalizeEnumValue datasetStatus (some (toDatasetRecord v).status) = some (some v.status) :=
    normalizeEnumValue_value datasetStatus_plain _
  have hmanagement : memberOf managementMode (toDatasetRecord v).managementMode = some v.managementMode :=
    memberOf_value managementMode_plain rfl _
  have hlifecycle : memberOf lifecycleState (toDatasetRecord v).lifecycleState = some v.lifecycleState :=
    memberOf_value lifecycleState_plain rfl _
  rw [fromDatasetRecord]
  simp only [hmode, inferSource_toRecord, hsync, htype, hkind, hstorage, hstatus, hmanagement, hlifecycle,
    normalizeEnumValue_value materializationMode_plain]
  exact dif_pos (v.read (columns.map fromDatasetColumnRecord) (policy.map fromDatasetPolicyRecord)).valid

/-- a dataset whose own fields come back -/
structure DatasetMetadata.Kept (v : DatasetMetadata U T) : Prop where
  owner : v.ownerId = v.createdBy
  source : ∀ s, v.source = some s → s.extra.Kept
  sync : ∀ s, v.sync = some s → s.Kept
  references : ∀ item ∈ v.referencedDatasetIds, AnyValue.str (itemText item) = item
  extra : v.extra = .empty

omit [PyCase] in
theorem map_eq_self_iff {α : Type} (f : α → α) (o : Option α) : o.map f = o ↔ ∀ a, o = some a → f a = a := by
  cases o with
  | none => simp
  | some a => simp

theorem DatasetMetadata.eq_of_fields {v w : DatasetMetadata U T} (h : v.toDatasetFields = w.toDatasetFields) :
    v = w := by
  cases v
  congr

theorem owned_by_creator {f : DatasetFields U T} (howner : f.ownerId = f.createdBy) (hextra : f.extra = .empty) :
    { f with ownerId := f.createdBy, extra := .empty } = f := by
  cases f
  cases howner
  cases hextra
  rfl

theorem read_eq_iff (v : DatasetMetadata U T) (columns : List (DatasetColumnMetadata U T))
    (policy : Option (DatasetPolicyMetadata U T)) :
    v.read columns policy = v ↔ v.Kept ∧ columns = v.columns ∧ policy = v.policy := by
  have hsource := map_eq_self_iff DatasetSource.read v.source
  have hsync := map_eq_self_iff DatasetSyncConfig.read v.sync
  simp only [datasetSource_read_iff, datasetSyncConfig_read_iff] at hsource hsync
  have hitems : (v.referencedDatasetIds.map itemText).map .str = v.referencedDatasetIds ↔
      ∀ item ∈ v.referencedDatasetIds, AnyValue.str (itemText item) = item := by
    rw [List.map_map]
    conv_lhs => rhs; rw [← List.map_id v.referencedDatasetIds]
    exact map_inj_left
  constructor
  · intro h
    refine ⟨⟨(congrArg (·.ownerId) h).symm, hsource.1 (congrArg (·.source) h), hsync.1 (congrArg (·.sync) h),
      hitems.1 (congrArg (·.referencedDatasetIds) h), (congrArg (·.extra) h).symm⟩,
      congrArg (·.columns) h, congrArg (·.policy) h⟩
  · rintro ⟨h, rfl, rfl⟩
    refine DatasetMetadata.eq_of_fields ?_
    simp only [DatasetMetadata.read, hsource.2 h.source, hsync.2 h.sync, hitems.2 h.references]
    exact owned_by_creator h.owner h.extra

/-! ## What survives of records -/

/-- no undeclared attribute of a mapping is `None` -/
def NullFree (names : List String) (es : List (String × Json)) : Prop := ∀ e ∈ es, e.1 ∉ names → e.2.isNull = false

theorem extra_of_validate {es : List (String × Json)} {s : DatasetSource} (h : DatasetSource.validate es = some s) :
    s.extra = Extras.ofEntries sourceNames es := by
  iterate 9 obtain ⟨_, -, h⟩ := Option.bind_eq_some_iff.1 h
  dsimp only at h
  split_ifs at h
  exact Option.some.inj h ▸ rfl

theorem extra_of_syncValidate {es : List (String × Json)} {s : DatasetSyncConfig}
    (h : DatasetSyncConfig.validate es = some s) :
    s.extra = Extras.ofEntries syncNames es ∧ (es.lookup "source").bind syncSource = some s.source := by
  obtain ⟨source, hsource, h⟩ := Option.bind_eq_some_iff.1 h
  iterate 7 obtain ⟨_, -, h⟩ := Option.bind_eq_some_iff.1 h
  split at h
  · cases h
  · cases h
    exact ⟨rfl, hsource⟩

omit [PyCase] in
theorem validated_some {α β : Type} {f : α → Option β} {o : Option α} {a : α} {r : Option β}
    (h : validated f o = some r) (ho : o = some a) : ∃ b, f a = some b ∧ r = some b := by
  subst ho
  obtain ⟨b, hb, rfl⟩ := Option.map_eq_some_iff.1 h
  exact ⟨b, hb, rfl⟩

omit [PyCase] in
theorem some_of_validated {α β : Type} {f : α → Option β} {o : Option α} {b : β} {r : Option β}
    (h : validated f o = some r) (hr : r = some b) : ∃ a, o = some a ∧ f a = some b := by
  subst hr
  cases o with
  | none => cases h
  | some a =>
    obtain ⟨b', hb, heq⟩ := Option.map_eq_some_iff.1 h
    cases heq
    exact ⟨a, rfl, hb⟩

/-- a record's source and sync have no undeclared attribute that is `None` -/
structure DatasetRecord.Kept (r : DatasetRecord U T) : Prop where
  source : ∀ es, inferDatasetRecordSource r (inferDatasetRecordMaterializationMode r) = some es →
    NullFree sourceNames es
  sync : ∀ es, r.syncJson = some es → NullFree syncNames es ∧
    ∀ source, es.lookup "source" = some (.obj source) → NullFree sourceNames source

/-- a record is read with the creator as the owner, and references as texts -/
theorem kept_of_fromRecord {r : DatasetRecord U T} {v : DatasetMetadata U T} (h : fromDatasetRecord r = some v) :
    (v.Kept ↔ r.Kept) ∧ v.columns = r.columns.map fromDatasetColumnRecord ∧
      v.policy = r.policy.map fromDatasetPolicyRecord := by
  iterate 2 obtain ⟨_, -, h⟩ := Option.bind_eq_some_iff.1 h
  obtain ⟨source, hsource, h⟩ := Option.bind_eq_some_iff.1 h
  obtain ⟨sync, hsync, h⟩ := Option.bind_eq_some_iff.1 h
  iterate 5 obtain ⟨_, -, h⟩ := Option.bind_eq_some_iff.1 h
  dsimp only at h
  split_ifs at h
  cases h
  refine ⟨⟨fun hv => ⟨?_, ?_⟩, fun hr => ⟨rfl, ?_, ?_, ?_, rfl⟩⟩, rfl, rfl⟩
  · intro es hes
    obtain ⟨s, hs, rfl⟩ := validated_some hsource hes
    have hkept := hv.source s rfl
    rwa [extra_of_validate hs, Extras.kept_ofEntries_iff] at hkept
  · intro es hes
    obtain ⟨s, hs, rfl⟩ := validated_some hsync hes
    obtain ⟨hextra, hof⟩ := extra_of_syncValidate hs
    obtain ⟨hkept, hown⟩ := hv.sync s rfl
    rw [hextra, Extras.kept_ofEntries_iff] at hown
    refine ⟨hown, fun source hlookup => ?_⟩
    rw [hlookup] at hof
    rwa [extra_of_validate hof, Extras.kept_ofEntries_iff] at hkept
  · intro s hs
    obtain ⟨es, hes, hvalid⟩ := some_of_validated hsource hs
    rw [extra_of_validate hvalid, Extras.kept_ofEntries_iff]
    exact hr.source es hes
  · intro s hs
    obtain ⟨es, hes, hvalid⟩ := some_of_validated hsync hs
    obtain ⟨hextra, hof⟩ := extra_of_syncValidate hvalid
    obtain ⟨hown, hsourceFree⟩ := hr.sync es hes
    obtain ⟨source, hlookup, hof⟩ := Option.bind_eq_some_iff.1 hof
    cases source with
    | obj fields =>
      refine ⟨?_, ?_⟩
      · rw [extra_of_validate hof, Extras.kept_ofEntries_iff]
        exact hsourceFree fields hlookup
      · rw [hextra, Extras.kept_ofEntries_iff]
        exact hown
    | _ => cases hof
  · intro item hitem
    obtain ⟨text, -, rfl⟩ := mem_map.1 hitem
    rfl

/-- a dataset whose row is loaded alone -/
theorem fromRecord_toRecord_iff (v : DatasetMetadata U T) :
    fromDatasetRecord (toDatasetRecord v) = some v ↔ v.Kept ∧ v.columns = [] ∧ v.policy = none := by
  have hback := fromRecord_toRecord v [] none
  change fromDatasetRecord (toDatasetRecord v) = _ at hback
  rw [hback, Option.some.injEq, read_eq_iff]
  simp only [map_nil, Option.map_none, eq_comm]

/-- a dataset whose row is loaded with the rows of its columns and of its policy -/
theorem fromRecord_withRows_iff (v : DatasetMetadata U T) :
    fromDatasetRecord (withRows v) = some v ↔
      v.Kept ∧ (∀ c ∈ v.columns, c.extra = .empty) ∧ ∀ p, v.policy = some p → p.Kept := by
  have hcolumns : (v.columns.map toDatasetColumnRecord).map fromDatasetColumnRecord = v.columns ↔
      ∀ c ∈ v.columns, c.extra = .empty := by
    rw [List.map_map]
    conv_lhs => rhs; rw [← List.map_id v.columns]
    rw [map_inj_left]
    exact forall₂_congr fun c _ => fromColumn_toColumn_iff c
  have hpolicy : (v.policy.map toDatasetPolicyRecord).map fromDatasetPolicyRecord = v.policy ↔
      ∀ p, v.policy = some p → p.Kept := by
    rw [Option.map_map, map_eq_self_iff]
    exact forall₂_congr fun p _ => fromPolicy_toPolicy_iff p
  rw [withRows, fromRecord_toRecord, Option.some.injEq, read_eq_iff, hcolumns, hpolicy]

/-- **Mapped and back.** A column comes back unless it has undeclared attributes, and its row always does. A policy
comes back when in addition no limit is zero, and so does its row. A dataset comes back, with the rows of its columns
and of its policy, exactly when its owner is its creator, its references are texts, and no undeclared attribute is
lost. A row that can be read is read as the same value after the way there and back exactly when its source and sync
have no undeclared `None`. -/
theorem mapped_back_iff :
    (∀ v : DatasetColumnMetadata U T, fromDatasetColumnRecord (toDatasetColumnRecord v) = v ↔ v.extra = .empty) ∧
    (∀ r : DatasetColumnRecord U T, toDatasetColumnRecord (fromDatasetColumnRecord r) = r) ∧
    (∀ v : DatasetPolicyMetadata U T, fromDatasetPolicyRecord (toDatasetPolicyRecord v) = v ↔ v.Kept) ∧
    (∀ r : DatasetPolicyRecord U T, toDatasetPolicyRecord (fromDatasetPolicyRecord r) = r ↔
      r.maxRowsPreview ≠ 0 ∧ r.maxExportRows ≠ 0) ∧
    (∀ v : DatasetMetadata U T, fromDatasetRecord (toDatasetRecord v) = some v ↔
      v.Kept ∧ v.columns = [] ∧ v.policy = none) ∧
    (∀ v : DatasetMetadata U T, fromDatasetRecord (withRows v) = some v ↔
      v.Kept ∧ (∀ c ∈ v.columns, c.extra = .empty) ∧ ∀ p, v.policy = some p → p.Kept) ∧
    (∀ (r : DatasetRecord U T) (v : DatasetMetadata U T), fromDatasetRecord r = some v →
      ((fromDatasetRecord (toDatasetRecord v) = fromDatasetRecord r ↔ r.Kept ∧ r.columns = [] ∧ r.policy = none) ∧
        (fromDatasetRecord (withRows v) = fromDatasetRecord r ↔ r.Kept))) := by
  refine ⟨fromColumn_toColumn_iff, toColumn_fromColumn, fromPolicy_toPolicy_iff, toPolicy_fromPolicy_iff,
    fromRecord_toRecord_iff, fromRecord_withRows_iff, fun r v h => ?_⟩
  obtain ⟨hkept, hcolumns, hpolicy⟩ := kept_of_fromRecord h
  have hplain : ∀ c ∈ v.columns, c.extra = .empty := by
    rw [hcolumns]
    exact forall_mem_map.2 fun _ _ => rfl
  have hlimits : ∀ p, v.policy = some p → p.Kept := by
    intro p hp
    rw [hpolicy] at hp
    obtain ⟨row, -, rfl⟩ := Option.map_eq_some_iff.1 hp
    exact kept_fromPolicy row
  rw [h, fromRecord_toRecord_iff, fromRecord_withRows_iff, hkept, hcolumns, hpolicy, map_eq_nil_iff,
    Option.map_eq_none_iff, ← hcolumns, ← hpolicy]
  exact ⟨Iff.rfl, and_iff_left ⟨hplain, hlimits⟩⟩

end Records

section Witness

open scoped Ascii

/-- a table of orders, read live -/
def ordersSource : DatasetSource where
  table := some "orders"
  resource := none
  flatten := none
  sql := none
  storageUri := none
  format := none
  header := none
  delimiter := none
  quote := none
  extra := .empty
  valid := by decide

def orders (owner creator : ℕ) : DatasetMetadata ℕ ℕ where
  id := 1
  workspaceId := 7
  connectionId := some 3
  ownerId := some owner
  createdBy := some creator
  updatedBy := none
  name := "orders"
  sqlAlias := "orders"
  description := none
  tags := ["sales"]
  datasetType := .table
  materializationMode := .live
  source := some ordersSource
  sync := none
  sourceKind := some .database
  connectorKind := some "postgres"
  storageKind := some .table
  dialect := none
  catalogName := none
  schemaName := none
  tableName := some "orders"
  storageUri := none
  sqlText := none
  relationIdentity := none
  executionCapabilities := none
  referencedDatasetIds := []
  federatedPlan := none
  fileConfig := none
  status := .published
  revisionId := none
  rowCountEstimate := some 20
  bytesEstimate := none
  lastProfiledAt := none
  columns := []
  policy := none
  createdAt := some 100
  updatedAt := some 100
  managementMode := .runtimeManaged
  lifecycleState := .active
  extra := .empty
  valid := rfl

/-- a dataset that its creator owns comes back, and so does its row -/
theorem own_orders :
    fromDatasetRecord (toDatasetRecord (orders 5 5)) = some (orders 5 5) ∧
      (fromDatasetRecord (withRows (orders 5 5)) = fromDatasetRecord (toDatasetRecord (orders 5 5)) ↔
        (toDatasetRecord (orders 5 5)).Kept) := by
  have hkept : (orders 5 5).Kept :=
    { owner := rfl
      source := fun s hs => by
        cases hs
        exact ⟨rfl, fun _ he => nomatch he⟩
      sync := fun _ hs => by cases hs
      references := fun _ hitem => nomatch hitem
      extra := rfl }
  obtain ⟨-, -, -, -, halone, -, hrows⟩ := mapped_back_iff (U := ℕ) (T := ℕ)
  have hback := (halone (orders 5 5)).2 ⟨hkept, rfl, rfl⟩
  exact ⟨hback, (hrows _ _ hback).2⟩

/-- **The owner of another's dataset** is lost: the row holds the creator alone. -/
theorem owner_lost :
    (fromDatasetRecord (toDatasetRecord (orders 5 6))).map (·.ownerId) = some (some 6) ∧
      fromDatasetRecord (toDatasetRecord (orders 5 6)) ≠ some (orders 5 6) := by
  have howner : (fromDatasetRecord (toDatasetRecord (orders 5 6))).map (·.ownerId) = some (some 6) := by decide +kernel
  refine ⟨howner, fun h => ?_⟩
  rw [h] at howner
  exact absurd howner (by decide)

end Witness

end Langbridge.Runtime.Records
