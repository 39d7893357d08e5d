/-
The workflow of a federated dataset (`runtime/services/dataset_execution.py`). The tables of the plan are bound first,
each under its own key, then the referenced datasets that no table of the plan has taken, each under the key of its
schema and table. A child whose binding is refused is left out; a child that is missing ends the build.
-/
import Langbridge.Federation.Workflow
import Langbridge.Runtime.SqlGuards
import Langbridge.Runtime.VectorIndexNames

namespace Langbridge.Runtime.FederatedDatasets

open Core Federation List Dict PyText
open Federation.Workflow (Uuid VirtualRelationship)

/-! ## Datasets -/

inductive DatasetType where
  | table
  | sql
  | api
  | file
  | federated
deriving DecidableEq

/-- `DatasetSourceKind` -/
inductive SourceKind where
  | database
  | saas
  | api
  | file
  | virtual

/-- `DatasetStorageKind` -/
inductive StorageKind where
  | table
  | memory
  | parquet
  | csv
  | json
  | view
  | virtual

def SourceKind.value : SourceKind → String
  | database => "database"
  | saas => "saas"
  | api => "api"
  | file => "file"
  | virtual => "virtual"

def StorageKind.value : StorageKind → String
  | table => "table"
  | memory => "memory"
  | parquet => "parquet"
  | csv => "csv"
  | json => "json"
  | view => "view"
  | virtual => "virtual"

/-- what is read of `DatasetSource` -/
structure DatasetSource where
  table : Option String
  resource : Option String
  flatten : Option (List String)
  sql : Option String

/-- live datasets have a source and no sync configuration, synced ones the other way round -/
inductive Contents where
  | live (source : DatasetSource)
  | synced (source : DatasetSource)

/-- what is read of `DatasetMetadata` -/
structure DatasetRecord where
  id : Uuid
  workspaceId : Uuid
  connectionId : Option Uuid
  name : String
  datasetType : DatasetType
  contents : Contents
  sourceKind : Option SourceKind
  storageKind : Option StorageKind
  dialect : Option String
  catalogName : Option String
  schemaName : Option String
  tableName : Option String
  storageUri : Option String
  sqlText : Option String
  fileConfig : Dict String Json
  referencedDatasetIds : List Json
  federatedPlan : Dict String Json
  revisionId : Option Uuid

def hexPrefix (u : Uuid) (n : ℕ) : String := String.ofList ((u.text.toList.filter (· ≠ '-')).take n)

/-- an `ExecutionValidationError`, or another exception -/
inductive BuildError where
  | validation (message : String)
  | other (message : String)

/-- what the resolver is given: the two stores, either of which may be missing, `uuid.UUID(text)`, sqlglot and
`build_dataset_relation_identity` -/
structure Resolver [PyText] where
  datasetProvider : Option (Uuid → Uuid → Option DatasetRecord)
  datasetRepository : Option (Uuid → Uuid → Option DatasetRecord)
  uuidOf : String → Option Uuid
  sql : SqlGuards.SqlParser
  relationIdentity : DatasetRecord → Dict String Json

/-! ## Reading mappings -/

/-- `mapping.get(key)` -/
def get (fields : Dict String Json) (key : String) : Json := (fields.get? key).getD .null

/-- `mapping.get(k1) or mapping.get(k2) or ... or dflt` -/
def firstOf (fields : Dict String Json) (keys : List String) (dflt : Json) : Json :=
  keys.foldr (fun key rest => (get fields key).orElse rest) dflt

section Resolve

variable [PyText]

/-- `str(value or "").strip()` -/
def trimmed (value : Json) : String := strip (value.orElse (.str "")).text

/-- `value or None` for a text -/
def nonempty (s : String) : Option String := if s = "" then none else some s

def stringOrNone (value : Json) : Option String := nonempty (trimmed value)

/-- `dict(value)` of a mapping -/
def mapping? : Json → Option (Dict String Json)
  | .obj fields => some (Dict.ofList fields)
  | _ => none

def normalizePlanTables : Json → Dict String (Dict String Json)
  | .obj tables => Dict.ofList (tables.filterMap fun e => (mapping? e.2).map fun fields => (e.1, fields))
  | .arr items => Dict.ofList (items.zipIdx.filterMap fun e =>
      (mapping? e.1).bind fun fields =>
        let tableKey := strip
          (firstOf fields ["table_key", "tableKey", "name"] (.str ("dataset_" ++ toString (e.2 + 1)))).text
        if tableKey = "" then none else some (tableKey, fields))
  | _ => Dict.empty

def parseRelationship (item : Dict String Json) : Option VirtualRelationship :=
  let leftTable := firstOf item ["left_table", "leftTable", "source_dataset"] (get item "sourceDataset")
  let rightTable := firstOf item ["right_table", "rightTable", "target_dataset"] (get item "targetDataset")
  let sourceField := firstOf item ["source_field"] (get item "sourceField")
  let targetField := firstOf item ["target_field"] (get item "targetField")
  let operator := firstOf item ["operator"] (.str "=")
  let declared := firstOf item ["condition"] (get item "on")
  let condition :=
    if !declared.truthy && leftTable.truthy && rightTable.truthy && sourceField.truthy && targetField.truthy then
      .str (leftTable.text ++ "." ++ sourceField.text ++ " " ++ operator.text ++ " " ++ rightTable.text ++ "." ++
        targetField.text)
    else declared
  if leftTable.truthy && rightTable.truthy && condition.truthy then
    some {
      name := (firstOf item ["name"] (.str (leftTable.text ++ "_to_" ++ rightTable.text))).text
      leftTable := leftTable.text
      rightTable := rightTable.text
      joinType := (firstOf item ["join_type", "joinType", "type"] (.str "inner")).text
      condition := condition.text
    }
  else none

def parseRelationships : Json → List VirtualRelationship
  | .arr items => items.filterMap fun item => (mapping? item).bind parseRelationship
  | _ => []

/-! ## Binding one dataset -/

def materializationMode (d : DatasetRecord) : String :=
  match d.contents with
  | .live _ => "live"
  | .synced _ => "synced"

def logicalTable (d : DatasetRecord) (logicalTableName : Option String) : String :=
  let candidate := strip (((logicalTableName.bind nonempty).orElse fun _ => d.tableName).getD "")
  if candidate ≠ "" then candidate
  else
    let name := strip (if d.name = "" then "dataset" else d.name)
    let base := String.ofList (trim (· = '_') (VectorIndex.subUnsafe false name.toList))
    if base ≠ "" then lower base else "dataset_" ++ hexPrefix d.id 8

/-- `_logical_schema_name` -/
def logicalSchema (d : DatasetRecord) (given : Option String) : Option String :=
  match given with
  | some schema => some schema
  | none =>
    let datasetSchema := nonempty (strip (d.schemaName.getD ""))
    if d.datasetType = .file ∧ datasetSchema = some "api_connector" then none else datasetSchema

def tableKeyOf (schemaName : Option String) (tableName : String) : String :=
  let schema := strip (schemaName.getD "")
  if schema ≠ "" then schema ++ "." ++ strip tableName else strip tableName

def dialectOf (d : DatasetRecord) : String :=
  let dialect := norm (((d.dialect).bind nonempty).getD "tsql")
  if dialect = "" then "tsql" else dialect

/-- `_build_dataset_freshness_descriptor`; the descriptor's own validator raises a `ValidationError` -/
def freshnessOf (d : DatasetRecord) : Except BuildError FreshnessDescriptor :=
  match d.contents, d.revisionId with
  | .synced _, some revision =>
    let key := some ("dataset-revision:" ++ revision.text)
    if h : isBlank key = false then
      .ok ⟨.revision, key, some revision.text,
        some "Synced datasets are cacheable only for a specific dataset revision.", fun _ => h⟩
    else .error (.other "Revision-backed dataset freshness requires freshness_key.")
  | .synced _, none =>
    .ok ⟨.unknown, none, none,
      some "Synced dataset is missing revision metadata, so federation stage cache is bypassed.", fun h => by cases h⟩
  | .live _, _ =>
    .ok ⟨.volatile, none, none, some "Live datasets bypass federation stage cache.", fun h => by cases h⟩

/-- `_build_dataset_execution_descriptor`, with the kinds that it has resolved -/
def executionDescriptor (R : Resolver) (d : DatasetRecord) :
    Except BuildError (DatasetDescriptor × SourceKind × StorageKind) := do
  let sourceKind ← (match d.sourceKind with
    | some k => .ok k
    | none => .error (.validation ("Dataset '" ++ d.name ++ "' is missing explicit source_kind.")))
  let storageKind ← (match d.storageKind with
    | some k => .ok k
    | none => .error (.validation ("Dataset '" ++ d.name ++ "' is missing explicit storage_kind.")))
  let freshness ← freshnessOf d
  return ({
    datasetId := some d.id.text
    name := some d.name
    materializationMode := some (materializationMode d)
    relationIdentity := R.relationIdentity d
    freshness := some freshness
  }, sourceKind, storageKind)

/-- `_resolve_file_storage_uri` -/
def fileStorageUri (d : DatasetRecord) : Except BuildError String :=
  let own := strip (d.storageUri.getD "")
  let uri := if own ≠ "" then own else trimmed (firstOf d.fileConfig ["storage_uri", "uri", "path"] .null)
  if uri ≠ "" then .ok uri
  else
    match d.contents with
    | .live _ => .error (.validation ("FILE dataset '" ++ d.id.text ++ "' is missing storage_uri."))
    | .synced source =>
      let resource := strip (source.resource.getD "")
      let table := strip (source.table.getD "")
      let detail :=
        if resource ≠ "" then " (resource path '" ++ resource ++ "')"
        else if table ≠ "" then " (table '" ++ table ++ "')"
        else if strip (source.sql.getD "") ≠ "" then " (SQL query source)"
        else ""
      .error (.validation ("Synced dataset '" ++ d.name ++ "' has not been populated yet. " ++
        "Run dataset sync for dataset '" ++ d.name ++ "'" ++ detail ++ " before querying it."))

/-- `_resolve_file_format` -/
def fileFormat (d : DatasetRecord) (storageUri : String) : Except BuildError String :=
  let configured := lower (trimmed (firstOf d.fileConfig ["format", "file_format"] .null))
  let lowered := lower storageUri
  if configured = "csv" ∨ configured = "parquet" then .ok configured
  else if lowered.endsWith ".parquet" then .ok "parquet"
  else if lowered.endsWith ".csv" then .ok "csv"
  else .error (.validation
    ("FILE dataset '" ++ d.id.text ++ "' must declare a supported file format (csv or parquet)."))

/-- the keyword arguments of `_build_binding_from_dataset_record` -/
structure BindingNames where
  tableKey : Option String
  logicalSchema : Option String
  logicalTableName : Option String
  catalogName : Option String

/-- no argument is given -/
def BindingNames.default : BindingNames := ⟨none, none, none, none⟩

/-- the binding that every kind of dataset has, with its own source and the metadata that only it has -/
def bindingOf (d : DatasetRecord) (names : BindingNames) (descriptor : DatasetDescriptor × SourceKind × StorageKind)
    (sourceId : String) (connectorId : Option Uuid) (catalog : Option String) (extra : List (String × Json)) :
    VirtualTableBinding :=
  let table := logicalTable d names.logicalTableName
  let schema := logicalSchema d names.logicalSchema
  { tableKey := ((names.tableKey).bind nonempty).getD (tableKeyOf schema table)
    sourceId
    connectorId := connectorId.map (·.text)
    schemaName := schema
    table
    catalog
    metadata := Dict.ofList ([("dataset_id", .str d.id.text), ("source_kind", .str descriptor.2.1.value),
      ("storage_kind", .str descriptor.2.2.value), ("materialization_mode", .str (materializationMode d))] ++ extra)
    descriptor := some descriptor.1 }

def optional : Option String → Json
  | none => .null
  | some s => .str s

/-- the connection of a dataset, or the refusal of one without -/
def connectionOf (d : DatasetRecord) (kind : String) : Except BuildError Uuid :=
  match d.connectionId with
  | none => .error (.validation ("Executable " ++ kind ++ " datasets require a connection_id."))
  | some c => .ok c

def buildBinding (R : Resolver) (d : DatasetRecord) (names : BindingNames) :
    Except BuildError (VirtualTableBinding × String) := do
  let descriptor ← executionDescriptor R d
  match d.datasetType with
  | .table =>
    let connection ← connectionOf d "TABLE"
    let physical := (d.tableName.bind nonempty).getD (logicalTable d names.logicalTableName)
    return (bindingOf d names descriptor ("source_" ++ hexPrefix connection 12) (some connection)
      ((names.catalogName.bind nonempty).orElse fun _ => d.catalogName)
      [("physical_catalog", optional d.catalogName), ("physical_schema", optional d.schemaName),
        ("physical_table", .str physical)], dialectOf d)
  | .sql =>
    let connection ← connectionOf d "SQL"
    let text := strip (d.sqlText.getD "")
    if text = "" then .error (.validation "SQL dataset is missing sql_text.")
    else
      match SqlGuards.enforceReadOnlySql R.sql text false (some (dialectOf d)) with
      | .error m => .error (.other m)
      | .ok _ =>
        return (bindingOf d names descriptor ("source_" ++ hexPrefix connection 12) (some connection) names.catalogName
          [("physical_sql", .str text), ("sql_dialect", .str (dialectOf d))], dialectOf d)
  | .api =>
    let connection ← connectionOf d "API"
    let source := (match d.contents with
      | .live source => some source
      | .synced _ => none)
    let resource := strip ((source.bind DatasetSource.resource).getD "")
    let flatten := ((source.bind DatasetSource.flatten).getD []).map Json.str
    if resource = "" then .error (.validation "API dataset is missing source.resource.")
    else
      return (bindingOf d names descriptor ("api_" ++ hexPrefix connection 12) (some connection) names.catalogName
        [("api_resource", .str resource), ("api_flatten", .arr flatten)], "duckdb")
  | .file =>
    let storageUri ← fileStorageUri d
    let format ← fileFormat d storageUri
    let options := ["header", "delimiter", "quote"].filterMap fun key => (d.fileConfig.get? key).map fun v => (key, v)
    return (bindingOf d names descriptor ("file_" ++ hexPrefix d.id 12) none none
      ([("storage_uri", .str storageUri), ("file_format", .str format)] ++ options), "duckdb")
  | .federated =>
    .error (.validation ("Dataset type 'DatasetType.FEDERATED' is not supported for semantic or dataset execution."))

/-! ## Binding the children -/

def parseUuid (R : Resolver) (value : Json) (context : String) : Except BuildError Uuid :=
  match R.uuidOf value.text with
  | some u => .ok u
  | none => .error (.validation ("Invalid UUID for " ++ context ++ "."))

def loadDataset (R : Resolver) (workspaceId datasetId : Uuid) (tableKey : String) : Except BuildError DatasetRecord :=
  match R.datasetProvider.or R.datasetRepository with
  | none => .error (.validation "Dataset metadata provider is required for dataset-backed execution.")
  | some find =>
    match find workspaceId datasetId with
    | none =>
      .error (.validation ("Dataset '" ++ datasetId.text ++ "' referenced by table '" ++ tableKey ++
        "' was not found."))
    | some d => .ok d

/-- the state of the two loops -/
structure Bindings where
  tables : Dict String VirtualTableBinding
  dialects : List String
  consumed : List Uuid

def planId (R : Resolver) (tableKey : String) (entry : Dict String Json) : Except BuildError Uuid :=
  parseUuid R (firstOf entry ["dataset_id"] (get entry "datasetId")) ("table '" ++ tableKey ++ "' dataset_id")

/-- the arguments that a table of the plan is bound with -/
def planNames (tableKey : String) (entry : Dict String Json) : BindingNames where
  tableKey := some tableKey
  logicalSchema := stringOrNone (get entry "schema")
  logicalTableName := stringOrNone (firstOf entry ["table"] (get entry "name"))
  catalogName := stringOrNone (get entry "catalog")

def bindPlanTable (R : Resolver) (workspaceId : Uuid) (s : Bindings) (e : String × Dict String Json) :
    Except BuildError Bindings := do
  let datasetRef ← planId R e.1 e.2
  let child ← loadDataset R workspaceId datasetRef e.1
  match buildBinding R child (planNames e.1 e.2) with
  | .error (.validation _) => return s
  | .error (.other m) => .error (.other m)
  | .ok (binding, dialect) =>
    return ⟨s.tables.set e.1 binding, s.dialects ++ [dialect], s.consumed ++ [datasetRef]⟩

/-- one referenced dataset; one that a table of the plan has taken is passed over, as a refused binding is -/
def bindReferencedDataset (R : Resolver) (workspaceId : Uuid) (s : Bindings) (id : Uuid) :
    Except BuildError Bindings :=
  if id ∈ s.consumed then .ok s
  else do
    let child ← loadDataset R workspaceId id id.text
    match buildBinding R child .default with
    | .error (.validation _) => return s
    | .error (.other m) => .error (.other m)
    | .ok (binding, dialect) =>
      return { s with tables := s.tables.set binding.tableKey binding, dialects := s.dialects ++ [dialect] }

def chooseWorkflowDialect (dialects : List String) : String :=
  let normalized := (dialects.map norm).filter (· ≠ "")
  if "duckdb" ∈ normalized then "duckdb" else normalized.head?.getD "tsql"

structure Built where
  workflowId : String
  dataset : VirtualDataset
  relationships : List VirtualRelationship
  defaultTableKey : String
  dialect : String

def referencedIds (R : Resolver) (d : DatasetRecord) : Except BuildError (List Uuid) :=
  (d.referencedDatasetIds.filter Json.truthy).mapM fun value => parseUuid R value "referenced dataset id"

def declaredDefault (d : DatasetRecord) : Option String :=
  let declared := firstOf d.federatedPlan ["default_table_key"] (get d.federatedPlan "defaultTableKey")
  if declared.truthy then some declared.text else none

def planTables (d : DatasetRecord) : Dict String (Dict String Json) :=
  normalizePlanTables (get d.federatedPlan "tables")

def buildFederatedDatasetWorkflow (R : Resolver) (d : DatasetRecord) : Except BuildError Built := do
  if R.datasetProvider.isNone && R.datasetRepository.isNone then
    .error (.validation "Dataset metadata provider is required for federated dataset execution.")
  else
    let referenced ← referencedIds R d
    let planned ← (planTables d).entries.foldlM (bindPlanTable R d.workspaceId) ⟨Dict.empty, [], []⟩
    let bound ← referenced.foldlM (bindReferencedDataset R d.workspaceId) planned
    if h : bound.tables.entries = [] then
      .error (.validation ("Federated dataset '" ++ d.id.text ++ "' has no executable child dataset bindings."))
    else
      let first := (bound.tables.entries.head h).1
      let default := (declaredDefault d).getD first
      return {
        workflowId := "workflow_dataset_" ++ hexPrefix d.id 12
        dataset := ⟨"dataset_" ++ hexPrefix d.id 12, bound.tables, h⟩
        relationships := parseRelationships (get d.federatedPlan "relationships")
        defaultTableKey := if bound.tables.has default then default else first
        dialect := chooseWorkflowDialect bound.dialects
      }

/-! ## What a child is -/

def PlanBound (R : Resolver) (d : DatasetRecord) (e : String × Dict String Json) (id : Uuid)
    (binding : VirtualTableBinding) (dialect : String) : Prop :=
  planId R e.1 e.2 = .ok id ∧ ∃ child, loadDataset R d.workspaceId id e.1 = .ok child ∧
    buildBinding R child (planNames e.1 e.2) = .ok (binding, dialect)

def PlanRefused (R : Resolver) (d : DatasetRecord) (e : String × Dict String Json) : Prop :=
  ∃ id child m, planId R e.1 e.2 = .ok id ∧ loadDataset R d.workspaceId id e.1 = .ok child ∧
    buildBinding R child (planNames e.1 e.2) = .error (.validation m)

def Taken (R : Resolver) (d : DatasetRecord) (tables : List (String × Dict String Json)) (id : Uuid) : Prop :=
  ∃ e ∈ tables, ∃ binding dialect, PlanBound R d e id binding dialect

def ReferencedBound (R : Resolver) (d : DatasetRecord) (id : Uuid) (binding : VirtualTableBinding)
    (dialect : String) : Prop :=
  ∃ child, loadDataset R d.workspaceId id id.text = .ok child ∧ buildBinding R child .default = .ok (binding, dialect)

def ReferencedRefused (R : Resolver) (d : DatasetRecord) (id : Uuid) : Prop :=
  ∃ child m, loadDataset R d.workspaceId id id.text = .ok child ∧
    buildBinding R child .default = .error (.validation m)

variable {R : Resolver} {d : DatasetRecord}

theorem PlanBound.unique {e : String × Dict String Json} {id id' : Uuid} {b b' : VirtualTableBinding}
    {dialect dialect' : String} (h : PlanBound R d e id b dialect) (h' : PlanBound R d e id' b' dialect') :
    id = id' ∧ b = b' := by
  obtain ⟨hid, child, hload, hbuild⟩ := h
  obtain ⟨hid', child', hload', hbuild'⟩ := h'
  rw [hid] at hid'
  cases hid'
  rw [hload] at hload'
  cases hload'
  rw [hbuild] at hbuild'
  exact ⟨rfl, (Prod.mk.inj (Except.ok.inj hbuild')).1⟩

theorem ReferencedBound.unique {id : Uuid} {b b' : VirtualTableBinding} {dialect dialect' : String}
    (h : ReferencedBound R d id b dialect) (h' : ReferencedBound R d id b' dialect') : b = b' := by
  obtain ⟨child, hload, hbuild⟩ := h
  obtain ⟨child', hload', hbuild'⟩ := h'
  rw [hload] at hload'
  cases hload'
  rw [hbuild] at hbuild'
  exact (Prod.mk.inj (Except.ok.inj hbuild')).1

theorem not_bound_of_refused {e : String × Dict String Json} (h : PlanRefused R d e) (id : Uuid)
    (b : VirtualTableBinding) (dialect : String) : ¬ PlanBound R d e id b dialect := by
  obtain ⟨id', child', m, hid', hload', hbuild'⟩ := h
  rintro ⟨hid, child, hload, hbuild⟩
  rw [hid'] at hid
  cases hid
  rw [hload'] at hload
  cases hload
  rw [hbuild'] at hbuild
  cases hbuild

theorem not_referenced_of_refused {id : Uuid} (h : ReferencedRefused R d id) (b : VirtualTableBinding)
    (dialect : String) : ¬ ReferencedBound R d id b dialect := by
  obtain ⟨child', m, hload', hbuild'⟩ := h
  rintro ⟨child, hload, hbuild⟩
  rw [hload'] at hload
  cases hload
  rw [hbuild'] at hbuild
  cases hbuild

/-! ## The tables of the plan -/

/-- one step of the first loop -/
theorem bindPlanTable_ok (s s' : Bindings) (e : String × Dict String Json) :
    bindPlanTable R d.workspaceId s e = .ok s' ↔ (PlanRefused R d e ∧ s' = s) ∨
      ∃ id b dialect, PlanBound R d e id b dialect ∧
        s' = ⟨s.tables.set e.1 b, s.dialects ++ [dialect], s.consumed ++ [id]⟩ := by
  unfold bindPlanTable
  constructor
  · intro h
    obtain ⟨id, hid, h⟩ := of_bind_ok h
    obtain ⟨child, hload, h⟩ := of_bind_ok h
    split at h
    · rename_i m hbuild
      exact .inl ⟨⟨id, child, m, hid, hload, hbuild⟩, (Except.ok.inj h).symm⟩
    · cases h
    · rename_i b dialect hbuild
      exact .inr ⟨id, b, dialect, ⟨hid, child, hload, hbuild⟩, (Except.ok.inj h).symm⟩
  · rintro (⟨⟨id, child, m, hid, hload, hbuild⟩, rfl⟩ | ⟨id, b, dialect, ⟨hid, child, hload, hbuild⟩, rfl⟩)
    · simp only [hid, hload, hbuild, bind, Except.bind]
      rfl
    · simp only [hid, hload, hbuild, bind, Except.bind]
      rfl

structure PlanDone (R : Resolver) (d : DatasetRecord) (l : List (String × Dict String Json)) (s s' : Bindings) :
    Prop where
  each : ∀ e ∈ l, PlanRefused R d e ∨ ∃ id b dialect, PlanBound R d e id b dialect
  tables : ∀ key b, s'.tables.get? key = some b ↔
    (∃ e ∈ l, e.1 = key ∧ ∃ id dialect, PlanBound R d e id b dialect) ∨
      (s.tables.get? key = some b ∧ ∀ e ∈ l, e.1 = key → ∀ id b' dialect, ¬ PlanBound R d e id b' dialect)
  consumed : ∀ id, id ∈ s'.consumed ↔ id ∈ s.consumed ∨ Taken R d l id

/-- **The tables of the plan.** A run of the first loop binds what can be bound, each table under its own key. -/
theorem bindPlan_ok (l : List (String × Dict String Json)) (hkeys : (l.map Prod.fst).Nodup) (s s' : Bindings)
    (h : l.foldlM (bindPlanTable R d.workspaceId) s = .ok s') : PlanDone R d l s s' := by
  induction l generalizing s with
  | nil =>
    cases h
    refine ⟨fun e he => ?_, fun key b => ?_, fun id => ?_⟩
    · cases he
    · constructor
      · exact fun hget => .inr ⟨hget, fun e he => absurd he not_mem_nil⟩
      · rintro (⟨e, he, _⟩ | ⟨hget, _⟩)
        · cases he
        · exact hget
    · constructor
      · exact .inl
      · rintro (hid | ⟨e, he, _⟩)
        · exact hid
        · cases he
  | cons e l ih =>
    rw [map_cons, nodup_cons] at hkeys
    obtain ⟨mid, hmid, h⟩ := of_bind_ok h
    have htail := ih hkeys.2 mid h
    have hfresh : ∀ e' ∈ l, e'.1 ≠ e.1 := fun e' he' heq => hkeys.1 (heq ▸ mem_map_of_mem he')
    rcases (bindPlanTable_ok s mid e).1 hmid with ⟨hrefused, rfl⟩ | ⟨id, b, dialect, hbound, rfl⟩
    · have hnot := not_bound_of_refused hrefused
      refine ⟨?_, fun key b => ?_, fun id => ?_⟩
      · rw [forall_mem_cons]
        exact ⟨.inl hrefused, htail.each⟩
      · rw [htail.tables, exists_mem_cons_iff, forall_mem_cons]
        constructor
        · rintro (hbound | ⟨hget, hrest⟩)
          · exact .inl (.inr hbound)
          · exact .inr ⟨hget, fun _ => hnot, hrest⟩
        · rintro ((⟨_, id, dialect, hbound⟩ | hbound) | ⟨hget, _, hrest⟩)
          · exact absurd hbound (hnot id b dialect)
          · exact .inl hbound
          · exact .inr ⟨hget, hrest⟩
      · rw [htail.consumed, Taken, Taken, exists_mem_cons_iff]
        constructor
        · rintro (hid | htaken)
          · exact .inl hid
          · exact .inr (.inr htaken)
        · rintro (hid | ⟨b, dialect, hbound⟩ | htaken)
          · exact .inl hid
          · exact absurd hbound (hnot id b dialect)
          · exact .inr htaken
    · refine ⟨?_, fun key b' => ?_, fun id' => ?_⟩
      · rw [forall_mem_cons]
        exact ⟨.inr ⟨id, b, dialect, hbound⟩, htail.each⟩
      · rw [htail.tables, get?_set, exists_mem_cons_iff, forall_mem_cons]
        by_cases hkey : key = e.1
        · subst hkey
          rw [if_pos rfl]
          constructor
          · rintro (⟨e', he', heq, _⟩ | ⟨hget, _⟩)
            · exact absurd heq (hfresh e' he')
            · rw [← Option.some.inj hget]
              exact .inl (.inl ⟨rfl, id, dialect, hbound⟩)
          · rintro ((⟨_, id', dialect', hbound'⟩ | ⟨e', he', heq, _⟩) | ⟨_, hnone, _⟩)
            · refine .inr ⟨?_, fun e' he' heq => absurd heq (hfresh e' he')⟩
              rw [(hbound.unique hbound').2]
            · exact absurd heq (hfresh e' he')
            · exact absurd hbound (hnone rfl id b dialect)
        · rw [if_neg hkey]
          constructor
          · rintro (hrest | ⟨hget, hrest⟩)
            · exact .inl (.inr hrest)
            · exact .inr ⟨hget, fun heq => absurd heq.symm hkey, hrest⟩
          · rintro ((⟨heq, _⟩ | hrest) | ⟨hget, _, hrest⟩)
            · exact absurd heq.symm hkey
            · exact .inl hrest
            · exact .inr ⟨hget, hrest⟩
      · rw [htail.consumed, Taken, Taken, exists_mem_cons_iff, mem_append, mem_singleton, or_assoc]
        constructor
        · rintro (hid | rfl | htaken)
          · exact .inl hid
          · exact .inr (.inl ⟨b, dialect, hbound⟩)
          · exact .inr (.inr htaken)
        · rintro (hid | ⟨b', dialect', hbound'⟩ | htaken)
          · exact .inl hid
          · exact .inr (.inl (hbound'.unique hbound).1)
          · exact .inr (.inr htaken)

/-! ## The referenced datasets -/

/-- one step of the second loop -/
theorem bindReferencedDataset_ok (s s' : Bindings) (id : Uuid) :
    bindReferencedDataset R d.workspaceId s id = .ok s' ↔
      ((id ∈ s.consumed ∨ ReferencedRefused R d id) ∧ s' = s) ∨ (id ∉ s.consumed ∧ ∃ b dialect,
        ReferencedBound R d id b dialect ∧
          s' = { s with tables := s.tables.set b.tableKey b, dialects := s.dialects ++ [dialect] }) := by
  unfold bindReferencedDataset
  by_cases hconsumed : id ∈ s.consumed
  · rw [if_pos hconsumed]
    constructor
    · intro h
      exact .inl ⟨.inl hconsumed, (Except.ok.inj h).symm⟩
    · rintro (⟨_, rfl⟩ | ⟨hnot, _⟩)
      · rfl
      · exact absurd hconsumed hnot
  · rw [if_neg hconsumed]
    constructor
    · intro h
      obtain ⟨child, hload, h⟩ := of_bind_ok h
      split at h
      · rename_i m hbuild
        exact .inl ⟨.inr ⟨child, m, hload, hbuild⟩, (Except.ok.inj h).symm⟩
      · cases h
      · rename_i b dialect hbuild
        exact .inr ⟨hconsumed, b, dialect, ⟨child, hload, hbuild⟩, (Except.ok.inj h).symm⟩
    · rintro (⟨hrefused, rfl⟩ | ⟨_, b, dialect, ⟨child, hload, hbuild⟩, rfl⟩)
      · obtain ⟨child, m, hload, hbuild⟩ := hrefused.resolve_left hconsumed
        simp only [hload, hbuild, bind, Except.bind]
        rfl
      · simp only [hload, hbuild, bind, Except.bind]
        rfl

/-- what the second loop has done to the bindings after some referenced datasets -/
structure ReferencedDone (R : Resolver) (d : DatasetRecord) (l : List Uuid) (s s' : Bindings) : Prop where
  each : ∀ id ∈ l, id ∉ s.consumed → ReferencedRefused R d id ∨ ∃ b dialect, ReferencedBound R d id b dialect
  only : ∀ key b, s'.tables.get? key = some b → s.tables.get? key = some b ∨
    ∃ id ∈ l, id ∉ s.consumed ∧ b.tableKey = key ∧ ∃ dialect, ReferencedBound R d id b dialect
  kept : ∀ key b, s.tables.get? key = some b →
    (∀ id ∈ l, id ∉ s.consumed → ∀ b' dialect, ReferencedBound R d id b' dialect → b'.tableKey ≠ key) →
      s'.tables.get? key = some b
  bound : ∀ id ∈ l, id ∉ s.consumed → ∀ b dialect, ReferencedBound R d id b dialect →
    (∀ id' ∈ l, id' ∉ s.consumed → ∀ b' dialect', ReferencedBound R d id' b' dialect' →
      b'.tableKey = b.tableKey → id' = id) → s'.tables.get? b.tableKey = some b
  keys : ∀ key, key ∈ s'.tables.keys ↔ key ∈ s.tables.keys ∨
    ∃ id ∈ l, id ∉ s.consumed ∧ ∃ b dialect, ReferencedBound R d id b dialect ∧ b.tableKey = key

/-- **The referenced datasets.** A run of the second loop binds what can be bound, each dataset under its own table key,
unless another dataset has the same key. -/
theorem bindReferenced_ok (l : List Uuid) (s s' : Bindings)
    (h : l.foldlM (bindReferencedDataset R d.workspaceId) s = .ok s') : ReferencedDone R d l s s' := by
  induction l generalizing s with
  | nil =>
    cases h
    refine ⟨fun id hid => ?_, fun key b hget => .inl hget, fun key b hget _ => hget, fun id hid => ?_, fun key => ?_⟩
    · cases hid
    · cases hid
    · constructor
      · exact .inl
      · rintro (hkey | ⟨id, hid, _⟩)
        · exact hkey
        · cases hid
  | cons id l ih =>
    obtain ⟨mid, hmid, h⟩ := of_bind_ok h
    have htail := ih mid h
    rcases (bindReferencedDataset_ok s mid id).1 hmid with ⟨hpassed, rfl⟩ | ⟨hfree, b, dialect, hbound, rfl⟩
    · have hnone : id ∉ mid.consumed → ∀ b dialect, ¬ ReferencedBound R d id b dialect := by
        intro hfree
        exact not_referenced_of_refused (hpassed.resolve_left hfree)
      refine ⟨?_, fun key b hget => ?_, fun key b hget hother => ?_, ?_, fun key => ?_⟩
      · rw [forall_mem_cons]
        exact ⟨fun hfree => .inl (hpassed.resolve_left hfree), htail.each⟩
      · rcases htail.only key b hget with hget | ⟨id', hid', hrest⟩
        · exact .inl hget
        · exact .inr ⟨id', mem_cons_of_mem id hid', hrest⟩
      · exact htail.kept key b hget fun id' hid' => hother id' (mem_cons_of_mem id hid')
      · rw [forall_mem_cons]
        refine ⟨fun hfree b dialect hbound => absurd hbound (hnone hfree b dialect), ?_⟩
        intro id' hid' hfree b dialect hbound honly
        exact htail.bound id' hid' hfree b dialect hbound fun id'' hid'' =>
          honly id'' (mem_cons_of_mem id hid'')
      · rw [htail.keys, exists_mem_cons_iff]
        refine or_congr_right ⟨.inr, fun hor => hor.resolve_left ?_⟩
        rintro ⟨hfree, b, dialect, hbound, _⟩
        exact hnone hfree b dialect hbound
    · refine ⟨?_, fun key b' hget => ?_, fun key b' hget hother => ?_, ?_, fun key => ?_⟩
      · rw [forall_mem_cons]
        exact ⟨fun _ => .inr ⟨b, dialect, hbound⟩, htail.each⟩
      · rcases htail.only key b' hget with hget | ⟨id', hid', hrest⟩
        · rw [get?_set] at hget
          split_ifs at hget with hkey
          · cases hget
            exact .inr ⟨id, mem_cons_self, hfree, hkey.symm, dialect, hbound⟩
          · exact .inl hget
        · exact .inr ⟨id', mem_cons_of_mem id hid', hrest⟩
      · refine htail.kept key b' ?_ fun id' hid' => hother id' (mem_cons_of_mem id hid')
        rw [get?_set_of_ne _ _ (hother id mem_cons_self hfree b dialect hbound).symm]
        exact hget
      · rw [forall_mem_cons]
        constructor
        · intro _ b' dialect' hbound' honly
          obtain rfl := hbound'.unique hbound
          by_cases hagain : id ∈ l
          · exact htail.bound id hagain hfree b' dialect' hbound' fun id'' hid'' =>
              honly id'' (mem_cons_of_mem id hid'')
          · refine htail.kept _ b' (get?_set_self _ _ _) fun id' hid' hfree' b'' dialect'' hbound'' heq => ?_
            exact hagain (honly id' (mem_cons_of_mem id hid') hfree' b'' dialect'' hbound'' heq ▸ hid')
        · intro id' hid' hfree' b' dialect' hbound' honly
          exact htail.bound id' hid' hfree' b' dialect' hbound' fun id'' hid'' =>
            honly id'' (mem_cons_of_mem id hid'')
      · rw [htail.keys, mem_keys_set, exists_mem_cons_iff, or_assoc]
        refine or_congr_right (or_congr_left ⟨?_, ?_⟩)
        · rintro rfl
          exact ⟨hfree, b, dialect, hbound, rfl⟩
        · rintro ⟨_, b', dialect', hbound', rfl⟩
          rw [hbound'.unique hbound]

/-! ## The built workflow -/

/-- when a federated dataset can be built: a store is there, the ids are those of datasets in the workspace, a child is
bound or refused, and one is bound -/
structure Buildable (R : Resolver) (d : DatasetRecord) : Prop where
  store : R.datasetProvider.isSome = true ∨ R.datasetRepository.isSome = true
  plan : ∀ e ∈ (planTables d).entries, PlanRefused R d e ∨ ∃ id b dialect, PlanBound R d e id b dialect
  referenced : ∃ ids, referencedIds R d = .ok ids ∧
    (∀ id ∈ ids, ¬ Taken R d (planTables d).entries id →
      ReferencedRefused R d id ∨ ∃ b dialect, ReferencedBound R d id b dialect) ∧
    ((∃ id, Taken R d (planTables d).entries id) ∨
      ∃ id ∈ ids, ¬ Taken R d (planTables d).entries id ∧ ∃ b dialect, ReferencedBound R d id b dialect)

/-- what is bound under which key: `ids` are the referenced datasets, and `own` says that no other child has a key -/
structure Bound (R : Resolver) (d : DatasetRecord) (ids : List Uuid) (built : Built) : Prop where
  plan : ∀ e ∈ (planTables d).entries, ∀ id b dialect, PlanBound R d e id b dialect →
    (∀ id' ∈ ids, ¬ Taken R d (planTables d).entries id' → ∀ b' dialect', ReferencedBound R d id' b' dialect' →
      b'.tableKey ≠ e.1) → built.dataset.tables.get? e.1 = some b
  referenced : ∀ id ∈ ids, ¬ Taken R d (planTables d).entries id → ∀ b dialect, ReferencedBound R d id b dialect →
    (∀ e ∈ (planTables d).entries, e.1 = b.tableKey → PlanRefused R d e) →
    (∀ id' ∈ ids, ¬ Taken R d (planTables d).entries id' → ∀ b' dialect', ReferencedBound R d id' b' dialect' →
      b'.tableKey = b.tableKey → id' = id) → built.dataset.tables.get? b.tableKey = some b
  only : ∀ key b, built.dataset.tables.get? key = some b →
    (∃ e ∈ (planTables d).entries, e.1 = key ∧ ∃ id dialect, PlanBound R d e id b dialect) ∨
      ∃ id ∈ ids, ¬ Taken R d (planTables d).entries id ∧ b.tableKey = key ∧ ∃ dialect, ReferencedBound R d id b dialect
  defaultKey : built.defaultTableKey ∈ built.dataset.tables.keys
  declared : ∀ key, declaredDefault d = some key → key ∈ built.dataset.tables.keys → built.defaultTableKey = key
  first : (∀ key, declaredDefault d = some key → key ∉ built.dataset.tables.keys) →
    built.dataset.tables.keys.head? = some built.defaultTableKey

/-- the bindings that the loops begin with -/
def noBindings : Bindings := ⟨Dict.empty, [], []⟩

/-- the loops of a build that succeeds -/
theorem build_ok {built : Built} (h : buildFederatedDatasetWorkflow R d = .ok built) :
    (R.datasetProvider.isSome = true ∨ R.datasetRepository.isSome = true) ∧
      ∃ ids planned bound, referencedIds R d = .ok ids ∧
        PlanDone R d (planTables d).entries noBindings planned ∧ ReferencedDone R d ids planned bound ∧
        ∃ hne : bound.tables.entries ≠ [], built.dataset.tables = bound.tables ∧
          built.defaultTableKey =
            if bound.tables.has ((declaredDefault d).getD (bound.tables.entries.head hne).1) = true then
              (declaredDefault d).getD (bound.tables.entries.head hne).1
            else (bound.tables.entries.head hne).1 := by
  unfold buildFederatedDatasetWorkflow at h
  split_ifs at h with hstore
  obtain ⟨ids, hids, h⟩ := of_bind_ok h
  obtain ⟨planned, hplanned, h⟩ := of_bind_ok h
  obtain ⟨bound, hbound, h⟩ := of_bind_ok h
  split_ifs at h with hne
  cases h
  refine ⟨?_, ids, planned, bound, hids, ?_, bindReferenced_ok ids planned bound hbound, hne, rfl, rfl⟩
  · rw [Bool.and_eq_true, not_and_or, Bool.not_eq_true, Bool.not_eq_true, Option.isNone_eq_false_iff,
      Option.isNone_eq_false_iff] at hstore
    exact hstore
  · exact bindPlan_ok _ (planTables d).nodup noBindings planned hplanned

/-- what the first loop consumes is what the plan takes -/
theorem PlanDone.consumed_iff {l : List (String × Dict String Json)} {planned : Bindings}
    (h : PlanDone R d l noBindings planned) (id : Uuid) : id ∈ planned.consumed ↔ Taken R d l id := by
  rw [h.consumed]
  exact ⟨fun hor => hor.resolve_left not_mem_nil, .inr⟩

theorem PlanDone.tables_iff {l : List (String × Dict String Json)} {planned : Bindings}
    (h : PlanDone R d l noBindings planned) (key : String) (b : VirtualTableBinding) :
    planned.tables.get? key = some b ↔ ∃ e ∈ l, e.1 = key ∧ ∃ id dialect, PlanBound R d e id b dialect := by
  rw [h.tables]
  refine ⟨fun hor => hor.resolve_right ?_, .inl⟩
  rintro ⟨hget, _⟩
  cases hget

def SomeBound (R : Resolver) (d : DatasetRecord) (ids : List Uuid) : Prop :=
  (∃ id, Taken R d (planTables d).entries id) ∨
    ∃ id ∈ ids, ¬ Taken R d (planTables d).entries id ∧ ∃ b dialect, ReferencedBound R d id b dialect

/-- the bindings are empty unless some child is bound -/
theorem someBound_iff {ids : List Uuid} {planned bound : Bindings}
    (hplanned : PlanDone R d (planTables d).entries noBindings planned)
    (hbound : ReferencedDone R d ids planned bound) :
    bound.tables.entries ≠ [] ↔ SomeBound R d ids := by
  have hkeys : bound.tables.entries ≠ [] ↔ ∃ key, key ∈ bound.tables.keys := by
    constructor
    · intro hne
      obtain ⟨e, he⟩ := exists_mem_of_ne_nil _ hne
      exact ⟨e.1, mem_map_of_mem he⟩
    · rintro ⟨key, hkey⟩
      obtain ⟨e, he, _⟩ := mem_map.1 hkey
      exact ne_nil_of_mem he
  rw [hkeys]
  constructor
  · rintro ⟨key, hkey⟩
    rcases (hbound.keys key).1 hkey with hkey | ⟨id, hid, hfree, b, dialect, hb, _⟩
    · obtain ⟨b, hget⟩ := (mem_keys_iff _ _).1 hkey
      obtain ⟨e, he, _, id, dialect, hb⟩ := (hplanned.tables_iff key b).1 hget
      exact .inl ⟨id, e, he, b, dialect, hb⟩
    · exact .inr ⟨id, hid, fun htaken => hfree ((hplanned.consumed_iff id).2 htaken), b, dialect, hb⟩
  · rintro (⟨id, e, he, b, dialect, hb⟩ | ⟨id, hid, hfree, b, dialect, hb⟩)
    · refine ⟨e.1, (hbound.keys e.1).2 (.inl ((mem_keys_iff _ _).2 ⟨b, ?_⟩))⟩
      exact (hplanned.tables_iff e.1 b).2 ⟨e, he, rfl, id, dialect, hb⟩
    · refine ⟨b.tableKey, (hbound.keys b.tableKey).2 (.inr ⟨id, hid, fun htaken => ?_, b, dialect, hb, rfl⟩)⟩
      exact hfree ((hplanned.consumed_iff id).1 htaken)

/-- the first loop goes through if each of its children is bound or refused -/
theorem bindPlan_total (l : List (String × Dict String Json))
    (h : ∀ e ∈ l, PlanRefused R d e ∨ ∃ id b dialect, PlanBound R d e id b dialect) (s : Bindings) :
    ∃ s', l.foldlM (bindPlanTable R d.workspaceId) s = .ok s' := by
  induction l generalizing s with
  | nil => exact ⟨s, rfl⟩
  | cons e l ih =>
    rw [forall_mem_cons] at h
    have hstep : ∃ mid, bindPlanTable R d.workspaceId s e = .ok mid := by
      rcases h.1 with hrefused | ⟨id, b, dialect, hbound⟩
      · exact ⟨s, (bindPlanTable_ok s s e).2 (.inl ⟨hrefused, rfl⟩)⟩
      · exact ⟨_, (bindPlanTable_ok s _ e).2 (.inr ⟨id, b, dialect, hbound, rfl⟩)⟩
    obtain ⟨mid, hmid⟩ := hstep
    obtain ⟨s', hs'⟩ := ih h.2 mid
    refine ⟨s', ?_⟩
    rw [foldlM_cons, hmid]
    exact hs'

/-- the second loop goes through if each of its children is bound or refused -/
theorem bindReferenced_total (l : List Uuid) (s : Bindings)
    (h : ∀ id ∈ l, id ∉ s.consumed → ReferencedRefused R d id ∨ ∃ b dialect, ReferencedBound R d id b dialect) :
    ∃ s', l.foldlM (bindReferencedDataset R d.workspaceId) s = .ok s' := by
  induction l generalizing s with
  | nil => exact ⟨s, rfl⟩
  | cons id l ih =>
    rw [forall_mem_cons] at h
    have hstep : ∃ mid, bindReferencedDataset R d.workspaceId s id = .ok mid ∧ mid.consumed = s.consumed := by
      by_cases hfree : id ∈ s.consumed
      · exact ⟨s, (bindReferencedDataset_ok s s id).2 (.inl ⟨.inl hfree, rfl⟩), rfl⟩
      · rcases h.1 hfree with hrefused | ⟨b, dialect, hbound⟩
        · exact ⟨s, (bindReferencedDataset_ok s s id).2 (.inl ⟨.inr hrefused, rfl⟩), rfl⟩
        · exact ⟨_, (bindReferencedDataset_ok s _ id).2 (.inr ⟨hfree, b, dialect, hbound, rfl⟩), rfl⟩
    obtain ⟨mid, hmid, hconsumed⟩ := hstep
    obtain ⟨s', hs'⟩ := ih mid fun id' hid' hfree => h.2 id' hid' (hconsumed ▸ hfree)
    refine ⟨s', ?_⟩
    rw [foldlM_cons, hmid]
    exact hs'

/-- **When building succeeds.** -/
theorem build_iff (R : Resolver) (d : DatasetRecord) :
    (∃ built, buildFederatedDatasetWorkflow R d = .ok built) ↔ Buildable R d := by
  constructor
  · rintro ⟨built, h⟩
    obtain ⟨hstore, ids, planned, bound, hids, hplanned, hbound, hne, _, _⟩ := build_ok h
    refine ⟨hstore, hplanned.each, ids, hids, fun id hid hfree => ?_, (someBound_iff hplanned hbound).1 hne⟩
    exact hbound.each id hid fun hmem => hfree ((hplanned.consumed_iff id).1 hmem)
  · rintro ⟨hstore, hplan, ids, hids, hreferenced, hsome⟩
    obtain ⟨planned, hfirst⟩ := bindPlan_total _ hplan noBindings
    have hplanned := bindPlan_ok _ (planTables d).nodup noBindings planned hfirst
    obtain ⟨bound, hsecond⟩ := bindReferenced_total ids planned fun id hid hfree =>
      hreferenced id hid fun htaken => hfree ((hplanned.consumed_iff id).2 htaken)
    have hbound := bindReferenced_ok ids planned bound hsecond
    have hne := (someBound_iff hplanned hbound).2 hsome
    have hno : ¬ (R.datasetProvider.isNone && R.datasetRepository.isNone) = true := by
      rw [Bool.and_eq_true, not_and_or, Bool.not_eq_true, Bool.not_eq_true, Option.isNone_eq_false_iff,
        Option.isNone_eq_false_iff]
      exact hstore
    unfold buildFederatedDatasetWorkflow
    rw [noBindings] at hfirst
    simp only [if_neg hno, hids, hfirst, hsecond, bind, Except.bind, dif_neg hne]
    exact ⟨_, rfl⟩

/-- **Federated datasets.** Building succeeds exactly if a store is there, every id is one of a dataset in the workspace
that is bound or refused, and one child is bound. What is built binds a table of the plan under its own key and another
referenced dataset under its table key, where no other child has the key; it binds nothing else; and its default key is
the declared one, or the first if that is not bound. -/
theorem federated_bound (R : Resolver) (d : DatasetRecord) :
    ((∃ built, buildFederatedDatasetWorkflow R d = .ok built) ↔ Buildable R d) ∧
      ∀ built, buildFederatedDatasetWorkflow R d = .ok built →
        ∃ ids, referencedIds R d = .ok ids ∧ Bound R d ids built := by
  refine ⟨build_iff R d, fun built h => ?_⟩
  obtain ⟨_, ids, planned, bound, hids, hplanned, hbound, hne, htables, hdefault⟩ := build_ok h
  have hconsumed := hplanned.consumed_iff
  refine ⟨ids, hids, ?_⟩
  have hfirst : bound.tables.keys.head? = some (bound.tables.entries.head hne).1 := by
    rw [Dict.keys, head?_map, head?_eq_some_head hne]
    rfl
  refine ⟨?_, ?_, ?_, ?_, ?_, ?_⟩
  · intro e he id b dialect hb hother
    rw [htables]
    refine hbound.kept e.1 b ((hplanned.tables_iff e.1 b).2 ⟨e, he, rfl, id, dialect, hb⟩) fun id' hid' hfree => ?_
    exact hother id' hid' fun htaken => hfree ((hconsumed id').2 htaken)
  · intro id hid hfree b dialect hb hplan hother
    rw [htables]
    refine hbound.bound id hid (fun hmem => hfree ((hconsumed id).1 hmem)) b dialect hb fun id' hid' hfree' => ?_
    exact hother id' hid' fun htaken => hfree' ((hconsumed id').2 htaken)
  · intro key b hget
    rw [htables] at hget
    rcases hbound.only key b hget with hget | ⟨id, hid, hfree, hkey, dialect, hb⟩
    · exact .inl ((hplanned.tables_iff key b).1 hget)
    · exact .inr ⟨id, hid, fun htaken => hfree ((hconsumed id).2 htaken), hkey, dialect, hb⟩
  · rw [htables, hdefault]
    split_ifs with hhas
    · exact (has_iff _ _).1 hhas
    · exact mem_of_mem_head? hfirst
  · intro key hkey hmem
    rw [htables] at hmem
    rw [hdefault, hkey, Option.getD_some, if_pos ((has_iff _ _).2 hmem)]
  · intro hnone
    rw [htables, hdefault, hfirst]
    split_ifs with hhas
    · cases hd : declaredDefault d with
      | none => rfl
      | some key =>
        rw [hd, Option.getD_some, has_iff] at hhas
        exact absurd (htables ▸ hhas) (hnone key hd)
    · rfl

end Resolve

/-! ## A federation of which one table is left -/

section HalfBound

open scoped Ascii

def workspaceId : Uuid := ⟨"00000000-0000-0000-0000-000000000001", by decide⟩
def ordersId : Uuid := ⟨"00000000-0000-0000-0000-000000000002", by decide⟩
def eventsId : Uuid := ⟨"00000000-0000-0000-0000-000000000003", by decide⟩
def federatedId : Uuid := ⟨"00000000-0000-0000-0000-000000000004", by decide⟩

def fileDataset (id : Uuid) (name : String) (storageUri : Option String) : DatasetRecord where
  id
  workspaceId
  connectionId := none
  name
  datasetType := .file
  contents := .synced ⟨none, some name, none, none⟩
  sourceKind := some .file
  storageKind := some .parquet
  dialect := none
  catalogName := none
  schemaName := none
  tableName := some name
  storageUri
  sqlText := none
  fileConfig := Dict.empty.set "format" (.str "parquet")
  referencedDatasetIds := []
  federatedPlan := Dict.empty
  revisionId := none

/-- two children, of which the second is the default; the plan may leave the default out -/
def federation : DatasetRecord where
  id := federatedId
  workspaceId
  connectionId := none
  name := "all"
  datasetType := .federated
  contents := .live ⟨some "all", none, none, none⟩
  sourceKind := some .virtual
  storageKind := some .virtual
  dialect := none
  catalogName := none
  schemaName := none
  tableName := none
  storageUri := none
  sqlText := none
  fileConfig := Dict.empty
  referencedDatasetIds := [.str ordersId.text, .str eventsId.text]
  federatedPlan := (Dict.empty.set "tables" (.obj [("orders", .obj [("dataset_id", .str ordersId.text)]),
    ("events", .obj [("dataset_id", .str eventsId.text)])])).set "default_table_key" (.str "events")
  revisionId := none

/-- a store in which the events have not been synced yet -/
def twoFiles : Resolver where
  datasetProvider := none
  datasetRepository := some fun _ id =>
    if id = ordersId then some (fileDataset ordersId "orders" (some "/data/orders.parquet"))
    else if id = eventsId then some (fileDataset eventsId "events" none)
    else none
  uuidOf s := if h : Workflow.isUuidText s = true then some ⟨s, h⟩ else none
  sql := ⟨fun _ _ => .error ""⟩
  relationIdentity _ := Dict.empty

/-- the events are left out without an error, and the orders become the default -/
theorem halfBound : ∃ built, buildFederatedDatasetWorkflow twoFiles federation = .ok built ∧
    (planTables federation).keys = ["orders", "events"] ∧ built.dataset.tables.keys = ["orders"] ∧
      declaredDefault federation = some "events" ∧ built.defaultTableKey = "orders" := by
  refine ⟨_, rfl, by rfl, by rfl, by rfl, by rfl⟩

end HalfBound

end Langbridge.Runtime.FederatedDatasets
