/-
The federated workflow and its way to the query tool (`federation/models/virtual_dataset.py`,
`runtime/execution/federated_query_tool.py`): a service dumps the workflow with `mode="json"` into the payload of the
tool, which validates a `FederatedQueryToolRequest`. The schema of a table binding is validated under its alias
`schema` only; a dump that is not made by alias calls it `schema_name`, and validation ignores a key it does not know.
-/
import Langbridge.Core.Codec
import Langbridge.Federation.VirtualDataset

namespace Langbridge.Federation.Workflow

open Core List Dict

/-! ## The models -/

def isHexDigit (c : Char) : Bool := ( '0' ≤ c && c ≤ '9') || ( 'a' ≤ c && c ≤ 'f')

/-- the text is one that `str(uuid)` has: lower-case hexadecimal digits in groups of 8, 4, 4, 4 and 12 -/
def isUuidText (s : String) : Bool :=
  s.toList.length = 36 && s.toList.zipIdx.all fun (c, i) =>
    if i = 8 ∨ i = 13 ∨ i = 18 ∨ i = 23 then c = '-' else isHexDigit c

structure Uuid where
  text : String
  canonical : isUuidText text = true
deriving DecidableEq

structure TableStatistics where
  rowCountEstimate : Option String
  bytesPerRow : String
  distinctEstimates : Dict String String
deriving DecidableEq

section Models

variable [PyText]

/-- `DatasetFreshnessDescriptor`; a revision-backed one has a key -/
structure DatasetFreshnessDescriptor where
  policy : FreshnessPolicy
  freshnessKey : Option String
  revisionId : Option Uuid
  revisionHash : Option String
  reason : Option String
  keyed : policy = .revision → isBlank freshnessKey = false

structure DatasetExecutionDescriptor where
  datasetId : Option Uuid
  connectorId : Option Uuid
  name : Option String
  materializationMode : Option String
  sourceKind : String
  connectorKind : Option String
  storageKind : String
  source : Option (Dict String AnyValue)
  sync : Option (Dict String AnyValue)
  relationIdentity : Dict String AnyValue
  executionCapabilities : Dict String AnyValue
  metadata : Dict String AnyValue
  freshness : Option DatasetFreshnessDescriptor

structure VirtualTableBinding where
  tableKey : String
  sourceId : String
  connectorId : Option Uuid
  schemaName : Option String
  table : String
  catalog : Option String
  stats : Option TableStatistics
  metadata : Dict String AnyValue
  datasetDescriptor : Option DatasetExecutionDescriptor

structure VirtualRelationship where
  name : String
  leftTable : String
  rightTable : String
  joinType : String
  condition : String

structure VirtualDataset where
  id : String
  name : String
  workspaceId : String
  tables : Dict String VirtualTableBinding
  relationships : List VirtualRelationship
  statsOverrides : Dict String TableStatistics
  nonempty : tables.entries ≠ []

structure FederationWorkflow where
  id : String
  workspaceId : String
  dataset : VirtualDataset
  broadcastThresholdBytes : ℤ
  partitionCount : ℤ
  maxStageRetries : ℤ
  stageParallelism : ℤ

/-! ## Their dumps and validations -/

open Codec

omit [PyText] in
def Uuid.codec : Codec Uuid :=
  ⟨fun u => .str u.text,
   fun | .str s => if h : isUuidText s = true then some ⟨s, h⟩ else none
       | _ => none⟩

omit [PyText] in
def TableStatistics.codec : Codec TableStatistics :=
  ⟨fun s => .obj [("row_count_estimate", float.optional.dump s.rowCountEstimate),
      ("bytes_per_row", float.dump s.bytesPerRow), ("distinct_estimates", float.dict.dump s.distinctEstimates)],
   fun | .obj es => do
         let rowCountEstimate ← float.optional.defaulted none es "row_count_estimate"
         let bytesPerRow ← float.defaulted "128.0" es "bytes_per_row"
         let distinctEstimates ← float.dict.defaulted Dict.empty es "distinct_estimates"
         return ⟨rowCountEstimate, bytesPerRow, distinctEstimates⟩
       | _ => none⟩

omit [PyText] in
def FreshnessPolicy.value : FreshnessPolicy → String
  | .revision => "revision"
  | .volatile => "volatile"
  | .unknown => "unknown"

omit [PyText] in
def FreshnessPolicy.codec : Codec FreshnessPolicy :=
  ⟨fun p => .str (FreshnessPolicy.value p),
   fun v => [FreshnessPolicy.revision, .volatile, .unknown].find? fun p => v.asStr = some (FreshnessPolicy.value p)⟩

def DatasetFreshnessDescriptor.codec : Codec DatasetFreshnessDescriptor :=
  ⟨fun f => .obj [("policy", FreshnessPolicy.codec.dump f.policy),
      ("freshness_key", text.optional.dump f.freshnessKey), ("revision_id", Uuid.codec.optional.dump f.revisionId),
      ("revision_hash", text.optional.dump f.revisionHash), ("reason", text.optional.dump f.reason)],
   fun | .obj es => do
         let policy ← FreshnessPolicy.codec.defaulted .unknown es "policy"
         let freshnessKey ← text.optional.defaulted none es "freshness_key"
         let revisionId ← Uuid.codec.optional.defaulted none es "revision_id"
         let revisionHash ← text.optional.defaulted none es "revision_hash"
         let reason ← text.optional.defaulted none es "reason"
         if h : policy = .revision → isBlank freshnessKey = false then
           some ⟨policy, freshnessKey, revisionId, revisionHash, reason, h⟩
         else none
       | _ => none⟩

def DatasetExecutionDescriptor.codec : Codec DatasetExecutionDescriptor :=
  ⟨fun d => .obj [("dataset_id", Uuid.codec.optional.dump d.datasetId),
      ("connector_id", Uuid.codec.optional.dump d.connectorId), ("name", text.optional.dump d.name),
      ("materialization_mode", text.optional.dump d.materializationMode), ("source_kind", text.dump d.sourceKind),
      ("connector_kind", text.optional.dump d.connectorKind), ("storage_kind", text.dump d.storageKind),
      ("source", any.dict.optional.dump d.source), ("sync", any.dict.optional.dump d.sync),
      ("relation_identity", any.dict.dump d.relationIdentity),
      ("execution_capabilities", any.dict.dump d.executionCapabilities), ("metadata", any.dict.dump d.metadata),
      ("freshness", DatasetFreshnessDescriptor.codec.optional.dump d.freshness)],
   fun | .obj es => do
         let datasetId ← Uuid.codec.optional.defaulted none es "dataset_id"
         let connectorId ← Uuid.codec.optional.defaulted none es "connector_id"
         let name ← text.optional.defaulted none es "name"
         let materializationMode ← text.optional.defaulted none es "materialization_mode"
         let sourceKind ← text.required es "source_kind"
         let connectorKind ← text.optional.defaulted none es "connector_kind"
         let storageKind ← text.required es "storage_kind"
         let source ← any.dict.optional.defaulted none es "source"
         let sync ← any.dict.optional.defaulted none es "sync"
         let relationIdentity ← any.dict.defaulted Dict.empty es "relation_identity"
         let executionCapabilities ← any.dict.defaulted Dict.empty es "execution_capabilities"
         let metadata ← any.dict.defaulted Dict.empty es "metadata"
         let freshness ← DatasetFreshnessDescriptor.codec.optional.defaulted none es "freshness"
         return ⟨datasetId, connectorId, name, materializationMode, sourceKind, connectorKind, storageKind, source, sync,
           relationIdentity, executionCapabilities, metadata, freshness⟩
       | _ => none⟩

/-- the key under which a dump shows the schema: its alias when the dump is by alias -/
def schemaKey (byAlias : Bool) : String := if byAlias then "schema" else "schema_name"

/-- `model_dump(mode="json", by_alias=byAlias)` -/
def VirtualTableBinding.dump (byAlias : Bool) (b : VirtualTableBinding) : Json :=
  .obj [("table_key", text.dump b.tableKey), ("source_id", text.dump b.sourceId),
    ("connector_id", Uuid.codec.optional.dump b.connectorId), (schemaKey byAlias, text.optional.dump b.schemaName),
    ("table", text.dump b.table), ("catalog", text.optional.dump b.catalog),
    ("stats", TableStatistics.codec.optional.dump b.stats), ("metadata", any.dict.dump b.metadata),
    ("dataset_descriptor", DatasetExecutionDescriptor.codec.optional.dump b.datasetDescriptor)]

def VirtualTableBinding.validate : Json → Option VirtualTableBinding
  | .obj es => do
    let tableKey ← text.required es "table_key"
    let sourceId ← text.required es "source_id"
    let connectorId ← Uuid.codec.optional.defaulted none es "connector_id"
    let schemaName ← text.optional.defaulted none es "schema"
    let table ← text.required es "table"
    let catalog ← text.optional.defaulted none es "catalog"
    let stats ← TableStatistics.codec.optional.defaulted none es "stats"
    let metadata ← any.dict.defaulted Dict.empty es "metadata"
    let datasetDescriptor ← DatasetExecutionDescriptor.codec.optional.defaulted none es "dataset_descriptor"
    return ⟨tableKey, sourceId, connectorId, schemaName, table, catalog, stats, metadata, datasetDescriptor⟩
  | _ => none

def VirtualTableBinding.codec (byAlias : Bool) : Codec VirtualTableBinding :=
  ⟨VirtualTableBinding.dump byAlias, VirtualTableBinding.validate⟩

def VirtualRelationship.codec : Codec VirtualRelationship :=
  ⟨fun r => .obj [("name", text.dump r.name), ("left_table", text.dump r.leftTable),
      ("right_table", text.dump r.rightTable), ("join_type", text.dump r.joinType),
      ("condition", text.dump r.condition)],
   fun | .obj es => do
         let name ← text.required es "name"
         let leftTable ← text.required es "left_table"
         let rightTable ← text.required es "right_table"
         let joinType ← text.defaulted "inner" es "join_type"
         let condition ← text.required es "condition"
         return ⟨name, leftTable, rightTable, joinType, condition⟩
       | _ => none⟩

def VirtualDataset.dump (byAlias : Bool) (d : VirtualDataset) : Json :=
  .obj [("id", text.dump d.id), ("name", text.dump d.name), ("workspace_id", text.dump d.workspaceId),
    ("tables", (VirtualTableBinding.codec byAlias).dict.dump d.tables),
    ("relationships", VirtualRelationship.codec.list.dump d.relationships),
    ("stats_overrides", TableStatistics.codec.dict.dump d.statsOverrides)]

def VirtualDataset.validate : Json → Option VirtualDataset
  | .obj es => do
    let id ← text.required es "id"
    let name ← text.required es "name"
    let workspaceId ← text.required es "workspace_id"
    let tables ← (VirtualTableBinding.codec false).dict.required es "tables"
    let relationships ← VirtualRelationship.codec.list.defaulted [] es "relationships"
    let statsOverrides ← TableStatistics.codec.dict.defaulted Dict.empty es "stats_overrides"
    if h : tables.entries ≠ [] then some ⟨id, name, workspaceId, tables, relationships, statsOverrides, h⟩
    else none
  | _ => none

def VirtualDataset.codec (byAlias : Bool) : Codec VirtualDataset :=
  ⟨VirtualDataset.dump byAlias, VirtualDataset.validate⟩

def FederationWorkflow.dump (byAlias : Bool) (w : FederationWorkflow) : Json :=
  .obj [("id", text.dump w.id), ("workspace_id", text.dump w.workspaceId),
    ("dataset", (VirtualDataset.codec byAlias).dump w.dataset),
    ("broadcast_threshold_bytes", integer.dump w.broadcastThresholdBytes),
    ("partition_count", integer.dump w.partitionCount), ("max_stage_retries", integer.dump w.maxStageRetries),
    ("stage_parallelism", integer.dump w.stageParallelism)]

def FederationWorkflow.validate : Json → Option FederationWorkflow
  | .obj es => do
    let id ← text.required es "id"
    let workspaceId ← text.required es "workspace_id"
    let dataset ← (VirtualDataset.codec false).required es "dataset"
    let broadcastThresholdBytes ← integer.defaulted (64 * 1024 * 1024) es "broadcast_threshold_bytes"
    let partitionCount ← integer.defaulted 8 es "partition_count"
    let maxStageRetries ← integer.defaulted 2 es "max_stage_retries"
    let stageParallelism ← integer.defaulted 4 es "stage_parallelism"
    return ⟨id, workspaceId, dataset, broadcastThresholdBytes, partitionCount, maxStageRetries, stageParallelism⟩
  | _ => none

def FederationWorkflow.codec (byAlias : Bool) : Codec FederationWorkflow :=
  ⟨FederationWorkflow.dump byAlias, FederationWorkflow.validate⟩

/-! ## The payload of the query tool -/

/-- an entry of a mapping is changed in place -/
def update (key : String) (f : Json → Json) : Json → Json
  | .obj es => .obj (updateEntries key f es)
  | v => v

/-- each value of a mapping is changed in place -/
def updateEach (f : Json → Json) : Json → Json
  | .obj es => .obj (es.map fun e => (e.1, f e.2))
  | v => v

/-- a table that has a schema gets it as `schema_name` too, unless it has one -/
def addSchemaName : Json → Json
  | .obj es =>
    match es.lookup "schema" with
    | none => .obj es
    | some schema =>
      if schema.isNull = false ∧ es.lookup "schema_name" = none then .obj (es ++ [("schema_name", schema)])
      else .obj es
  | v => v

/-- the loop of `_serialize_workflow_payload` over the tables of a payload -/
def addSchemaNames (payload : Json) : Json := update "dataset" (update "tables" (updateEach addSchemaName)) payload

/-- the services that hand a workflow to the query tool -/
inductive ProducingPath
  | datasetQuery | sqlQuery | vectorSearch | semanticQuery | unifiedSemanticQuery
deriving DecidableEq

def ProducingPath.serialize (w : FederationWorkflow) : ProducingPath → Json
  | .datasetQuery => w.dump false
  | .sqlQuery => w.dump false
  | .vectorSearch => w.dump false
  | .semanticQuery => addSchemaNames (w.dump true)
  | .unifiedSemanticQuery => addSchemaNames (addSchemaNames (w.dump true))

/-- `dict[str, Any] | str` -/
inductive Document where
  | mapping (entries : List (String × Json))
  | text (s : String)

omit [PyText] in
def Document.codec : Codec Document :=
  ⟨fun | .mapping es => .obj es
       | .text s => .str s,
   fun | .obj es => some (.mapping es)
       | .str s => some (.text s)
       | _ => none⟩

structure FederatedQueryToolRequest where
  workspaceId : String
  query : Document
  dialect : String
  workflow : FederationWorkflow
  semanticModel : Option Document

def FederatedQueryToolRequest.validate : Json → Option FederatedQueryToolRequest
  | .obj es => do
    let workspaceId ← text.required es "workspace_id"
    let query ← Document.codec.required es "query"
    let dialect ← text.defaulted "tsql" es "dialect"
    let workflow ← (FederationWorkflow.codec false).required es "workflow"
    let semanticModel ← Document.codec.optional.defaulted none es "semantic_model"
    return ⟨workspaceId, query, dialect, workflow, semanticModel⟩
  | _ => none

/-- what a service hands to the tool; only the semantic paths have a semantic model -/
structure ToolCall where
  path : ProducingPath
  workspaceId : String
  query : Document
  dialect : String
  semanticModel : Option Document

def ToolCall.payload (call : ToolCall) (w : FederationWorkflow) : Json :=
  .obj ([("workspace_id", text.dump call.workspaceId), ("query", Document.codec.dump call.query),
    ("dialect", text.dump call.dialect), ("workflow", call.path.serialize w)] ++
    Json.entry Document.codec.dump "semantic_model" call.semanticModel)

def ToolCall.received (call : ToolCall) (w : FederationWorkflow) : Option FederationWorkflow :=
  (FederatedQueryToolRequest.validate (call.payload w)).map FederatedQueryToolRequest.workflow

/-! ## What the dumps are validated as -/

omit [PyText] in
theorem Uuid.codec_reads : Uuid.codec.Reads id := by
  intro u
  exact dif_pos u.canonical

omit [PyText] in
theorem Uuid.codec_neverNull : Uuid.codec.NeverNull := by
  intro u h
  cases h

omit [PyText] in
theorem TableStatistics.codec_reads : TableStatistics.codec.Reads id := by
  intro s
  have hrows := optional_reads float_reads float_neverNull s.rowCountEstimate
  have hbytes := float_reads s.bytesPerRow
  have hestimates := dict_reads float_reads s.distinctEstimates
  rw [Option.map_id] at hrows
  rw [mapValues_id] at hestimates
  simp only [TableStatistics.codec, defaulted_cons_self, defaulted_cons_of_ne, ne_eq, String.reduceEq,
    not_false_eq_true, hrows, hbytes, hestimates]
  rfl

omit [PyText] in
theorem TableStatistics.codec_neverNull : TableStatistics.codec.NeverNull := by
  intro s h
  cases h

omit [PyText] in
theorem FreshnessPolicy.codec_reads : FreshnessPolicy.codec.Reads id := by
  intro p
  cases p <;> decide +kernel

theorem DatasetFreshnessDescriptor.codec_reads : DatasetFreshnessDescriptor.codec.Reads id := by
  intro f
  have hpolicy := FreshnessPolicy.codec_reads f.policy
  have hkey := optional_reads text_reads text_neverNull f.freshnessKey
  have hid := optional_reads Uuid.codec_reads Uuid.codec_neverNull f.revisionId
  have hhash := optional_reads text_reads text_neverNull f.revisionHash
  have hreason := optional_reads text_reads text_neverNull f.reason
  rw [Option.map_id] at hkey hid hhash hreason
  simp only [DatasetFreshnessDescriptor.codec, defaulted_cons_self, defaulted_cons_of_ne, ne_eq, String.reduceEq,
    not_false_eq_true, hpolicy, hkey, hid, hhash, hreason]
  exact dif_pos f.keyed

theorem DatasetFreshnessDescriptor.codec_neverNull : DatasetFreshnessDescriptor.codec.NeverNull := by
  intro f h
  cases h

/-- the values of the `Any` fields come back as they were dumped -/
def DatasetExecutionDescriptor.read (d : DatasetExecutionDescriptor) : DatasetExecutionDescriptor :=
  { d with
    source := d.source.map (Dict.mapValues AnyValue.read)
    sync := d.sync.map (Dict.mapValues AnyValue.read)
    relationIdentity := d.relationIdentity.mapValues AnyValue.read
    executionCapabilities := d.executionCapabilities.mapValues AnyValue.read
    metadata := d.metadata.mapValues AnyValue.read }

theorem DatasetExecutionDescriptor.codec_reads :
    DatasetExecutionDescriptor.codec.Reads DatasetExecutionDescriptor.read := by
  intro d
  have huuid := fun u => optional_reads Uuid.codec_reads Uuid.codec_neverNull u
  have htext := fun t => optional_reads text_reads text_neverNull t
  have hany := fun m => dict_reads any_reads m
  have hoptional := fun m => optional_reads (dict_reads any_reads) (dict_neverNull any) m
  have hfreshness := fun f =>
    optional_reads DatasetFreshnessDescriptor.codec_reads DatasetFreshnessDescriptor.codec_neverNull f
  simp only [Option.map_id, id] at huuid htext hfreshness
  simp only [DatasetExecutionDescriptor.codec, required_cons_self, required_cons_of_ne, defaulted_cons_self,
    defaulted_cons_of_ne, ne_eq, String.reduceEq, not_false_eq_true, text_validate, huuid, htext, hany, hoptional,
    hfreshness]
  rfl

theorem DatasetExecutionDescriptor.codec_neverNull : DatasetExecutionDescriptor.codec.NeverNull := by
  intro d h
  cases h

/-- the schema comes back from a dump by alias only -/
def VirtualTableBinding.read (byAlias : Bool) (b : VirtualTableBinding) : VirtualTableBinding :=
  { b with
    schemaName := if byAlias then b.schemaName else none
    metadata := b.metadata.mapValues AnyValue.read
    datasetDescriptor := b.datasetDescriptor.map DatasetExecutionDescriptor.read }

theorem VirtualTableBinding.codec_reads (byAlias : Bool) :
    (VirtualTableBinding.codec byAlias).Reads (VirtualTableBinding.read byAlias) := by
  intro b
  have huuid := fun u => optional_reads Uuid.codec_reads Uuid.codec_neverNull u
  have htext := fun t => optional_reads text_reads text_neverNull t
  have hstats := fun t => optional_reads TableStatistics.codec_reads TableStatistics.codec_neverNull t
  have hany := fun m => dict_reads any_reads m
  have hdescriptor := fun d =>
    optional_reads DatasetExecutionDescriptor.codec_reads DatasetExecutionDescriptor.codec_neverNull d
  simp only [Option.map_id, id] at huuid htext hstats
  cases byAlias with
  | true =>
    simp only [VirtualTableBinding.codec, VirtualTableBinding.dump, VirtualTableBinding.validate, schemaKey, if_true,
      required_cons_self, required_cons_of_ne, defaulted_cons_self, defaulted_cons_of_ne, ne_eq, String.reduceEq,
      not_false_eq_true, text_validate, huuid, htext, hstats, hany, hdescriptor]
    rfl
  | false =>
    simp only [VirtualTableBinding.codec, VirtualTableBinding.dump, VirtualTableBinding.validate, schemaKey,
      Bool.false_eq_true, if_false, required_cons_self, required_cons_of_ne, defaulted_cons_self, defaulted_cons_of_ne,
      defaulted_nil, ne_eq, String.reduceEq, not_false_eq_true, text_validate, huuid, htext, hstats, hany, hdescriptor]
    rfl

omit [PyText] in
theorem VirtualRelationship.codec_reads : VirtualRelationship.codec.Reads id := by
  intro r
  rfl

def VirtualDataset.read (byAlias : Bool) (d : VirtualDataset) : VirtualDataset :=
  { d with
    tables := d.tables.mapValues (VirtualTableBinding.read byAlias)
    nonempty := fun h => d.nonempty (map_eq_nil_iff.1 h) }

theorem VirtualDataset.codec_reads (byAlias : Bool) :
    (VirtualDataset.codec byAlias).Reads (VirtualDataset.read byAlias) := by
  intro d
  have htables : (VirtualTableBinding.codec false).dict.validate
      ((VirtualTableBinding.codec byAlias).dict.dump d.tables) =
        some (d.tables.mapValues (VirtualTableBinding.read byAlias)) :=
    dict_reads (VirtualTableBinding.codec_reads byAlias) d.tables
  have hrelationships := list_reads VirtualRelationship.codec_reads d.relationships
  have hstats := dict_reads TableStatistics.codec_reads d.statsOverrides
  rw [List.map_id] at hrelationships
  rw [mapValues_id] at hstats
  simp only [VirtualDataset.codec, VirtualDataset.dump, VirtualDataset.validate, required_cons_self,
    required_cons_of_ne, defaulted_cons_self, defaulted_cons_of_ne, ne_eq, String.reduceEq, not_false_eq_true,
    text_validate, htables, hrelationships, hstats]
  exact dif_pos (VirtualDataset.read byAlias d).nonempty

/-- the workflow as it comes back -/
def FederationWorkflow.read (byAlias : Bool) (w : FederationWorkflow) : FederationWorkflow :=
  { w with dataset := w.dataset.read byAlias }

theorem FederationWorkflow.codec_reads (byAlias : Bool) :
    (FederationWorkflow.codec byAlias).Reads (FederationWorkflow.read byAlias) := by
  intro w
  have hdataset : (VirtualDataset.codec false).validate ((VirtualDataset.codec byAlias).dump w.dataset) =
      some (w.dataset.read byAlias) := VirtualDataset.codec_reads byAlias w.dataset
  simp only [FederationWorkflow.codec, FederationWorkflow.dump, FederationWorkflow.validate, required_cons_self,
    required_cons_of_ne, defaulted_cons_self, defaulted_cons_of_ne, ne_eq, String.reduceEq, not_false_eq_true,
    text_validate, integer_validate, hdataset]
  rfl

/-! ## The keys that the semantic path adds -/

theorem validate_addSchemaName (v : Json) :
    VirtualTableBinding.validate (addSchemaName v) = VirtualTableBinding.validate v := by
  cases v with
  | obj es =>
    rw [addSchemaName]
    cases hschema : es.lookup "schema" with
    | none => rfl
    | some schema =>
      simp only
      split_ifs
      · -- validation does not know the added key
        simp only [VirtualTableBinding.validate, required_snoc_of_ne, defaulted_snoc_of_ne, ne_eq, String.reduceEq,
          not_false_eq_true]
      · rfl
  | _ => rfl

theorem validate_updateEach (v : Json) :
    (VirtualTableBinding.codec false).dict.validate (updateEach addSchemaName v) =
      (VirtualTableBinding.codec false).dict.validate v := by
  cases v with
  | obj es =>
    have hentries := validateEntries_map (VirtualTableBinding.codec false) addSchemaName validate_addSchemaName es
    simp only [updateEach, dict, hentries]
  | _ => rfl

theorem validate_updateTables (v : Json) :
    VirtualDataset.validate (update "tables" (updateEach addSchemaName) v) = VirtualDataset.validate v := by
  cases v with
  | obj es =>
    have htables := required_updateEntries (VirtualTableBinding.codec false).dict _ validate_updateEach "tables" es
    simp only [update, VirtualDataset.validate, htables, required_updateEntries_of_ne, defaulted_updateEntries_of_ne,
      ne_eq, String.reduceEq, not_false_eq_true]
  | _ => rfl

/-- **The added keys change nothing**, whatever the payload. -/
theorem validate_addSchemaNames (v : Json) :
    FederationWorkflow.validate (addSchemaNames v) = FederationWorkflow.validate v := by
  cases v with
  | obj es =>
    have hdataset := required_updateEntries (VirtualDataset.codec false) _ validate_updateTables "dataset" es
    simp only [addSchemaNames, update, FederationWorkflow.validate, required_updateEntries_of_ne,
      defaulted_updateEntries_of_ne, ne_eq, String.reduceEq, not_false_eq_true]
    rw [← hdataset]
  | _ => rfl

/-! ## Which workflows come back equal -/

/-- the path dumps its workflow by alias -/
def ProducingPath.byAlias : ProducingPath → Bool
  | .datasetQuery => false
  | .sqlQuery => false
  | .vectorSearch => false
  | .semanticQuery => true
  | .unifiedSemanticQuery => true

theorem validate_serialize (path : ProducingPath) (w : FederationWorkflow) :
    FederationWorkflow.validate (path.serialize w) = some (w.read path.byAlias) := by
  have hreads := fun byAlias => FederationWorkflow.codec_reads byAlias w
  cases path with
  | datasetQuery => exact hreads false
  | sqlQuery => exact hreads false
  | vectorSearch => exact hreads false
  | semanticQuery => exact (validate_addSchemaNames _).trans (hreads true)
  | unifiedSemanticQuery =>
    exact ((validate_addSchemaNames _).trans (validate_addSchemaNames _)).trans (hreads true)

omit [PyText] in
theorem Document.codec_reads : Document.codec.Reads id := by
  intro d
  cases d with
  | mapping es => rfl
  | text s => rfl

omit [PyText] in
theorem Document.codec_neverNull : Document.codec.NeverNull := by
  intro d h
  cases d with
  | mapping es => cases h
  | text s => cases h

/-- **What the tool works with**: the workflow with its `Any` values as JSON, and with its schemas where the path dumps
by alias. -/
theorem ToolCall.received_eq (call : ToolCall) (w : FederationWorkflow) :
    call.received w = some (w.read call.path.byAlias) := by
  have hworkflow : (FederationWorkflow.codec false).validate (call.path.serialize w) =
      some (w.read call.path.byAlias) := validate_serialize call.path w
  have hquery := Document.codec_reads call.query
  have hmodel := optional_reads Document.codec_reads Document.codec_neverNull call.semanticModel
  rw [ToolCall.received, ToolCall.payload]
  cases hsemantic : call.semanticModel with
  | none =>
    simp only [Json.entry, append_nil, FederatedQueryToolRequest.validate, required_cons_self,
      required_cons_of_ne, defaulted_cons_self, defaulted_cons_of_ne, defaulted_nil, ne_eq, String.reduceEq,
      not_false_eq_true, text_validate, hquery, hworkflow]
    rfl
  | some document =>
    rw [hsemantic] at hmodel
    have hdocument : Document.codec.optional.validate (Document.codec.dump document) = some (some document) := hmodel
    simp only [Json.entry, cons_append, nil_append, FederatedQueryToolRequest.validate, required_cons_self,
      required_cons_of_ne, defaulted_cons_self, defaulted_cons_of_ne, ne_eq, String.reduceEq, not_false_eq_true,
      text_validate, hquery, hworkflow, hdocument]
    rfl

omit [PyText] in
/-- the values of a mapping of `Any` are all of types that JSON has -/
def isPlainDict (d : Dict String AnyValue) : Bool := d.entries.all fun e => e.2.isPlain

def DatasetExecutionDescriptor.isPlain (d : DatasetExecutionDescriptor) : Bool :=
  d.source.all isPlainDict && d.sync.all isPlainDict && isPlainDict d.relationIdentity &&
    isPlainDict d.executionCapabilities && isPlainDict d.metadata

def VirtualTableBinding.isPlain (b : VirtualTableBinding) : Bool :=
  isPlainDict b.metadata && b.datasetDescriptor.all DatasetExecutionDescriptor.isPlain

omit [PyText] in
theorem mapValues_read_iff (d : Dict String AnyValue) : d.mapValues AnyValue.read = d ↔ isPlainDict d = true := by
  rw [mapValues_eq_self_iff, isPlainDict, all_eq_true]
  exact forall₂_congr fun e _ => AnyValue.anyValue_read e.2

omit [PyText] in
/-- a part that may be missing comes back when it does so if it is there -/
theorem map_eq_self_iff {α : Type} {f : α → α} {p : α → Bool} (h : ∀ a, f a = a ↔ p a = true) (o : Option α) :
    o.map f = o ↔ o.all p = true := by
  cases o with
  | none => simp
  | some a => simp [h]

theorem DatasetExecutionDescriptor.read_eq_iff (d : DatasetExecutionDescriptor) : d.read = d ↔ d.isPlain = true := by
  obtain ⟨datasetId, connectorId, name, materializationMode, sourceKind, connectorKind, storageKind, source, sync,
    relationIdentity, executionCapabilities, metadata, freshness⟩ := d
  simp only [DatasetExecutionDescriptor.read, DatasetExecutionDescriptor.mk.injEq, DatasetExecutionDescriptor.isPlain,
    map_eq_self_iff mapValues_read_iff, mapValues_read_iff, Bool.and_eq_true, true_and, and_true, and_assoc]

theorem VirtualTableBinding.read_eq_iff (byAlias : Bool) (b : VirtualTableBinding) :
    b.read byAlias = b ↔ (byAlias = true ∨ b.schemaName = none) ∧ b.isPlain = true := by
  obtain ⟨tableKey, sourceId, connectorId, schemaName, table, catalog, stats, metadata, datasetDescriptor⟩ := b
  have hschema : ((if byAlias then schemaName else none) = schemaName) ↔ byAlias = true ∨ schemaName = none := by
    cases byAlias with
    | true => simp
    | false => simp [eq_comm]
  simp only [VirtualTableBinding.read, VirtualTableBinding.mk.injEq, VirtualTableBinding.isPlain, hschema,
    map_eq_self_iff DatasetExecutionDescriptor.read_eq_iff, mapValues_read_iff, Bool.and_eq_true, true_and]

theorem FederationWorkflow.read_eq_iff (byAlias : Bool) (w : FederationWorkflow) :
    w.read byAlias = w ↔ w.dataset.tables.mapValues (VirtualTableBinding.read byAlias) = w.dataset.tables := by
  obtain ⟨id, workspaceId, ⟨datasetId, name, datasetWorkspace, tables, relationships, statsOverrides, nonempty⟩,
    threshold, partitions, retries, parallelism⟩ := w
  simp only [FederationWorkflow.read, VirtualDataset.read, FederationWorkflow.mk.injEq, VirtualDataset.mk.injEq,
    true_and, and_true]

end Models

/-! ## A schema that is lost -/

section Lost

open scoped Ascii

def salesBinding : VirtualTableBinding :=
  ⟨"orders", "source_1", none, some "sales", "orders", none, none, Dict.empty, none⟩

def salesWorkflow : FederationWorkflow :=
  ⟨"workflow_1", "workspace_1",
    ⟨"dataset_1", "Sales", "workspace_1", ⟨[("orders", salesBinding)], nodup_singleton "orders"⟩, [], Dict.empty,
      cons_ne_nil _ _⟩, 67108864, 8, 2, 4⟩

def sqlCall : ToolCall := ⟨.sqlQuery, "workspace_1", .text "SELECT * FROM orders", "tsql", none⟩

end Lost

end Langbridge.Federation.Workflow
