/-
The analyst's tools and the access policy on connectors (`orchestrator/runtime/agent_orchestrator_factory.py`,
`access_policy.py`). An asset of an agent becomes a tool if the policy permits its connectors. A semantic model is
judged by the tables of the workflow that it runs, a dataset by its own connection, although the workflow of a federated
dataset has the tables of its children.
-/
import Langbridge.Runtime.FederatedDatasets

namespace Langbridge.Orchestrator.AnalystTools

open Core Federation Runtime.FederatedDatasets List Dict PyText Option
open Federation.Workflow (Uuid VirtualRelationship isUuidText)

/-! ## The access policy -/

/-- the connectors of `DataAccessPolicy` -/
structure DataAccessPolicy where
  allowedConnectors : List Uuid
  deniedConnectors : List Uuid

def DataAccessPolicy.hasRestrictions (p : DataAccessPolicy) : Bool :=
  p.allowedConnectors ≠ [] ∨ p.deniedConnectors ≠ []

/-- `ConnectorAuthorizationDecision` -/
structure ConnectorAuthorizationDecision where
  allowed : Bool
  policyRule : String
  policyRationale : String
  connectorIds : List Uuid
  deniedConnectorIds : List Uuid
  unknownConnectorOwnership : Bool

def sortedConnectorIds (ids : List Uuid) : List Uuid := ids.dedup.insertionSort fun a b => a.text ≤ b.text

def evaluateAssetConnectors (p : DataAccessPolicy) (connectorIds : List (Option Uuid)) :
    ConnectorAuthorizationDecision :=
  let resolved := sortedConnectorIds (connectorIds.filterMap id)
  let unknown := connectorIds.any Option.isNone
  let explicitlyDenied := sortedConnectorIds (resolved.filter (· ∈ p.deniedConnectors))
  let outsideAllowed := sortedConnectorIds
    (resolved.filter fun c => p.allowedConnectors ≠ [] ∧ c ∉ p.allowedConnectors)
  if p.hasRestrictions && (unknown || resolved.isEmpty) then
    ⟨false, "unknown_connector_ownership",
      "Connector ownership could not be resolved for this analytical asset, " ++
        "so it is blocked under the current access policy.", resolved, [], true⟩
  else if explicitlyDenied ≠ [] then
    ⟨false, "denied_connectors", "One or more backing connectors are explicitly denied by the agent access policy.",
      resolved, explicitlyDenied, false⟩
  else if outsideAllowed ≠ [] then
    ⟨false, "outside_allowed_connectors",
      "The asset uses backing connectors outside the agent's allowed connector scope.", resolved, outsideAllowed, false⟩
  else ⟨true, "allowed", "The asset is within the configured connector access scope.", resolved, [], false⟩

/-- a connector that the policy permits; one that is not known only where the policy restricts nothing -/
def DataAccessPolicy.Permits (p : DataAccessPolicy) : Option Uuid → Prop
  | none => p.hasRestrictions = false
  | some c => c ∉ p.deniedConnectors ∧ (p.allowedConnectors = [] ∨ c ∈ p.allowedConnectors)

theorem mem_sortedConnectorIds (ids : List Uuid) (c : Uuid) : c ∈ sortedConnectorIds ids ↔ c ∈ ids := by
  rw [sortedConnectorIds, mem_insertionSort, mem_dedup]

theorem sortedConnectorIds_eq_nil_iff (ids : List Uuid) : sortedConnectorIds ids = [] ↔ ids = [] := by
  simp only [eq_nil_iff_forall_not_mem, mem_sortedConnectorIds]

/-- **The policy** lets an asset through whose connectors are all permitted; with restrictions there must be one. -/
theorem evaluate_allowed_iff (p : DataAccessPolicy) (ids : List (Option Uuid)) :
    (evaluateAssetConnectors p ids).allowed = true ↔
      (p.hasRestrictions = true → ids ≠ []) ∧ ∀ c ∈ ids, p.Permits c := by
  have hunknown : (p.hasRestrictions && (ids.any Option.isNone || (sortedConnectorIds (ids.filterMap id)).isEmpty)) =
      true ↔ p.hasRestrictions = true ∧ (none ∈ ids ∨ ids.filterMap id = []) := by
    rw [Bool.and_eq_true, Bool.or_eq_true, List.any_eq_true, List.isEmpty_iff, sortedConnectorIds_eq_nil_iff]
    refine and_congr_right fun _ => or_congr_left ?_
    constructor
    · rintro ⟨c, hc, hnone⟩
      exact isNone_iff_eq_none.1 hnone ▸ hc
    · exact fun h => ⟨none, h, rfl⟩
  have hdenied : sortedConnectorIds ((sortedConnectorIds (ids.filterMap id)).filter (· ∈ p.deniedConnectors)) = [] ↔
      ∀ c, some c ∈ ids → c ∉ p.deniedConnectors := by
    rw [sortedConnectorIds_eq_nil_iff, filter_eq_nil_iff]
    simp [mem_sortedConnectorIds]
  have houtside : sortedConnectorIds ((sortedConnectorIds (ids.filterMap id)).filter
      fun c => p.allowedConnectors ≠ [] ∧ c ∉ p.allowedConnectors) = [] ↔
      ∀ c, some c ∈ ids → p.allowedConnectors = [] ∨ c ∈ p.allowedConnectors := by
    rw [sortedConnectorIds_eq_nil_iff, filter_eq_nil_iff]
    simp [mem_sortedConnectorIds, or_iff_not_imp_left]
  have hpermits : (∀ c ∈ ids, p.Permits c) ↔ (none ∈ ids → p.hasRestrictions = false) ∧
      (∀ c, some c ∈ ids → c ∉ p.deniedConnectors) ∧
        ∀ c, some c ∈ ids → p.allowedConnectors = [] ∨ c ∈ p.allowedConnectors := by
    constructor
    · exact fun h => ⟨h none, fun c hc => (h _ hc).1, fun c hc => (h _ hc).2⟩
    · rintro ⟨hnone, hfree, hinside⟩ (_ | c) hc
      · exact hnone hc
      · exact ⟨hfree c hc, hinside c hc⟩
  rw [hpermits, ← hdenied, ← houtside, evaluateAssetConnectors]
  split_ifs with hblocked hexplicit hout
  · obtain ⟨hrestricted, hnone⟩ := hunknown.1 hblocked
    refine iff_of_false not_false ?_
    rintro ⟨hne, hopen, -, -⟩
    rcases hnone with hnone | hempty
    · exact Bool.false_ne_true ((hopen hnone).symm.trans hrestricted)
    · obtain ⟨c, hc⟩ := exists_mem_of_ne_nil _ (hne hrestricted)
      cases c with
      | none => exact Bool.false_ne_true ((hopen hc).symm.trans hrestricted)
      | some c =>
        have hmem : c ∈ ids.filterMap id := mem_filterMap.2 ⟨some c, hc, rfl⟩
        rw [hempty] at hmem
        exact not_mem_nil hmem
  · exact iff_of_false not_false fun h => hexplicit h.2.2.1
  · exact iff_of_false not_false fun h => hout h.2.2.2
  · rw [hunknown, not_and_or] at hblocked
    refine iff_of_true rfl ⟨fun hrestricted => ?_, fun hnone => ?_, not_not.1 hexplicit, not_not.1 hout⟩
    · rintro rfl
      exact hblocked.elim (fun h => h hrestricted) fun h => h (.inr rfl)
    · rcases hblocked with hopen | hknown
      · exact Bool.eq_false_iff.2 hopen
      · exact absurd (.inl hnone) hknown

section Tools

variable [PyText]

/-! ## The factory -/

structure DatasetMetadata extends DatasetRecord where
  sqlAlias : String

/-- the catalog of datasets, where an identifier is that of the dataset found under it -/
structure Catalog where
  byId : Uuid → Option DatasetMetadata
  own : ∀ id d, byId id = some d → d.id = id

def Catalog.getForWorkspace (catalog : Catalog) (workspaceId datasetId : Uuid) : Option DatasetRecord :=
  ((catalog.byId datasetId).filter (·.workspaceId = workspaceId)).map DatasetMetadata.toDatasetRecord

/-- what is read of a dataset of a semantic model -/
structure SemanticDataset where
  datasetId : Option String
  relationName : Option String
  schemaName : Option String
  catalogName : Option String

structure SemanticModel where
  name : Option String
  datasets : Dict String SemanticDataset
  relationships : List VirtualRelationship

/-- `SemanticModelMetadata` -/
structure SemanticModelEntry where
  id : Uuid
  workspaceId : Uuid
  name : String
  contentYaml : String

/-- what the factory is given: the catalog, the semantic models with their loader, whether there is a federated query
tool, and what its resolver is given; `contextId` is the identifier of several datasets, made of the sorted texts of
theirs -/
structure Factory where
  catalog : Option Catalog
  semanticModels : Uuid → Option SemanticModelEntry
  loadSemanticModel : String → Except String SemanticModel
  parseYamlPayload : String → Dict String Json
  federatedQueryTool : Bool
  uuidOf : String → Option Uuid
  sql : Langbridge.Runtime.SqlGuards.SqlParser
  relationIdentity : DatasetRecord → Dict String Json
  contextId : List String → Uuid

def Factory.resolver (F : Factory) : Resolver where
  datasetProvider := none
  datasetRepository := F.catalog.map Catalog.getForWorkspace
  uuidOf := F.uuidOf
  sql := F.sql
  relationIdentity := F.relationIdentity

/-- an `AgentError` -/
def agentError {α : Type} (message : String) : Except BuildError α := .error (.other message)

/-! ## Workflows -/

/-- what is read of `FederationWorkflow` -/
structure FederationWorkflow where
  id : String
  workspaceId : String
  dataset : VirtualDataset
  relationships : List VirtualRelationship

def buildWorkflowForDataset (R : Resolver) (d : DatasetRecord) : Except BuildError FederationWorkflow :=
  match d.datasetType with
  | .federated => do
    let built ← buildFederatedDatasetWorkflow R d
    return ⟨built.workflowId, d.workspaceId.text, built.dataset, built.relationships⟩
  | _ => do
    let (binding, _) ← buildBinding R d .default
    return ⟨"workflow_dataset_" ++ hexPrefix d.id 12, d.workspaceId.text,
      ⟨"dataset_" ++ hexPrefix d.id 12, Dict.empty.set binding.tableKey binding, cons_ne_nil _ _⟩, []⟩

def extractDatasetRef (R : Resolver) (dataset : SemanticDataset) (raw : Option Json) :
    Except BuildError (Option Uuid) :=
  let value : Json :=
    match dataset.datasetId, raw with
    | some id, _ => .str id
    | none, some (.obj fields) => firstOf (Dict.ofList fields) ["dataset_id"] (get (Dict.ofList fields) "datasetId")
    | none, _ => .null
  match value with
  | .null => .ok none
  | .str "" => .ok none
  | .arr _ => .error (.other "unhashable type: 'list'")
  | .obj _ => .error (.other "unhashable type: 'dict'")
  | value => do
    let id ← parseUuid R value "semantic dataset dataset_id"
    return some id

/-- the arguments that a dataset of a semantic model is bound with -/
def semanticNames (datasetKey : String) (dataset : SemanticDataset) : BindingNames where
  tableKey := some datasetKey
  logicalSchema := dataset.schemaName.bind nonempty
  logicalTableName := dataset.relationName
  catalogName := dataset.catalogName

def bindSemanticDataset (R : Resolver) (workspaceId : Uuid) (raw : Dict String Json)
    (tables : Dict String VirtualTableBinding) (e : String × SemanticDataset) :
    Except BuildError (Dict String VirtualTableBinding) := do
  let ref ← extractDatasetRef R e.2 (raw.get? e.1)
  match ref with
  | none =>
    .error (.validation ("Semantic dataset '" ++ e.1 ++ "' must declare dataset_id for federated execution."))
  | some id =>
    let dataset ← loadDataset R workspaceId id e.1
    let (binding, _) ← buildBinding R dataset (semanticNames e.1 e.2)
    return tables.set e.1 binding

/-- the refusal of a `VirtualDataset` without tables -/
def virtualDataset (id : String) (tables : Dict String VirtualTableBinding) : Except BuildError VirtualDataset :=
  if h : tables.entries = [] then .error (.other "VirtualDataset requires at least one table binding.")
  else .ok ⟨id, tables, h⟩

def buildSemanticWorkflow (R : Resolver) (workspaceId : Uuid) (workflowId : String) (model : SemanticModel)
    (raw : Dict String Json) : Except BuildError FederationWorkflow := do
  let tables ← model.datasets.entries.foldlM (bindSemanticDataset R workspaceId raw) Dict.empty
  let dataset ← virtualDataset ("semantic_dataset_" ++ hexPrefix workspaceId 12) tables
  return ⟨workflowId, workspaceId.text, dataset, model.relationships⟩

/-- one of several datasets of an asset -/
def bindSelected (R : Resolver) (tables : Dict String VirtualTableBinding) (d : DatasetMetadata) :
    Except BuildError (Dict String VirtualTableBinding) :=
  let sqlAlias := norm d.sqlAlias
  if sqlAlias = "" then agentError ("Dataset '" ++ d.name ++ "' is missing a sql_alias.")
  else do
    let (binding, _) ← buildBinding R d.toDatasetRecord ⟨some sqlAlias, none, some sqlAlias, none⟩
    return tables.set binding.tableKey binding

def sortedIds (datasets : List DatasetMetadata) : List String :=
  (datasets.map (·.id.text)).insertionSort fun a b => a ≤ b

def buildDatasetWorkflow (F : Factory) (first : DatasetMetadata) (others : List DatasetMetadata) :
    Except BuildError FederationWorkflow :=
  if others = [] then buildWorkflowForDataset F.resolver first.toDatasetRecord
  else do
    let tables ← (first :: others).foldlM (bindSelected F.resolver) Dict.empty
    let contextId := F.contextId (sortedIds (first :: others))
    let dataset ← virtualDataset ("dataset_context_" ++ hexPrefix contextId 12) tables
    return ⟨"workflow_dataset_" ++ hexPrefix contextId 12, first.workspaceId.text, dataset, []⟩

/-! ## Tools -/

/-- a dataset or a semantic model that the agent may ask -/
structure SqlAnalystTool where
  assetType : String
  assetId : String
  assetName : String
  workspaceId : String
  workflow : FederationWorkflow

/-- what a tool sends to the federated query tool -/
structure FederatedRequest where
  workspaceId : String
  query : String
  dialect : String
  workflow : FederationWorkflow

/-- `_FederatedSqlExecutor.execute_sql` -/
def SqlAnalystTool.executeSql (tool : SqlAnalystTool) (sql dialect : String) : FederatedRequest :=
  ⟨tool.workspaceId, sql, dialect, tool.workflow⟩

/-- `AnalyticalDeniedAsset` -/
structure AnalyticalDeniedAsset where
  assetType : String
  assetId : String
  assetName : String
  datasetNames : List String
  sqlAliases : List String
  decision : ConnectorAuthorizationDecision

def buildDeniedAsset (assetType assetId assetName : String) (datasetNames sqlAliases : List String)
    (decision : ConnectorAuthorizationDecision) : AnalyticalDeniedAsset where
  assetType
  assetId
  assetName
  datasetNames := datasetNames.filter fun name => strip name ≠ ""
  sqlAliases := sqlAliases.filter fun sqlAlias => strip sqlAlias ≠ ""
  decision

/-- what an asset of the agent has become -/
inductive Asset where
  | tool (tool : SqlAnalystTool)
  | denied (asset : AnalyticalDeniedAsset)

/-- `SqlToolConfig`: datasets or semantic models -/
structure SqlToolConfig where
  datasetIds : List Uuid
  semanticModelIds : List Uuid
  either : (datasetIds = []) ≠ (semanticModelIds = [])

inductive ToolType where
  | web
  | sql
  | doc
deriving DecidableEq

/-- `ToolBinding`, whose configuration may not be one of a SQL tool -/
structure ToolBinding where
  name : String
  toolType : Option ToolType
  description : Option String
  config : Option SqlToolConfig

/-- what is read of `AgentDefinitionModel` -/
structure AgentDefinition where
  tools : List ToolBinding
  accessPolicy : DataAccessPolicy

/-- `AnalystBinding` -/
structure AnalystBinding where
  name : String
  description : Option String
  datasetIds : List Uuid
  semanticModelIds : List Uuid

/-- the bindings that `_build_agent_tool_config` makes of the SQL tools -/
def analystBindings (definition : AgentDefinition) : List AnalystBinding :=
  (definition.tools.filter (·.toolType = some .sql)).filterMap fun tool =>
    tool.config.map fun config => ⟨tool.name, tool.description, config.datasetIds, config.semanticModelIds⟩

def loadDatasets (F : Factory) (ids : List Uuid) : Except BuildError (List DatasetMetadata) :=
  match F.catalog with
  | none => agentError "Dataset repository is required for dataset-backed analysis."
  | some catalog => ids.mapM fun id =>
    match catalog.byId id with
    | none => agentError ("Dataset '" ++ id.text ++ "' was not found.")
    | some d => .ok d

/-- `_resolve_dataset_asset_identity` -/
def assetIdentity (F : Factory) (first : DatasetMetadata) (others : List DatasetMetadata) (binding : AnalystBinding) :
    String × String :=
  if others = [] then (first.id.text, first.name)
  else ((F.contextId (sortedIds (first :: others))).text,
    (binding.description.bind nonempty).getD (", ".intercalate ((first :: others).map (·.name))))

def datasetAsset (F : Factory) (policy : DataAccessPolicy) (binding : AnalystBinding) : Except BuildError Asset := do
  let datasets ← loadDatasets F binding.datasetIds
  match datasets with
  | [] => .error (.other "list index out of range")
  | first :: others =>
    let (assetId, assetName) := assetIdentity F first others binding
    let decision := evaluateAssetConnectors policy ((first :: others).map (·.connectionId))
    if decision.allowed then
      let workflow ← buildDatasetWorkflow F first others
      return .tool ⟨"dataset", assetId, assetName, first.workspaceId.text, workflow⟩
    else
      return .denied (buildDeniedAsset "dataset" assetId assetName ((first :: others).map (·.name))
        ((first :: others).map (·.sqlAlias)) decision)

def connectorOf (b : VirtualTableBinding) : Option Uuid :=
  b.connectorId.bind fun text => if h : isUuidText text = true then some ⟨text, h⟩ else none

def boundName (F : Factory) (workspaceId : Uuid) (b : VirtualTableBinding) : String :=
  let id := (b.metadata.get? "dataset_id").bind fun value => if value.truthy then F.uuidOf value.text else none
  let dataset := id.bind fun id => F.catalog.bind fun catalog => catalog.getForWorkspace workspaceId id
  (dataset.map (·.name)).getD b.table

/-- the datasets or the tables of the text of a semantic model -/
def rawDatasets (payload : Dict String Json) : Dict String Json :=
  match get payload "datasets", get payload "tables" with
  | .obj datasets, _ => Dict.ofList datasets
  | _, .obj tables => Dict.ofList tables
  | _, _ => Dict.empty

def semanticAsset (F : Factory) (policy : DataAccessPolicy) (binding : AnalystBinding) (id : Uuid) :
    Except BuildError (Option Asset) :=
  match F.semanticModels id with
  | none => .ok none
  | some entry => do
    let model ← (match F.loadSemanticModel entry.contentYaml with
      | .error m => .error (.other m)
      | .ok model => .ok model)
    let workflow ← buildSemanticWorkflow F.resolver entry.workspaceId
      ("workflow_semantic_agent_" ++ hexPrefix entry.id 12) model (rawDatasets (F.parseYamlPayload entry.contentYaml))
    let tables := workflow.dataset.tables.values
    let decision := evaluateAssetConnectors policy (tables.map connectorOf)
    let assetName := (nonempty entry.name).getD ((model.name.bind nonempty).getD binding.name)
    if decision.allowed then
      return some (.tool ⟨"semantic_model", entry.id.text, assetName, entry.workspaceId.text, workflow⟩)
    else
      return some (.denied (buildDeniedAsset "semantic_model" entry.id.text assetName
        (tables.map (boundName F entry.workspaceId)) (tables.map (·.tableKey)) decision))

def assetsOf (F : Factory) (policy : DataAccessPolicy) (binding : AnalystBinding) : Except BuildError (List Asset) :=
  if binding.datasetIds ≠ [] then do
    let asset ← datasetAsset F policy binding
    return [asset]
  else do
    let assets ← binding.semanticModelIds.mapM (semanticAsset F policy binding)
    return assets.filterMap id

/-- `AnalystToolBuildResult`, with its access scope -/
structure AnalystToolBuildResult where
  tools : List SqlAnalystTool
  policyEnforced : Bool
  deniedAssets : List AnalyticalDeniedAsset

def Asset.tool? : Asset → Option SqlAnalystTool
  | tool t => some t
  | denied _ => none

def Asset.denied? : Asset → Option AnalyticalDeniedAsset
  | tool _ => none
  | denied a => some a

/-- `_build_analyst_tools`, for the bindings of an agent's definition -/
def buildAnalystTools (F : Factory) (definition : AgentDefinition) : Except BuildError AnalystToolBuildResult :=
  if analystBindings definition = [] ∨ F.federatedQueryTool = false then .ok ⟨[], false, []⟩
  else do
    let assets ← (analystBindings definition).mapM (assetsOf F definition.accessPolicy)
    return ⟨assets.flatten.filterMap Asset.tool?, definition.accessPolicy.hasRestrictions,
      assets.flatten.filterMap Asset.denied?⟩

/-! ## The connector of a table -/

structure Reads (catalog : Catalog) (b : VirtualTableBinding) (d : DatasetMetadata) : Prop where
  found : catalog.byId d.id = some d
  named : b.metadata.get? "dataset_id" = some (.str d.id.text)
  connector : b.connectorId = none ∨ b.connectorId = d.connectionId.map (·.text)

def PermittedTables (F : Factory) (policy : DataAccessPolicy) (tables : Dict String VirtualTableBinding) : Prop :=
  ∀ key b, tables.get? key = some b →
    ∃ catalog d, F.catalog = some catalog ∧ Reads catalog b d ∧ policy.Permits d.connectionId

omit [PyText] in
theorem uuid_eq_of_text {u v : Uuid} (h : u.text = v.text) : u = v := by
  cases u
  cases h
  rfl

variable {catalog : Catalog} {b : VirtualTableBinding}

theorem Reads.unique {d d' : DatasetMetadata} (h : Reads catalog b d) (h' : Reads catalog b d') : d = d' := by
  have hnamed := h.named.symm.trans h'.named
  have hid : d.id = d'.id := uuid_eq_of_text (by simpa using hnamed)
  exact Option.some.inj (h.found.symm.trans (hid ▸ h'.found))

theorem dataset_of_bindingOf (d : DatasetRecord) (names : BindingNames)
    (descriptor : DatasetDescriptor × SourceKind × StorageKind) (sourceId : String) (connectorId : Option Uuid)
    (catalog : Option String) (extra : List (String × Json)) (h : "dataset_id" ∉ extra.map Prod.fst) :
    (bindingOf d names descriptor sourceId connectorId catalog extra).metadata.get? "dataset_id" =
      some (.str d.id.text) := by
  refine (get?_foldl_set_iff _ _ _ _).2 (.inl ⟨[], [("source_kind", .str descriptor.2.1.value),
    ("storage_kind", .str descriptor.2.2.value), ("materialization_mode", .str (materializationMode d))] ++ extra,
    rfl, ?_⟩)
  rw [map_append, mem_append, not_or]
  exact ⟨by simp, h⟩

variable {R : Resolver} {dialect : String}

/-- **What a binding reads**: it names its dataset, and has the dataset's connection or none. -/
theorem reads_of_buildBinding {d : DatasetMetadata} {names : BindingNames} (hfound : catalog.byId d.id = some d)
    (h : buildBinding R d.toDatasetRecord names = .ok (b, dialect)) : Reads catalog b d := by
  obtain ⟨descriptor, -, h⟩ := of_bind_ok h
  have hconnection : ∀ {kind : String} {c : Uuid}, connectionOf d.toDatasetRecord kind = .ok c →
      d.connectionId = some c := by
    intro kind c hc
    rw [connectionOf] at hc
    cases hd : d.connectionId with
    | none => simp [hd] at hc
    | some c' => simpa [hd] using hc
  cases htype : d.datasetType with
  | table =>
    simp only [htype] at h
    obtain ⟨c, hc, h⟩ := of_bind_ok h
    obtain rfl := (Prod.mk.inj (Except.ok.inj h)).1
    exact ⟨hfound, dataset_of_bindingOf _ _ _ _ _ _ _ (by simp), .inr (by rw [hconnection hc]; rfl)⟩
  | sql =>
    simp only [htype] at h
    obtain ⟨c, hc, h⟩ := of_bind_ok h
    split_ifs at h
    split at h
    · cases h
    · obtain rfl := (Prod.mk.inj (Except.ok.inj h)).1
      exact ⟨hfound, dataset_of_bindingOf _ _ _ _ _ _ _ (by simp), .inr (by rw [hconnection hc]; rfl)⟩
  | api =>
    simp only [htype] at h
    obtain ⟨c, hc, h⟩ := of_bind_ok h
    split_ifs at h
    obtain rfl := (Prod.mk.inj (Except.ok.inj h)).1
    exact ⟨hfound, dataset_of_bindingOf _ _ _ _ _ _ _ (by simp), .inr (by rw [hconnection hc]; rfl)⟩
  | file =>
    simp only [htype] at h
    obtain ⟨storageUri, -, h⟩ := of_bind_ok h
    obtain ⟨format, -, h⟩ := of_bind_ok h
    obtain rfl := (Prod.mk.inj (Except.ok.inj h)).1
    refine ⟨hfound, dataset_of_bindingOf _ _ _ _ _ _ _ ?_, .inl rfl⟩
    simp [mem_filterMap]
  | federated =>
    simp only [htype] at h
    cases h

variable {F : Factory} {policy : DataAccessPolicy}

variable {workspaceId id : Uuid}

theorem loaded_of_resolver {tableKey : String} {record : DatasetRecord}
    (h : loadDataset F.resolver workspaceId id tableKey = .ok record) :
    ∃ catalog d, F.catalog = some catalog ∧ catalog.byId d.id = some d ∧ record = d.toDatasetRecord := by
  have hor : F.resolver.datasetProvider.or F.resolver.datasetRepository = F.catalog.map Catalog.getForWorkspace := rfl
  rw [loadDataset, hor] at h
  cases hcatalog : F.catalog with
  | none => simp [hcatalog] at h
  | some catalog =>
    simp only [hcatalog, map_some] at h
    cases hfind : catalog.getForWorkspace workspaceId id with
    | none => simp [hfind] at h
    | some found =>
      simp only [hfind] at h
      cases h
      obtain ⟨d, hd, rfl⟩ := map_eq_some_iff.1 hfind
      have hbyId := (filter_eq_some_iff.1 hd).1
      exact ⟨catalog, d, rfl, by rw [catalog.own id d hbyId, hbyId], rfl⟩

/-- the connector of a binding is its dataset's where the policy restricts anything -/
theorem permits_of_connectorOf {d : DatasetMetadata}
    (hreads : Reads catalog b d) (h : policy.Permits (connectorOf b)) : policy.Permits d.connectionId := by
  rcases hreads.connector with hnone | hsome
  · have hopen : policy.hasRestrictions = false := by
      rw [connectorOf, hnone] at h
      exact h
    have hlists : policy.allowedConnectors = [] ∧ policy.deniedConnectors = [] := by
      simpa [DataAccessPolicy.hasRestrictions] using hopen
    cases d.connectionId with
    | none => exact hopen
    | some c => exact ⟨by rw [hlists.2]; exact not_mem_nil, .inl hlists.1⟩
  · have hconnector : connectorOf b = d.connectionId := by
      rw [connectorOf, hsome]
      cases d.connectionId with
      | none => rfl
      | some c => exact dif_pos c.canonical
    rwa [hconnector] at h

/-- the tables with one more -/
theorem PermittedTables.set {tables : Dict String VirtualTableBinding} (h : PermittedTables F policy tables)
    {key : String}
    (hb : ∃ catalog d, F.catalog = some catalog ∧ Reads catalog b d ∧ policy.Permits d.connectionId) :
    PermittedTables F policy (tables.set key b) := by
  intro key' b' hget
  rw [get?_set] at hget
  split_ifs at hget with hkey
  · cases hget
    exact hb
  · exact h key' b' hget

theorem permittedTables_empty : PermittedTables F policy Dict.empty := by
  intro key b hget
  cases hget

/-! ## The children of a federated dataset -/

/-- a child that is bound -/
structure Child where
  id : Uuid
  key : String
  record : DatasetRecord
  binding : VirtualTableBinding

def planChild (R : Resolver) (d : DatasetRecord) (e : String × Dict String Json) : Option Child := do
  let id ← (planId R e.1 e.2).toOption
  let record ← (loadDataset R d.workspaceId id e.1).toOption
  let bound ← (buildBinding R record (planNames e.1 e.2)).toOption
  return ⟨id, e.1, record, bound.1⟩

def referencedChild (R : Resolver) (d : DatasetRecord) (id : Uuid) : Option Child := do
  let record ← (loadDataset R d.workspaceId id id.text).toOption
  let bound ← (buildBinding R record .default).toOption
  return ⟨id, bound.1.tableKey, record, bound.1⟩

/-- the children that are bound, those of the plan first -/
def children (R : Resolver) (d : DatasetRecord) : List Child :=
  let planned := (planTables d).entries.filterMap (planChild R d)
  planned ++ (((referencedIds R d).toOption.getD []).filter fun id => id ∉ planned.map (·.id)).filterMap
    (referencedChild R d)

def Child.entry (c : Child) : String × VirtualTableBinding := (c.key, c.binding)

variable {d : DatasetRecord}

theorem planChild_of_bound {e : String × Dict String Json} (h : PlanBound R d e id b dialect) :
    ∃ record, planChild R d e = some ⟨id, e.1, record, b⟩ := by
  obtain ⟨hid, record, hload, hbuild⟩ := h
  exact ⟨record, by simp [planChild, hid, hload, hbuild, Except.toOption]⟩

theorem planChild_of_refused {e : String × Dict String Json} (h : PlanRefused R d e) : planChild R d e = none := by
  obtain ⟨id, record, m, hid, hload, hbuild⟩ := h
  simp [planChild, hid, hload, hbuild, Except.toOption]

theorem referencedChild_of_bound (h : ReferencedBound R d id b dialect) :
    ∃ record, referencedChild R d id = some ⟨id, b.tableKey, record, b⟩ := by
  obtain ⟨record, hload, hbuild⟩ := h
  exact ⟨record, by simp [referencedChild, hload, hbuild, Except.toOption]⟩

theorem referencedChild_of_refused (h : ReferencedRefused R d id) : referencedChild R d id = none := by
  obtain ⟨record, m, hload, hbuild⟩ := h
  simp [referencedChild, hload, hbuild, Except.toOption]

theorem bindPlan_children (l : List (String × Dict String Json)) (s s' : Bindings)
    (h : l.foldlM (bindPlanTable R d.workspaceId) s = .ok s') :
    s'.tables = ((l.filterMap (planChild R d)).map Child.entry).foldl (fun t e => t.set e.1 e.2) s.tables ∧
      s'.consumed = s.consumed ++ (l.filterMap (planChild R d)).map (·.id) := by
  induction l generalizing s with
  | nil =>
    cases h
    exact ⟨rfl, (append_nil _).symm⟩
  | cons e l ih =>
    obtain ⟨mid, hmid, h⟩ := of_bind_ok h
    obtain ⟨htables, hconsumed⟩ := ih mid h
    rw [htables, hconsumed]
    rcases (bindPlanTable_ok s mid e).1 hmid with ⟨hrefused, rfl⟩ | ⟨id, b, dialect, hbound, rfl⟩
    · rw [filterMap_cons_none (planChild_of_refused hrefused)]
      exact ⟨rfl, rfl⟩
    · obtain ⟨record, hchild⟩ := planChild_of_bound hbound
      rw [filterMap_cons_some hchild]
      exact ⟨rfl, append_assoc _ _ _⟩

theorem bindReferenced_children (l : List Uuid) (s s' : Bindings)
    (h : l.foldlM (bindReferencedDataset R d.workspaceId) s = .ok s') :
    s'.tables = (((l.filter (· ∉ s.consumed)).filterMap (referencedChild R d)).map Child.entry).foldl
      (fun t e => t.set e.1 e.2) s.tables := by
  induction l generalizing s with
  | nil =>
    cases h
    rfl
  | cons id l ih =>
    obtain ⟨mid, hmid, h⟩ := of_bind_ok h
    rw [ih mid h]
    rcases (bindReferencedDataset_ok s mid id).1 hmid with ⟨hpassed, rfl⟩ | ⟨hfree, b, dialect, hbound, rfl⟩
    · by_cases hconsumed : id ∈ mid.consumed
      · rw [filter_cons_of_neg (by simpa using hconsumed)]
      · rw [filter_cons_of_pos (by simpa using hconsumed),
          filterMap_cons_none (referencedChild_of_refused (hpassed.resolve_left hconsumed))]
    · obtain ⟨record, hchild⟩ := referencedChild_of_bound hbound
      rw [filter_cons_of_pos (by simpa using hfree), filterMap_cons_some hchild]
      rfl

/-- **The tables of a federated dataset's workflow** are its children's. -/
theorem tables_of_federated {built : Built} (h : buildFederatedDatasetWorkflow R d = .ok built) :
    built.dataset.tables = Dict.ofList ((children R d).map Child.entry) := by
  unfold buildFederatedDatasetWorkflow at h
  split_ifs at h
  obtain ⟨ids, hids, h⟩ := of_bind_ok h
  obtain ⟨planned, hplanned, h⟩ := of_bind_ok h
  obtain ⟨bound, hbound, h⟩ := of_bind_ok h
  split_ifs at h with hne
  cases h
  obtain ⟨htables, hconsumed⟩ := bindPlan_children _ _ _ hplanned
  change bound.tables = _
  rw [bindReferenced_children _ _ _ hbound, htables, hconsumed, Dict.ofList, children, hids, map_append,
    foldl_append]
  rfl

theorem reads_of_bound {names : BindingNames} {record : DatasetRecord} {tableKey : String} (hload : loadDataset F.resolver workspaceId id tableKey = .ok record)
    (hbuild : buildBinding F.resolver record names = .ok (b, dialect)) :
    ∃ catalog d, F.catalog = some catalog ∧ Reads catalog b d ∧ record = d.toDatasetRecord := by
  obtain ⟨catalog, d, hcatalog, hfound, rfl⟩ := loaded_of_resolver hload
  exact ⟨catalog, d, hcatalog, reads_of_buildBinding hfound hbuild, rfl⟩

theorem reads_of_child {c : Child} (hc : c ∈ children F.resolver d) :
    ∃ catalog d', F.catalog = some catalog ∧ Reads catalog c.binding d' ∧ c.record = d'.toDatasetRecord := by
  have hok : ∀ {ε α : Type} {x : Except ε α} {a : α}, x.toOption = some a → x = .ok a := by
    intro ε α x a h
    cases x with
    | error e => cases h
    | ok a' => exact congrArg Except.ok (Option.some.inj h)
  rcases mem_append.1 hc with hc | hc
  · obtain ⟨e, -, he⟩ := mem_filterMap.1 hc
    obtain ⟨id, -, he⟩ := bind_eq_some_iff.1 he
    obtain ⟨record, hload, he⟩ := bind_eq_some_iff.1 he
    obtain ⟨bound, hbuild, he⟩ := bind_eq_some_iff.1 he
    cases he
    exact reads_of_bound (hok hload) (hok hbuild)
  · obtain ⟨id, -, he⟩ := mem_filterMap.1 hc
    obtain ⟨record, hload, he⟩ := bind_eq_some_iff.1 he
    obtain ⟨bound, hbuild, he⟩ := bind_eq_some_iff.1 he
    cases he
    exact reads_of_bound (hok hload) (hok hbuild)

/-- every child has a permitted connection, unless a later child takes its key -/
def ChildrenPermitted (F : Factory) (policy : DataAccessPolicy) (d : DatasetRecord) : Prop :=
  ∀ before c after, children F.resolver d = before ++ c :: after → c.key ∉ after.map (·.key) →
    policy.Permits c.record.connectionId

/-- **Federated datasets.** The tables of the workflow have permitted connectors exactly when the children do. -/
theorem federated_permitted_iff {built : Built} (h : buildFederatedDatasetWorkflow F.resolver d = .ok built) :
    PermittedTables F policy built.dataset.tables ↔ ChildrenPermitted F policy d := by
  have hget : ∀ key b, built.dataset.tables.get? key = some b ↔ ∃ before c after,
      children F.resolver d = before ++ c :: after ∧ c.key = key ∧ c.binding = b ∧ c.key ∉ after.map (·.key) := by
    intro key b
    rw [tables_of_federated h, Dict.ofList, get?_foldl_set_iff]
    constructor
    · rintro (⟨before, after, heq, hlast⟩ | ⟨-, hnone⟩)
      · obtain ⟨before, rest, hsplit, rfl, hrest⟩ := map_eq_append_iff.1 heq
        obtain ⟨c, after, rfl, hc, rfl⟩ := map_eq_cons_iff.1 hrest
        cases hc
        rw [List.map_map] at hlast
        exact ⟨before, c, after, hsplit, rfl, rfl, hlast⟩
      · cases hnone
    · rintro ⟨before, c, after, hsplit, rfl, rfl, hlast⟩
      refine .inl ⟨before.map Child.entry, after.map Child.entry, ?_, ?_⟩
      · rw [hsplit, map_append, map_cons]
        rfl
      · rw [List.map_map]
        exact hlast
  constructor
  · intro hpermitted before c after hsplit hlast
    obtain ⟨catalog, d', hcatalog, hreads, hrecord⟩ := reads_of_child (hsplit ▸ mem_append_cons_self)
    obtain ⟨catalog', d'', hcatalog', hreads', hpermits⟩ :=
      hpermitted c.key c.binding ((hget _ _).2 ⟨before, c, after, hsplit, rfl, rfl, hlast⟩)
    obtain rfl := Option.some.inj (hcatalog.symm.trans hcatalog')
    rw [hrecord, hreads.unique hreads']
    exact hpermits
  · intro hchildren key b hb
    obtain ⟨before, c, after, hsplit, rfl, rfl, hlast⟩ := (hget key b).1 hb
    obtain ⟨catalog, d', hcatalog, hreads, hrecord⟩ := reads_of_child (hsplit ▸ mem_append_cons_self)
    have hpermits := hchildren before c after hsplit hlast
    rw [hrecord] at hpermits
    exact ⟨catalog, d', hcatalog, hreads, hpermits⟩

/-! ## The tools of an agent -/

def Permitted (F : Factory) (policy : DataAccessPolicy) (datasets : List DatasetMetadata) : Prop :=
  ∃ catalog, F.catalog = some catalog ∧ ∀ d ∈ datasets, catalog.byId d.id = some d ∧ policy.Permits d.connectionId

theorem bindSelected_permitted (l : List DatasetMetadata) (hl : Permitted F policy l)
    (tables tables' : Dict String VirtualTableBinding) (ht : PermittedTables F policy tables)
    (h : l.foldlM (bindSelected F.resolver) tables = .ok tables') : PermittedTables F policy tables' := by
  induction l generalizing tables with
  | nil =>
    cases h
    exact ht
  | cons d l ih =>
    obtain ⟨catalog, hcatalog, hall⟩ := hl
    rw [forall_mem_cons] at hall
    obtain ⟨mid, hmid, h⟩ := of_bind_ok h
    refine ih ⟨catalog, hcatalog, hall.2⟩ mid ?_ h
    rw [bindSelected] at hmid
    split_ifs at hmid
    · cases hmid
    · obtain ⟨bound, hbuild, hmid⟩ := of_bind_ok hmid
      cases hmid
      exact ht.set ⟨catalog, d, hcatalog, reads_of_buildBinding hall.1.1 hbuild, hall.1.2⟩

theorem virtualDataset_tables {id : String} {tables : Dict String VirtualTableBinding} {dataset : VirtualDataset}
    (h : virtualDataset id tables = .ok dataset) : dataset.tables = tables := by
  rw [virtualDataset] at h
  split_ifs at h
  cases h
  rfl

/-- the workflow of permitted datasets has permitted tables, but for one federated dataset -/
theorem datasetWorkflow_permitted {first : DatasetMetadata} {others : List DatasetMetadata}
    {workflow : FederationWorkflow} (hl : Permitted F policy (first :: others))
    (h : buildDatasetWorkflow F first others = .ok workflow) :
    PermittedTables F policy workflow.dataset.tables ↔
      (others = [] → first.datasetType = .federated → ChildrenPermitted F policy first.toDatasetRecord) := by
  rw [buildDatasetWorkflow] at h
  split_ifs at h with hone
  · rw [buildWorkflowForDataset] at h
    split at h
    · rename_i htype
      obtain ⟨built, hbuilt, h⟩ := of_bind_ok h
      cases h
      rw [federated_permitted_iff hbuilt]
      exact ⟨fun hp _ _ => hp, fun hp => hp hone htype⟩
    · rename_i htype
      obtain ⟨bound, hbuild, h⟩ := of_bind_ok h
      cases h
      obtain ⟨catalog, hcatalog, hall⟩ := hl
      obtain ⟨hfound, hpermits⟩ := hall first mem_cons_self
      refine iff_of_true ?_ fun _ hfederated => absurd hfederated htype
      exact permittedTables_empty.set ⟨catalog, first, hcatalog, reads_of_buildBinding hfound hbuild, hpermits⟩
  · obtain ⟨tables, htables, h⟩ := of_bind_ok h
    obtain ⟨dataset, hdataset, h⟩ := of_bind_ok h
    cases h
    refine iff_of_true ?_ fun hnil => absurd hnil hone
    rw [virtualDataset_tables hdataset]
    exact bindSelected_permitted _ hl _ _ permittedTables_empty htables

/-- the policy that restricts nothing -/
def unrestricted : DataAccessPolicy := ⟨[], []⟩

omit [PyText] in
theorem unrestricted_permits (c : Option Uuid) : unrestricted.Permits c := by
  cases c with
  | none => rfl
  | some c => exact ⟨not_mem_nil, .inl rfl⟩

/-- a run over the datasets of a semantic model binds datasets of the catalog -/
theorem bindSemantic_reads (workspaceId : Uuid) (raw : Dict String Json) (l : List (String × SemanticDataset))
    (tables tables' : Dict String VirtualTableBinding) (ht : PermittedTables F unrestricted tables)
    (h : l.foldlM (bindSemanticDataset F.resolver workspaceId raw) tables = .ok tables') :
    PermittedTables F unrestricted tables' := by
  induction l generalizing tables with
  | nil =>
    cases h
    exact ht
  | cons e l ih =>
    obtain ⟨mid, hmid, h⟩ := of_bind_ok h
    refine ih mid ?_ h
    obtain ⟨ref, -, hmid⟩ := of_bind_ok hmid
    cases ref with
    | none => cases hmid
    | some id =>
      obtain ⟨record, hload, hmid⟩ := of_bind_ok hmid
      obtain ⟨bound, hbuild, hmid⟩ := of_bind_ok hmid
      cases hmid
      obtain ⟨catalog, d, hcatalog, hreads, -⟩ := reads_of_bound hload hbuild
      exact ht.set ⟨catalog, d, hcatalog, hreads, unrestricted_permits _⟩

/-- the workflow of a semantic model has permitted tables where the policy permits the connectors of its tables -/
theorem semanticWorkflow_permitted {workflowId : String} {model : SemanticModel}
    {raw : Dict String Json} {workflow : FederationWorkflow}
    (h : buildSemanticWorkflow F.resolver workspaceId workflowId model raw = .ok workflow)
    (hall : ∀ c ∈ workflow.dataset.tables.values.map connectorOf, policy.Permits c) :
    PermittedTables F policy workflow.dataset.tables := by
  obtain ⟨tables, htables, h⟩ := of_bind_ok h
  obtain ⟨dataset, hdataset, h⟩ := of_bind_ok h
  cases h
  obtain rfl := virtualDataset_tables hdataset
  intro key b hget
  obtain ⟨catalog, d, hcatalog, hreads, -⟩ :=
    bindSemantic_reads workspaceId raw _ _ _ permittedTables_empty htables key b hget
  have hvalue : b ∈ dataset.tables.values := (mem_values _ _).2 ⟨key, hget⟩
  exact ⟨catalog, d, hcatalog, hreads, permits_of_connectorOf hreads (hall _ (mem_map_of_mem hvalue))⟩

def ToolsPermitted (F : Factory) (policy : DataAccessPolicy) (assets : List Asset) : Prop :=
  ∀ tool, .tool tool ∈ assets → PermittedTables F policy tool.workflow.dataset.tables

/-- a federated dataset that a binding has alone, and that the policy lets through, has permitted children -/
def FederatedKept (F : Factory) (policy : DataAccessPolicy) (binding : AnalystBinding) : Prop :=
  ∀ id catalog d, binding.datasetIds = [id] → F.catalog = some catalog → catalog.byId id = some d →
    d.datasetType = .federated → policy.Permits d.connectionId → ChildrenPermitted F policy d.toDatasetRecord

omit [PyText] in
/-- what is loaded is what the catalog has -/
theorem loadDatasets_ok {ids : List Uuid} {datasets : List DatasetMetadata} (h : loadDatasets F ids = .ok datasets) :
    ∃ catalog, F.catalog = some catalog ∧ List.Forall₂ (fun id d => catalog.byId id = some d) ids datasets := by
  rw [loadDatasets] at h
  cases hcatalog : F.catalog with
  | none => simp [hcatalog, agentError] at h
  | some catalog =>
    simp only [hcatalog] at h
    refine ⟨catalog, rfl, (forall₂_of_mapM h).imp fun id d hd => ?_⟩
    split at hd
    · cases hd
    · rename_i d' hfound
      cases hd
      exact hfound

variable {binding : AnalystBinding}

theorem datasetAsset_permitted {asset : Asset} (h : datasetAsset F policy binding = .ok asset) :
    ToolsPermitted F policy [asset] ↔ FederatedKept F policy binding := by
  obtain ⟨datasets, hload, h⟩ := of_bind_ok h
  obtain ⟨catalog, hcatalog, hfound⟩ := loadDatasets_ok hload
  cases datasets with
  | nil => cases h
  | cons first others =>
    obtain ⟨id, ids, hids⟩ : ∃ id ids, binding.datasetIds = id :: ids := by
      cases hids : binding.datasetIds with
      | nil => rw [hids] at hfound; cases hfound
      | cons id ids => exact ⟨id, ids, rfl⟩
    have hkept : FederatedKept F policy binding ↔ (policy.Permits first.connectionId → others = [] →
        first.datasetType = .federated → ChildrenPermitted F policy first.toDatasetRecord) := by
      rw [hids] at hfound
      obtain ⟨hfirst, hothers⟩ := List.forall₂_cons.1 hfound
      constructor
      · rintro hk hpermits rfl htype
        obtain rfl := List.forall₂_nil_right_iff.1 hothers
        exact hk id catalog first hids hcatalog hfirst htype hpermits
      · intro hk id' catalog' d hids' hcatalog' hd htype hpermits
        obtain ⟨rfl, rfl⟩ := List.cons.inj (hids.symm.trans hids')
        obtain rfl := Option.some.inj (hcatalog.symm.trans hcatalog')
        obtain rfl := Option.some.inj (hfirst.symm.trans hd)
        exact hk hpermits (List.forall₂_nil_left_iff.1 hothers) htype
    have hown : ∀ d ∈ first :: others, catalog.byId d.id = some d := by
      intro d hd
      obtain ⟨i, hi, rfl⟩ := mem_iff_getElem.1 hd
      have hget := hfound.get (hfound.length_eq ▸ hi) hi
      exact (catalog.own _ _ hget).symm ▸ hget
    have hevaluate := evaluate_allowed_iff policy ((first :: others).map (·.connectionId))
    rw [hkept]
    simp only at h
    split_ifs at h with hallowed
    · obtain ⟨workflow, hworkflow, h⟩ := of_bind_ok h
      cases h
      have hpermits := forall_mem_map.1 (hevaluate.1 hallowed).2
      have hiff := datasetWorkflow_permitted ⟨catalog, hcatalog, fun d hd => ⟨hown d hd, hpermits d hd⟩⟩ hworkflow
      constructor
      · exact fun ht _ => hiff.1 (ht _ mem_cons_self)
      · intro hk tool htool
        obtain rfl := Asset.tool.inj (mem_singleton.1 htool)
        exact hiff.2 (hk (hpermits first mem_cons_self))
    · cases h
      refine iff_of_true (fun tool htool => nomatch mem_singleton.1 htool) ?_
      rintro hpermits rfl -
      refine absurd (hevaluate.2 ⟨fun _ => cons_ne_nil _ _, ?_⟩) hallowed
      intro c hc
      obtain rfl := mem_singleton.1 hc
      exact hpermits

theorem semanticAsset_permitted {asset : Asset}
    (h : semanticAsset F policy binding id = .ok (some asset)) : ToolsPermitted F policy [asset] := by
  rw [semanticAsset] at h
  split at h
  · cases h
  · obtain ⟨model, -, h⟩ := of_bind_ok h
    obtain ⟨workflow, hworkflow, h⟩ := of_bind_ok h
    simp only at h
    split_ifs at h with hallowed
    · obtain rfl := Option.some.inj (Except.ok.inj h)
      intro tool htool
      obtain rfl := Asset.tool.inj (mem_singleton.1 htool)
      exact semanticWorkflow_permitted hworkflow ((evaluate_allowed_iff _ _).1 hallowed).2
    · obtain rfl := Option.some.inj (Except.ok.inj h)
      exact fun tool htool => nomatch mem_singleton.1 htool

omit [PyText] in
theorem forall_mem_iff_of_forall₂ {α β : Type} {p : α → Prop} {q : β → Prop} {l : List α} {r : List β}
    (h : List.Forall₂ (fun a b => q b ↔ p a) l r) : (∀ a ∈ l, p a) ↔ ∀ b ∈ r, q b := by
  induction h with
  | nil => simp
  | cons hab _ ih => rw [forall_mem_cons, forall_mem_cons, ih, hab]

/-- **One binding** of the agent: its tools have permitted tables, but for a federated dataset alone. -/
theorem assetsOf_permitted {assets : List Asset}
    (h : assetsOf F policy binding = .ok assets) : ToolsPermitted F policy assets ↔ FederatedKept F policy binding := by
  rw [assetsOf] at h
  split_ifs at h with hids
  · obtain ⟨asset, hasset, h⟩ := of_bind_ok h
    cases h
    exact datasetAsset_permitted hasset
  · obtain ⟨found, hfound, h⟩ := of_bind_ok h
    cases h
    refine iff_of_true ?_ fun id _ _ hid => absurd (hid ▸ cons_ne_nil _ _) hids
    intro tool htool
    obtain ⟨asset?, hmem, rfl⟩ := mem_filterMap.1 htool
    obtain ⟨i, hi, hget⟩ := mem_iff_getElem.1 hmem
    have hall := forall₂_of_mapM hfound
    have hone := hall.get (hall.length_eq ▸ hi) hi
    simp only [get_eq_getElem, hget] at hone
    exact semanticAsset_permitted hone tool mem_cons_self

/-- **The tools of an agent** run on tables of permitted connectors exactly when every federated dataset that is an
asset of its own, and that the policy lets through, has permitted children. -/
theorem tools_permitted_iff {definition : AgentDefinition} {result : AnalystToolBuildResult}
    (h : buildAnalystTools F definition = .ok result) :
    (∀ tool ∈ result.tools, ∀ sql dialect,
      PermittedTables F definition.accessPolicy (tool.executeSql sql dialect).workflow.dataset.tables) ↔
      (F.federatedQueryTool = true →
        ∀ binding ∈ analystBindings definition, FederatedKept F definition.accessPolicy binding) := by
  rw [buildAnalystTools] at h
  split_ifs at h with hnone
  · cases h
    refine iff_of_true (fun tool htool => nomatch htool) fun htool binding hbinding => ?_
    rcases hnone with hempty | hfalse
    · exact absurd (hempty ▸ hbinding) not_mem_nil
    · exact absurd (hfalse.symm.trans htool) Bool.false_ne_true
  · obtain ⟨assets, hassets, h⟩ := of_bind_ok h
    cases h
    have hall := forall₂_of_mapM hassets
    have htools : (∀ tool ∈ assets.flatten.filterMap Asset.tool?, ∀ sql dialect,
        PermittedTables F definition.accessPolicy (tool.executeSql sql dialect).workflow.dataset.tables) ↔
        ∀ l ∈ assets, ToolsPermitted F definition.accessPolicy l := by
      constructor
      · intro hp l hl tool htool
        exact hp tool (mem_filterMap.2 ⟨.tool tool, mem_flatten.2 ⟨l, hl, htool⟩, rfl⟩) "" ""
      · intro hp tool htool _ _
        obtain ⟨asset, hasset, hsome⟩ := mem_filterMap.1 htool
        obtain ⟨l, hl, hmem⟩ := mem_flatten.1 hasset
        cases asset with
        | tool t =>
          obtain rfl := Option.some.inj hsome
          exact hp l hl t hmem
        | denied a => cases hsome
    have hconfigured : F.federatedQueryTool = true := by
      rw [not_or, Bool.not_eq_false] at hnone
      exact hnone.2
    rw [htools, forall_prop_of_true hconfigured]
    exact (forall_mem_iff_of_forall₂ (hall.imp fun binding l hl => assetsOf_permitted hl)).symm

end Tools

/-! ## A child of a denied connector -/

section DeniedChild

open scoped Ascii

def crm : Uuid := ⟨"00000000-0000-0000-0000-00000000000a", by decide⟩
def erp : Uuid := ⟨"00000000-0000-0000-0000-00000000000b", by decide⟩

/-- the orders, of one connector -/
def orders (connection : Uuid) : DatasetMetadata where
  id := ordersId
  workspaceId
  connectionId := some connection
  name := "orders"
  datasetType := .table
  contents := .live ⟨some "orders", none, none, none⟩
  sourceKind := some .database
  storageKind := some .table
  dialect := some "postgres"
  catalogName := none
  schemaName := none
  tableName := some "orders"
  storageUri := none
  sqlText := none
  fileConfig := Dict.empty
  referencedDatasetIds := []
  federatedPlan := Dict.empty
  revisionId := none
  sqlAlias := "orders"

def allOrders : DatasetMetadata where
  id := federatedId
  workspaceId
  connectionId := some crm
  name := "all"
  datasetType := .federated
  contents := .live ⟨some "all", none, none, none⟩
  sourceKind := some .virtual
  storageKind := some .virtual
  dialect := none
  catalogName := none
  schemaName := none
  tableName := none
  storageUri := none
  sqlText := none
  fileConfig := Dict.empty
  referencedDatasetIds := [.str ordersId.text]
  federatedPlan := Dict.empty
  revisionId := none
  sqlAlias := "all_orders"

def twoDatasets (connection : Uuid) : Catalog where
  byId id :=
    if id = ordersId then some (orders connection) else if id = federatedId then some allOrders else none
  own id d h := by
    split_ifs at h with horders hall
    · cases h
      exact horders.symm
    · cases h
      exact hall.symm

def factory (connection : Uuid) : Factory where
  catalog := some (twoDatasets connection)
  semanticModels _ := none
  loadSemanticModel _ := .error ""
  parseYamlPayload _ := Dict.empty
  federatedQueryTool := true
  uuidOf s := if h : isUuidText s = true then some ⟨s, h⟩ else none
  sql := ⟨fun _ _ => .error ""⟩
  relationIdentity _ := Dict.empty
  contextId _ := federatedId

/-- an agent that may ask the federated dataset, but not the second connector -/
def salesAgent : AgentDefinition where
  tools := [⟨"sales", some .sql, none, some ⟨[federatedId], [], by simp⟩⟩]
  accessPolicy := ⟨[], [erp]⟩

/-- where the orders are of a permitted connector, the tool runs on permitted tables -/
theorem permitted_child : ∃ result, buildAnalystTools (factory crm) salesAgent = .ok result ∧
    ∀ tool ∈ result.tools, ∀ sql dialect, PermittedTables (factory crm) salesAgent.accessPolicy
      (tool.executeSql sql dialect).workflow.dataset.tables := by
  refine ⟨_, rfl, (tools_permitted_iff (F := factory crm) rfl).2 ?_⟩
  intro _ binding hbinding id catalog d hid hcatalog hd
  obtain rfl := mem_singleton.1 hbinding
  obtain ⟨rfl, -⟩ := List.cons.inj hid
  cases hcatalog
  cases hd
  intro _ _ before c after hchildren _
  have hconnections : (children (factory crm).resolver allOrders.toDatasetRecord).map (·.record.connectionId) =
      [some crm] := by rfl
  have hmem : c.record.connectionId ∈ [some crm] := by
    rw [← hconnections, hchildren]
    exact mem_map_of_mem mem_append_cons_self
  rw [mem_singleton.1 hmem]
  exact ⟨by decide, .inl rfl⟩

/-- **A denied connector** is read all the same: the policy judges the federated dataset by its own connection. -/
theorem denied_child : ∃ result tool b, buildAnalystTools (factory erp) salesAgent = .ok result ∧
    tool ∈ result.tools ∧ (tool.executeSql "SELECT * FROM orders" "postgres").workflow.dataset.tables.get? "orders" =
      some b ∧ b.connectorId = some erp.text ∧ erp ∈ salesAgent.accessPolicy.deniedConnectors ∧
      ¬ PermittedTables (factory erp) salesAgent.accessPolicy tool.workflow.dataset.tables := by
  refine ⟨_, _, _, rfl, mem_cons_self, rfl, rfl, mem_cons_self, fun hp => ?_⟩
  obtain ⟨catalog, d, -, hreads, hpermits⟩ := hp "orders" _ rfl
  rcases hreads.connector with hnone | hsome
  · cases hnone
  · obtain ⟨c, hc, htext⟩ := map_eq_some_iff.1 hsome.symm
    rw [hc, uuid_eq_of_text htext] at hpermits
    exact hpermits.1 mem_cons_self

end DeniedChild

end Langbridge.Orchestrator.AnalystTools
