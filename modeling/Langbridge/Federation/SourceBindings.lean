/-
The sources of a federation workflow (`FederatedQueryTool._build_sources`): the table bindings are grouped by their
source ids, and the first binding of a group decides how the group is read and through which connector. Source ids are
made of the first twelve digits of a connector's or a dataset's identifier.

What fetching a connector and making its client raises is a parameter (`provide`), and so are the checks of `urlparse`.
-/
import Langbridge.Core.Layers
import Langbridge.Federation.Workflow
import Langbridge.Runtime.StorageUris

namespace Langbridge.Federation.SourceBindings

open Core Runtime.StorageUris List PyText

/-! ## Bindings -/

/-- how a source is read -/
inductive AccessKind where
  | api
  | parquet
  | file
  | sql
deriving DecidableEq

section Bindings

variable [PyText] (C : UrlChecks)

/-- `metadata.get(key)`, as a workflow that came as JSON has it -/
def metadataValue (b : Workflow.VirtualTableBinding) (key : String) : Json :=
  ((b.metadata.get? key).map AnyValue.dump).getD .null

/-- `str(value or "").strip()` -/
def strippedText (v : Json) : String := strip (v.orElse (.str "")).text

def statedKind (b : Workflow.VirtualTableBinding) (stated : Workflow.DatasetExecutionDescriptor → String)
    (key : String) : String :=
  let descriptorKind := norm ((b.datasetDescriptor.map stated).getD "")
  if descriptorKind = "" then formatText (metadataValue b key) else descriptorKind

def sourceKind (b : Workflow.VirtualTableBinding) : String := statedKind b (·.sourceKind) "source_kind"

def storageKind (b : Workflow.VirtualTableBinding) : String := statedKind b (·.storageKind) "storage_kind"

def materializationMode (b : Workflow.VirtualTableBinding) : String :=
  norm ((b.datasetDescriptor.bind (·.materializationMode)).getD "")

def isLiveApiSource (b : Workflow.VirtualTableBinding) : Bool :=
  sourceKind b = "api" && materializationMode b = "live"

def isFileLikeSource (b : Workflow.VirtualTableBinding) : Bool :=
  let isFileStorage := ["csv", "parquet", "json"].contains (storageKind b)
  sourceKind b = "file" || isFileStorage || (materializationMode b = "synced" && isFileStorage)

/-- `binding.connector_id`, or the descriptor's -/
def connectorOf (b : Workflow.VirtualTableBinding) : Option Workflow.Uuid :=
  b.connectorId.or (b.datasetDescriptor.bind (·.connectorId))

def storageUris (b : Workflow.VirtualTableBinding) : List String :=
  let listed := match metadataValue b "storage_uris" with
    | .arr items => (items.map strippedText).filter (· ≠ "")
    | _ => []
  listed ++ [strippedText (metadataValue b "storage_uri")].filter (· ≠ "")

def storageUrisFromBinding (b : Workflow.VirtualTableBinding) : Except String (List String) :=
  if storageUris b = [] then
    .error ("Parquet binding '" ++ b.tableKey ++ "' is missing storage_uri or storage_uris metadata.")
  else .ok (storageUris b)

/-- `any(...)` over tests that may raise -/
def anyOf {α : Type} (test : α → Except String Bool) : List α → Except String Bool
  | [] => .ok false
  | a :: as => do if ← test a then return true else anyOf test as

def remoteUriSchemes : List String :=
  ["http", "https", "s3", "s3a", "s3n", "gcs", "gs", "r2", "azure", "az", "abfs", "abfss"]

def isRemoteUri (uri : String) : Except String Bool := do
  let parsed ← urlparse C (strip uri).toList
  return remoteUriSchemes.contains (lower (String.ofList parsed.scheme))

def isRemoteBinding (b : Workflow.VirtualTableBinding) : Except String Bool :=
  let fileFormat := formatText ((metadataValue b "file_format").orElse
    ((metadataValue b "format").orElse (metadataValue b "storage_kind")))
  if fileFormat ≠ "parquet" then .ok false
  else do
    let uris ← storageUrisFromBinding b
    if uris.length > 1 then return true else anyOf (isRemoteUri C) uris

/-- how a group is read, as its first binding and its remote ones decide -/
def groupKind (first : Workflow.VirtualTableBinding) (rest : List Workflow.VirtualTableBinding) :
    Except String AccessKind :=
  if isLiveApiSource first then .ok .api
  else do
    -- `_is_distributed_parquet_source`
    if ← anyOf (isRemoteBinding C) (first :: rest) then return .parquet
    else if isFileLikeSource first then return .file
    else return .sql

/-! ## Sources -/

/-- the sources, with the bindings they keep by table key -/
inductive RemoteSource where
  | api (connector : Workflow.Uuid) (bindings : Dict String Workflow.VirtualTableBinding)
  | parquet (connector : Workflow.Uuid) (bindings : Dict String Workflow.VirtualTableBinding)
  | file (bindings : Dict String Workflow.VirtualTableBinding)
  | sql (connector : Workflow.Uuid)

def RemoteSource.kind : RemoteSource → AccessKind
  | .api _ _ => .api
  | .parquet _ _ => .parquet
  | .file _ => .file
  | .sql _ => .sql

/-- the connector that a source reads through -/
def RemoteSource.connector : RemoteSource → Option Workflow.Uuid
  | .api c _ => some c
  | .parquet c _ => some c
  | .file _ => none
  | .sql c => some c

/-- `self._bindings` -/
def RemoteSource.bindings : RemoteSource → Dict String Workflow.VirtualTableBinding
  | .api _ bs => bs
  | .parquet _ bs => bs
  | .file bs => bs
  | .sql _ => Dict.empty

/-- `_require_binding`; `none` raises -/
def requireBinding (bindings : Dict String Workflow.VirtualTableBinding) (tableKey : String) :
    Option Workflow.VirtualTableBinding :=
  match bindings.get? tableKey with
  | some b => some b
  | none =>
    match bindings.entries with
    | [e] => some e.2
    | _ => none

/-- `{binding.table_key: binding for binding in bindings}` -/
def boundTables (bindings : List Workflow.VirtualTableBinding) : Dict String Workflow.VirtualTableBinding :=
  Dict.ofList (bindings.map fun b => (b.tableKey, b))

/-- the word for a source of a kind in its error -/
def AccessKind.label : AccessKind → String
  | .api => "API"
  | .parquet => "Parquet"
  | .file => "File"
  | .sql => "Connector"

def requireConnector (kind : AccessKind) (sourceId : String) (first : Workflow.VirtualTableBinding) :
    Except String Workflow.Uuid :=
  match connectorOf first with
  | some c => .ok c
  | none => .error (kind.label ++ " source '" ++ sourceId ++ "' is missing connector_id.")

/-- the check of the other bindings of a group, which live API sources do not have -/
def checkConnectors (workflowId sourceId : String) (kind : AccessKind) (c : Workflow.Uuid)
    (rest : List Workflow.VirtualTableBinding) : Except String Unit :=
  if kind = .api ∨ ∀ b ∈ rest, b.connectorId = some c then .ok ()
  else .error ("Source id '" ++ sourceId ++ "' maps to multiple connector ids in workflow '" ++ workflowId ++ "'.")

/-- the source of a kind that needs a connector -/
def connectedSource (kind : AccessKind) (c : Workflow.Uuid) (bindings : List Workflow.VirtualTableBinding) :
    RemoteSource :=
  match kind with
  | .api => .api c (boundTables bindings)
  | .parquet => .parquet c (boundTables bindings)
  | .file => .file (boundTables bindings)
  | .sql => .sql c

variable (provide : AccessKind → Workflow.Uuid → Except String Unit)

def buildSource (workflowId sourceId : String) : List Workflow.VirtualTableBinding → Except String RemoteSource
  | [] => .error "no bindings"
  | first :: rest => do
    let kind ← groupKind C first rest
    if kind = .file then return .file (boundTables (first :: rest))
    else do
      let c ← requireConnector kind sourceId first
      checkConnectors workflowId sourceId kind c rest
      provide kind c
      return connectedSource kind c (first :: rest)

def buildSources (w : Workflow.FederationWorkflow) : Except String (Dict String RemoteSource) :=
  (Dict.groupBy (·.sourceId) w.dataset.tables.values).traverse (buildSource C provide w.id)

/-! ## What a binding states -/

def files (kind : AccessKind) (b : Workflow.VirtualTableBinding) : List String :=
  match kind with
  | .file => [strippedText (metadataValue b "storage_uri")]
  | .parquet => storageUris b
  | _ => []

/-- a source reads a binding as it states: by its own kind, through its own connector, and from its own files -/
structure Reads (source : RemoteSource) (b : Workflow.VirtualTableBinding) : Prop where
  kind : groupKind C b [] = .ok source.kind
  connector : source.kind ≠ .file → connectorOf b = source.connector
  files : source.kind = .file ∨ source.kind = .parquet → ∃ b', requireBinding source.bindings b.tableKey = some b' ∧
    files source.kind b' = files source.kind b

/-- where the sources of a workflow are built, each binding is read as it states -/
def BuildsRight (w : Workflow.FederationWorkflow) : Prop :=
  ∀ sources, buildSources C provide w = .ok sources → ∀ b ∈ w.dataset.tables.values,
    ∃ source, sources.get? b.sourceId = some source ∧ Reads C source b

/-- a binding agrees with its group: it states the kind that the group is read by; the connector of the first binding
where this is a live API; and the files of the last binding with its table key where these are read -/
structure Agrees (first : Workflow.VirtualTableBinding) (rest : List Workflow.VirtualTableBinding)
    (b : Workflow.VirtualTableBinding) : Prop where
  kind : groupKind C b [] = groupKind C first rest
  connector : groupKind C first rest = .ok .api → connectorOf b = connectorOf first
  files : ∀ kind, groupKind C first rest = .ok kind → kind = .file ∨ kind = .parquet →
    ∀ b', ((first :: rest).filter fun c => c.tableKey = b.tableKey).getLast? = some b' → files kind b' = files kind b

end Bindings

/-! ## Groups -/

section Groups

variable [PyText] {C : UrlChecks} {provide : AccessKind → Workflow.Uuid → Except String Unit}
  {first b : Workflow.VirtualTableBinding} {rest : List Workflow.VirtualTableBinding} {source : RemoteSource}

theorem requireBinding_bound {group : List Workflow.VirtualTableBinding} (hb : b ∈ group) :
    requireBinding (boundTables group) b.tableKey = (group.filter fun c => c.tableKey = b.tableKey).getLast? := by
  have hget : (boundTables group).get? b.tableKey =
      (group.filter fun c => c.tableKey = b.tableKey).getLast? := by
    unfold boundTables
    rw [Dict.get?_ofList, filter_map, getLast?_map, Option.map_map]
    exact Option.map_id_apply
  have hne : group.filter (fun c => c.tableKey = b.tableKey) ≠ [] :=
    ne_nil_of_mem (mem_filter.2 ⟨hb, decide_eq_true rfl⟩)
  obtain ⟨c, hc⟩ := Option.isSome_iff_exists.1 (getLast?_isSome.2 hne)
  unfold requireBinding
  rw [hget, hc]

/-- what is known of a source that is built -/
theorem buildSource_ok {workflowId sourceId : String}
    (h : buildSource C provide workflowId sourceId (first :: rest) = .ok source) :
    groupKind C first rest = .ok source.kind ∧
      (source.kind ≠ .sql → source.bindings = boundTables (first :: rest)) ∧
      (source.kind ≠ .file → source.connector = connectorOf first ∧ source.connector.isSome = true ∧
        (source.kind = .api ∨ ∀ b ∈ rest, b.connectorId = source.connector)) := by
  rw [buildSource] at h
  cases hkind : groupKind C first rest with
  | error e =>
    rw [hkind] at h
    cases h
  | ok kind =>
    rw [hkind] at h
    by_cases hfile : kind = .file
    · obtain rfl := Except.ok.inj ((if_pos hfile).symm.trans h)
      rw [hfile]
      exact ⟨rfl, fun _ => rfl, fun hne => absurd rfl hne⟩
    · have h' := (if_neg hfile).symm.trans h
      unfold requireConnector at h'
      cases hc : connectorOf first with
      | none =>
        rw [hc] at h'
        cases h'
      | some c =>
        rw [hc] at h'
        by_cases hchecked : kind = .api ∨ ∀ b ∈ rest, b.connectorId = some c
        · have hcheck : checkConnectors workflowId sourceId kind c rest = .ok () := if_pos hchecked
          simp only [bind, Except.bind, hcheck] at h'
          cases hprovide : provide kind c with
          | error e =>
            rw [hprovide] at h'
            cases h'
          | ok _ =>
            rw [hprovide] at h'
            cases h'
            cases kind with
            | api => exact ⟨rfl, fun _ => rfl, fun _ => ⟨rfl, rfl, hchecked⟩⟩
            | parquet => exact ⟨rfl, fun _ => rfl, fun _ => ⟨rfl, rfl, hchecked⟩⟩
            | file => exact absurd rfl hfile
            | sql => exact ⟨rfl, fun hne => absurd rfl hne, fun _ => ⟨rfl, rfl, hchecked⟩⟩
        · have hcheck : checkConnectors workflowId sourceId kind c rest = .error _ := if_neg hchecked
          simp only [bind, Except.bind, hcheck] at h'
          cases h'

/-- **A source** that is built reads a binding of its group as it states if and only if the binding agrees with it. -/
theorem builtSource_reads {workflowId sourceId : String}
    (h : buildSource C provide workflowId sourceId (first :: rest) = .ok source) (hb : b ∈ first :: rest) :
    Reads C source b ↔ Agrees C first rest b := by
  obtain ⟨hkind, hbindings, hconnector⟩ := buildSource_ok h
  have hfound := requireBinding_bound hb
  have hreads : ∀ kind, kind = .file ∨ kind = .parquet → kind ≠ AccessKind.sql := by
    rintro kind (rfl | rfl) <;> decide
  constructor
  · intro hr
    refine ⟨hr.kind.trans hkind.symm, fun hapi => ?_, fun kind hgroup hfiles b' hlast => ?_⟩
    · have hne : source.kind ≠ .file := by
        rw [hkind] at hapi
        rw [Except.ok.inj hapi]
        decide
      exact (hr.connector hne).trans (hconnector hne).1
    · rw [hkind] at hgroup
      cases hgroup
      obtain ⟨b'', hrequire, hsame⟩ := hr.files hfiles
      rw [hbindings (hreads _ hfiles), hfound, hlast] at hrequire
      rwa [Option.some.inj hrequire]
  · intro hagrees
    refine ⟨hagrees.kind.trans hkind, fun hne => ?_, fun hfiles => ?_⟩
    · obtain ⟨hown, hsome, hchecked⟩ := hconnector hne
      rcases hchecked with hapi | hrest
      · exact (hagrees.connector (by rw [hkind, hapi])).trans hown.symm
      · rcases mem_cons.1 hb with rfl | hmem
        · exact hown.symm
        · obtain ⟨c, hc⟩ := Option.isSome_iff_exists.1 hsome
          rw [connectorOf, hrest b hmem, hc, Option.some_or]
    · have hne : (first :: rest).filter (fun c => c.tableKey = b.tableKey) ≠ [] :=
        ne_nil_of_mem (mem_filter.2 ⟨hb, decide_eq_true rfl⟩)
      obtain ⟨b', hlast⟩ := Option.isSome_iff_exists.1 (getLast?_isSome.2 hne)
      refine ⟨b', ?_, hagrees.files _ hkind hfiles b' hlast⟩
      rw [hbindings (hreads _ hfiles), hfound, hlast]

/-- **Workflows.** Where the sources of a workflow are built, every binding is read by the kind it states, through its
own connector or from its own files, if and only if every binding agrees with the group of its source id. -/
theorem buildsRight_iff (C : UrlChecks) (provide : AccessKind → Workflow.Uuid → Except String Unit)
    (w : Workflow.FederationWorkflow) :
    BuildsRight C provide w ↔ (∃ e, buildSources C provide w = .error e) ∨
      ∀ b ∈ w.dataset.tables.values, ∀ first rest,
        w.dataset.tables.values.filter (fun c => c.sourceId = b.sourceId) = first :: rest → Agrees C first rest b := by
  cases hbuilt : buildSources C provide w with
  | error e => exact iff_of_true (fun sources hs => by rw [hbuilt] at hs; cases hs) (.inl ⟨e, rfl⟩)
  | ok sources =>
    have hsource : ∀ b ∈ w.dataset.tables.values, ∀ first rest,
        w.dataset.tables.values.filter (fun c => c.sourceId = b.sourceId) = first :: rest →
        ∃ source, buildSource C provide w.id b.sourceId (first :: rest) = .ok source ∧
          sources.get? b.sourceId = some source := by
      intro b hb first rest hgroup
      refine Dict.get?_traverse _ _ _ hbuilt b.sourceId (first :: rest) ?_
      rw [Dict.get?_groupBy, hgroup, if_neg (cons_ne_nil _ _)]
    have hmem : ∀ b ∈ w.dataset.tables.values, ∀ first rest,
        w.dataset.tables.values.filter (fun c => c.sourceId = b.sourceId) = first :: rest → b ∈ first :: rest := by
      intro b hb first rest hgroup
      rw [← hgroup]
      exact mem_filter.2 ⟨hb, decide_eq_true rfl⟩
    constructor
    · intro hright
      refine .inr fun b hb first rest hgroup => ?_
      obtain ⟨source, hs, hget⟩ := hsource b hb first rest hgroup
      obtain ⟨source', hget', hreads⟩ := hright sources hbuilt b hb
      rw [hget] at hget'
      cases hget'
      exact (builtSource_reads hs (hmem b hb first rest hgroup)).1 hreads
    · rintro (⟨e, herror⟩ | hagrees) sources' hs' b hb
      · cases herror
      · rw [hbuilt] at hs'
        cases hs'
        have hne : w.dataset.tables.values.filter (fun c => c.sourceId = b.sourceId) ≠ [] :=
          ne_nil_of_mem (mem_filter.2 ⟨hb, decide_eq_true rfl⟩)
        obtain ⟨first, rest, hgroup⟩ := exists_cons_of_ne_nil hne
        obtain ⟨source, hs, hget⟩ := hsource b hb first rest hgroup
        exact ⟨source, hget,
          (builtSource_reads hs (hmem b hb first rest hgroup)).2 (hagrees b hb first rest hgroup)⟩

end Groups

/-! ## Two shops -/

section Shops

open scoped Ascii

def liveDescriptor (connector : Workflow.Uuid) : Workflow.DatasetExecutionDescriptor where
  datasetId := none
  connectorId := some connector
  name := none
  materializationMode := some "live"
  sourceKind := "api"
  connectorKind := none
  storageKind := "memory"
  source := none
  sync := none
  relationIdentity := Dict.empty
  executionCapabilities := Dict.empty
  metadata := Dict.empty
  freshness := none

/-- the first twelve digits of an identifier -/
def shortHex (u : Workflow.Uuid) : String := String.ofList ((u.text.toList.filter (· ≠ '-')).take 12)

def liveBinding (tableKey : String) (connector : Workflow.Uuid) : Workflow.VirtualTableBinding where
  tableKey := tableKey
  sourceId := "api_" ++ shortHex connector
  connectorId := some connector
  schemaName := none
  table := tableKey
  catalog := none
  stats := none
  metadata := Dict.empty.set "api_resource" (.str "orders")
  datasetDescriptor := some (liveDescriptor connector)

def northShop : Workflow.Uuid := ⟨"0a1b2c3d-4e5f-4000-8000-000000000001", by decide +kernel⟩

def southShop : Workflow.Uuid := ⟨"0a1b2c3d-4e5f-4000-8000-000000000002", by decide +kernel⟩

/-- a workflow over the orders of two shops -/
def shopsWorkflow : Workflow.FederationWorkflow where
  id := "workflow"
  workspaceId := "workspace"
  dataset :=
    { id := "shops"
      name := "shops"
      workspaceId := "workspace"
      tables := (Dict.empty.set "north" (liveBinding "north" northShop)).set "south" (liveBinding "south" southShop)
      relationships := []
      statsOverrides := Dict.empty
      nonempty := cons_ne_nil _ _ }
  broadcastThresholdBytes := 0
  partitionCount := 8
  maxStageRetries := 2
  stageParallelism := 4

def plainUrls : UrlChecks := ⟨fun _ => .ok (), fun _ => .ok ()⟩

/-- the orders of the southern shop are read through the connector of the northern one -/
theorem shared_digits : (∃ sources, buildSources plainUrls (fun _ _ => .ok ()) shopsWorkflow = .ok sources ∧
      (sources.get? (liveBinding "south" southShop).sourceId).bind RemoteSource.connector = some northShop) ∧
    ¬ BuildsRight plainUrls (fun _ _ => .ok ()) shopsWorkflow := by
  obtain ⟨sources, hbuilt, hconnector⟩ : ∃ sources,
      buildSources plainUrls (fun _ _ => .ok ()) shopsWorkflow = .ok sources ∧
      (sources.get? (liveBinding "south" southShop).sourceId).bind RemoteSource.connector = some northShop :=
    ⟨_, rfl, rfl⟩
  refine ⟨⟨sources, hbuilt, hconnector⟩, fun hright => ?_⟩
  obtain ⟨source, hget, hreads⟩ := hright sources hbuilt (liveBinding "south" southShop)
    (mem_cons_of_mem _ mem_cons_self)
  rw [hget, Option.bind_some] at hconnector
  have hne : source.kind ≠ .file := by
    intro hfile
    cases source with
    | file bs => cases hconnector
    | _ => cases hfile
  have hown := hreads.connector hne
  rw [hconnector] at hown
  exact absurd hown (by decide +kernel)

end Shops

end Langbridge.Federation.SourceBindings
