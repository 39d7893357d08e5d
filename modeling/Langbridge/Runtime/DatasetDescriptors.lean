/-
The descriptor of a dataset (`build_dataset_relation_identity`, `build_dataset_execution_capabilities`), which is stored
beside the fields it is derived from. A dataset that is created or updated gets its descriptor from its fields; a sync
writes new fields and then keeps the descriptor that it finds.
-/
import Langbridge.Runtime.DatasetListings
import Langbridge.Runtime.DatasetRecords

namespace Langbridge.Runtime.DatasetDescriptors

open Core List PyText Option
open Metadata (SyncSource datasetSqlAlias)
open Records (DatasetSourceKind DatasetStorageKind)

structure ExecutionCapabilities where
  structuredScan : Bool
  sqlFederation : Bool
  filterPushdown : Bool
  projectionPushdown : Bool
  aggregationPushdown : Bool
  joinPushdown : Bool
  materialization : Bool
  semanticModeling : Bool
deriving DecidableEq

variable {U : Type}

structure RelationIdentity (U : Type) where
  canonicalReference : String
  relationName : String
  qualifiedName : Option String
  catalogName : Option String
  schemaName : Option String
  tableName : Option String
  storageUri : Option String
  datasetId : U
  connectorId : Option U
  sourceKind : DatasetSourceKind
  storageKind : DatasetStorageKind

/-- the fields that a descriptor is derived from -/
structure Fields (U : Type) where
  id : U
  name : String
  connectionId : Option U
  catalogName : Option String
  schemaName : Option String
  tableName : Option String
  storageUri : Option String
  sourceKind : DatasetSourceKind
  storageKind : DatasetStorageKind

/-- a stored dataset; its descriptor is read back as it was dumped -/
structure DatasetRow (U : Type) extends Fields U where
  sqlAlias : String
  connectorKind : Option String
  sync : Option SyncSource
  relationIdentity : Option (RelationIdentity U)
  executionCapabilities : Option ExecutionCapabilities

/-! ## Descriptors -/

/-- `build_dataset_execution_capabilities` -/
def buildExecutionCapabilities (sourceKind : DatasetSourceKind) (storageKind : DatasetStorageKind)
    (existing : Option ExecutionCapabilities) : ExecutionCapabilities :=
  existing.getD <|
    match storageKind with
    | .table | .view | .memory | .csv | .parquet => ⟨true, true, true, true, true, false, true, true⟩
    | .virtual => ⟨true, true, true, true, false, false, true, true⟩
    | .json => ⟨false, false, false, false, false, false, sourceKind ∈ [.api, .file, .saas], false⟩

section Descriptors

variable [PySmall]

/-- `_string_or_none` -/
def stringOrNone (value : Option String) : Option String :=
  let text := strip (value.getD "")
  if text = "" then none else some text

def suppressesSchema (storageKind : DatasetStorageKind) (schemaName : Option String) : Bool :=
  storageKind ∈ [.csv, .parquet, .json] && norm (schemaName.getD "") = "api_connector"

/-- `_normalized_relation_name`; `stem` is that of a path -/
def normalizedRelationName (stem : String → String) (datasetName : String) (storageUri : Option String) : String :=
  let stripped := strip datasetName
  let uri := storageUri.getD ""
  let name := if stripped = "" ∧ uri ≠ "" then stem uri else stripped
  let runs := Metadata.subRuns (fun c => !(c.isAlphanum || c = '_')) false name.toList
  let cleaned := lower (String.ofList (trim (· = '_') runs))
  if cleaned = "" then "dataset" else cleaned

def qualifiedName (parts : List (Option String)) : Option String :=
  match parts.filterMap stringOrNone with
  | [] => none
  | parts => some (String.intercalate "." parts)

variable (stem : String → String) (uuidText : U → String)

/-- `build_dataset_relation_identity` -/
def buildRelationIdentity (f : Fields U) (existing : Option (RelationIdentity U)) : RelationIdentity U :=
  match existing with
  | some parsed =>
    if suppressesSchema f.storageKind parsed.schemaName then
      { parsed with
        qualifiedName := some ((parsed.tableName.filter (· ≠ "")).getD parsed.relationName)
        catalogName := none
        schemaName := none }
    else parsed
  | none =>
    let schemaName := if suppressesSchema f.storageKind f.schemaName then none else f.schemaName
    let normalized := (stringOrNone f.tableName).getD (normalizedRelationName stem f.name f.storageUri)
    let tableName := (f.tableName.filter (· ≠ "")).getD normalized
    { canonicalReference := "dataset:" ++ uuidText f.id
      relationName := normalized
      qualifiedName := qualifiedName [f.catalogName, schemaName, some tableName]
      catalogName := stringOrNone f.catalogName
      schemaName := stringOrNone schemaName
      tableName := stringOrNone (some tableName)
      storageUri := stringOrNone f.storageUri
      datasetId := f.id
      connectorId := f.connectionId
      sourceKind := f.sourceKind
      storageKind := f.storageKind }

/-- `_apply_dataset_descriptor_metadata`; `none` raises -/
def applyDescriptorMetadata (row : DatasetRow U) : Option (DatasetRow U) :=
  let connectorKind := norm (row.connectorKind.getD "")
  if connectorKind = "" then none
  else some { row with
    connectorKind := some connectorKind
    relationIdentity := some (buildRelationIdentity stem uuidText row.toFields row.relationIdentity)
    executionCapabilities :=
      some (buildExecutionCapabilities row.sourceKind row.storageKind row.executionCapabilities) }

/-! ## Operations -/

structure Connector (U : Type) where
  id : U
  connectorType : Option String

def Connector.kind (c : Connector U) : Option String := c.connectorType.map lower

/-- a completed request: what is to be read of a dataset, and how -/
inductive Source where
  | synced (source : SyncSource)
  | resource
  | table (name : String)
  | sql
  | file (uri : String) (parquet : Bool)

structure Definition where
  catalogName : Option String
  schemaName : Option String
  tableName : String
  sourceKind : DatasetSourceKind
  storageKind : DatasetStorageKind
  storageUri : Option String

/-- `_relation_parts`; `none` raises -/
def relationParts (name : String) : Option (Option String × Option String × String) :=
  match ((name.toList.splitOn '.').map fun part => strip (String.ofList part)).filter (· ≠ "") with
  | [] => none
  | [table] => some (none, none, table)
  | [schema, table] => some (none, some schema, table)
  | catalog :: schema :: table :: _ => some (some catalog, some schema, table)

def syncSourceKind : SyncSource → DatasetSourceKind
  | .resource _ => .api
  | .table _ | .sql _ => .database
  | .storage _ => .file

/-- `_build_dataset_definition`; `none` raises -/
def buildDefinition (sqlAlias : String) (connector : Option (Connector U)) : Source → Option Definition
  | .file uri parquet =>
    if uri = "" then none else some ⟨none, none, sqlAlias, .file, if parquet then .parquet else .csv, some uri⟩
  | source =>
    match connector, source with
    | none, _ => none
    | some _, .synced source => some ⟨none, none, sqlAlias, syncSourceKind source, .parquet, none⟩
    | some _, .table name =>
      (relationParts name).map fun parts => ⟨parts.1, parts.2.1, parts.2.2, .database, .table, none⟩
    | some _, .sql => some ⟨none, none, sqlAlias, .database, .view, none⟩
    | some _, _ => some ⟨none, none, sqlAlias, .api, .memory, none⟩

/-- the row that a definition gives -/
def definedRow (id : U) (name sqlAlias : String) (connector : Option (Connector U)) (source : Source)
    (d : Definition) : DatasetRow U :=
  let fields : Fields U :=
    ⟨id, name, connector.map Connector.id, d.catalogName, d.schemaName, some d.tableName, d.storageUri, d.sourceKind,
      d.storageKind⟩
  { toFields := fields
    sqlAlias := sqlAlias
    connectorKind := connector.bind Connector.kind
    sync := match source with | .synced source => some source | _ => none
    relationIdentity := some (buildRelationIdentity stem uuidText fields none)
    executionCapabilities := some (buildExecutionCapabilities d.sourceKind d.storageKind none) }

/-- `sync_dataset`, where it has written its file; `none` raises -/
def syncedRow (connector : Connector U) (uri : String) (row : DatasetRow U) : Option (DatasetRow U) := do
  let source ← row.sync
  applyDescriptorMetadata stem uuidText { row with
    connectionId := some connector.id
    sourceKind := syncSourceKind source
    connectorKind := connector.kind
    storageKind := .parquet
    schemaName := none
    tableName := some ((row.tableName.filter (· ≠ "")).getD (datasetSqlAlias row.name))
    storageUri := some uri }

structure FileUri where
  text : String
  nonblank : strip text ≠ ""

/-- An operation on the dataset, with what the connectors, the configuration and the files make of it: whether
everything else that it checks is in order, and the file that a sync has written. -/
inductive Op (U : Type) where
  | create (id : U) (name : String) (connector : Option (Connector U)) (source : Source) (valid : Bool)
  | update (connector : Option (Connector U)) (source : Source) (valid : Bool)
  | sync (connector : Connector U) (written : Option FileUri)

def resultOf : Option (DatasetRow U) → Op U → Option (DatasetRow U)
  | none, .create id name connector source true =>
    let name := strip name
    if name = "" then none
    else (buildDefinition (datasetSqlAlias name) connector source).map
      (definedRow stem uuidText id name (datasetSqlAlias name) connector source)
  | some row, .update connector source true =>
    (buildDefinition row.sqlAlias connector source).map
      (definedRow stem uuidText row.id row.name row.sqlAlias connector source)
  | some row, .sync connector (some uri) => syncedRow stem uuidText connector uri.text row
  | _, _ => none

/-- an operation that raises leaves what is stored -/
def step (s : Option (DatasetRow U)) (op : Op U) : Option (DatasetRow U) := (resultOf stem uuidText s op).or s

def run (ops : List (Op U)) : Option (DatasetRow U) := ops.foldl (step stem uuidText) none

/-! ## Agreement -/

structure Names (i : RelationIdentity U) (f : Fields U) : Prop where
  storageUri : i.storageUri = stringOrNone f.storageUri
  catalogName : i.catalogName = stringOrNone f.catalogName
  schemaName : i.schemaName = stringOrNone f.schemaName
  tableName : i.tableName = stringOrNone f.tableName
  connectorId : i.connectorId = f.connectionId
  sourceKind : i.sourceKind = f.sourceKind
  storageKind : i.storageKind = f.storageKind

/-- a descriptor is that of the fields beside it -/
structure Agrees (row : DatasetRow U) : Prop where
  identity : ∃ i, row.relationIdentity = some i ∧ Names i row.toFields
  capabilities : row.executionCapabilities = some (buildExecutionCapabilities row.sourceKind row.storageKind none)

/-- what every operation keeps: a descriptor of a synced dataset names no file -/
structure Inv (row : DatasetRow U) : Prop where
  aliased : ∃ name, row.sqlAlias = datasetSqlAlias name
  unnamed : ∃ i, row.relationIdentity = some i ∧ (row.sync.isSome = true → i.storageUri = none)

/-- the operation writes a sync into the dataset -/
def Syncs (s : Option (DatasetRow U)) : Op U → Prop
  | .sync connector (some _) =>
    (∃ row, s = some row ∧ row.sync.isSome = true) ∧ norm (connector.kind.getD "") ≠ ""
  | _ => False

variable {stem uuidText} {row : DatasetRow U} {s : Option (DatasetRow U)} {op : Op U}

theorem stringOrNone_some {text : String} (h : strip text ≠ "") :
    stringOrNone (some text) = some (strip text) := if_neg h

theorem relationParts_spec {name : String} {parts : Option String × Option String × String}
    (h : relationParts name = some parts) : strip parts.2.2 ≠ "" := by
  have hpart : ∀ t ∈ ((name.toList.splitOn '.').map fun part => strip (String.ofList part)).filter (· ≠ ""),
      strip t ≠ "" := by
    intro t ht
    obtain ⟨hmem, hne⟩ := mem_filter.1 ht
    obtain ⟨part, -, rfl⟩ := mem_map.1 hmem
    rw [PyText.strip_strip]
    simpa using hne
  rw [relationParts] at h
  split at h <;> cases h <;> rename_i hparts <;> rw [hparts] at hpart <;> exact hpart _ (by simp)

/-- a definition names a table and suppresses no schema, and that of a synced dataset names no file -/
theorem definition_spec {connector : Option (Connector U)} {source : Source} {d : Definition} {name : String}
    (h : buildDefinition (datasetSqlAlias name) connector source = some d) :
    strip d.tableName ≠ "" ∧ suppressesSchema d.storageKind d.schemaName = false ∧
      (∀ synced, source = .synced synced → d.storageUri = none) := by
  have halias : strip (datasetSqlAlias name) ≠ "" := by
    rw [(Metadata.lower_strip_alias name).2]
    exact Metadata.alias_ne_empty name
  have hschema : ∀ kind, suppressesSchema kind none = false := by
    intro kind
    simp [suppressesSchema]
  cases source with
  | file uri parquet =>
    obtain ⟨-, h⟩ := ite_none_left_eq_some.1 h
    cases h
    exact ⟨halias, hschema _, fun _ h => by cases h⟩
  | table table =>
    cases connector with
    | none => cases h
    | some connector =>
      obtain ⟨parts, hparts, rfl⟩ := map_eq_some_iff.1 h
      exact ⟨relationParts_spec hparts, rfl, fun _ h => by cases h⟩
  | synced source =>
    cases connector <;> cases h
    exact ⟨halias, hschema _, fun _ _ => rfl⟩
  | resource =>
    cases connector <;> cases h
    exact ⟨halias, hschema _, fun _ h => by cases h⟩
  | sql =>
    cases connector <;> cases h
    exact ⟨halias, hschema _, fun _ h => by cases h⟩

/-- **A descriptor that is built anew** is that of its fields. -/
theorem names_build {f : Fields U} {table : String} (htable : f.tableName = some table)
    (hne : strip table ≠ "") (hschema : suppressesSchema f.storageKind f.schemaName = false) :
    Names (buildRelationIdentity stem uuidText f none) f := by
  have htext : table ≠ "" := by
    rintro rfl
    exact hne PyText.strip_empty
  refine ⟨rfl, rfl, ?_, ?_, rfl, rfl, rfl⟩
  · simp [buildRelationIdentity, hschema]
  · simp [buildRelationIdentity, htable, Option.filter, htext]

theorem definedRow_agrees {id : U} {name sqlAlias : String} {connector : Option (Connector U)} {source : Source}
    (halias : ∃ name, sqlAlias = datasetSqlAlias name)
    (h : (buildDefinition sqlAlias connector source).map (definedRow stem uuidText id name sqlAlias connector source) =
      some row) : Agrees row ∧ Inv row := by
  obtain ⟨d, hd, rfl⟩ := map_eq_some_iff.1 h
  obtain ⟨htable, hschema, huri⟩ := definition_spec (halias.choose_spec ▸ hd)
  refine ⟨⟨⟨_, rfl, names_build rfl htable hschema⟩, rfl⟩, ⟨halias, _, rfl, fun hsync => ?_⟩⟩
  cases source with
  | synced source =>
    change stringOrNone d.storageUri = none
    rw [huri source rfl]
    simp [stringOrNone]
  | _ => cases hsync

theorem build_storageUri (f : Fields U) (i : RelationIdentity U) :
    (buildRelationIdentity stem uuidText f (some i)).storageUri = i.storageUri := by
  rw [buildRelationIdentity]
  split_ifs <;> rfl

/-- **A sync** keeps the descriptor, which names no file beside the field that names one. -/
theorem sync_stale {connector : Connector U} {uri : FileUri} {row' : DatasetRow U} (hinv : Inv row)
    (h : syncedRow stem uuidText connector uri.text row = some row') : Inv row' ∧ ¬Agrees row' := by
  obtain ⟨source, hsync, h⟩ := bind_eq_some_iff.1 h
  obtain ⟨-, h⟩ := ite_none_left_eq_some.1 h
  obtain ⟨i, hi, hnone⟩ := hinv.unnamed
  have hnone : i.storageUri = none := hnone (by rw [hsync]; rfl)
  cases h
  constructor
  · refine ⟨hinv.aliased, _, rfl, fun _ => ?_⟩
    rw [hi, build_storageUri, hnone]
  · rintro ⟨⟨j, hj, hnames⟩, -⟩
    have huri := hnames.storageUri
    rw [← Option.some.inj hj, hi, build_storageUri, hnone, stringOrNone_some uri.nonblank] at huri
    cases huri

/-- a sync is written where it finds what it needs -/
theorem syncedRow_isSome (connector : Connector U) (uri : FileUri) (row : DatasetRow U) :
    (syncedRow stem uuidText connector uri.text row).isSome = true ↔ Syncs (some row) (.sync connector (some uri)) := by
  rw [syncedRow]
  cases hsync : row.sync <;> simp [applyDescriptorMetadata, Syncs, hsync]

/-! ## Sequences of operations -/

/-- what an operation stores is defined anew, or synced -/
theorem resultOf_cases {row' : DatasetRow U} (hinv : ∀ row ∈ s, Inv row)
    (h : resultOf stem uuidText s op = some row') :
    (Agrees row' ∧ Inv row' ∧ ¬Syncs s op) ∨
      ∃ row connector uri, s = some row ∧ op = .sync connector (some uri) ∧
        syncedRow stem uuidText connector uri.text row = some row' := by
  unfold resultOf at h
  split at h
  · obtain ⟨hagrees, hrow⟩ := definedRow_agrees ⟨_, rfl⟩ (ite_none_left_eq_some.1 h).2
    exact .inl ⟨hagrees, hrow, id⟩
  · rename_i row connector source
    obtain ⟨hagrees, hrow⟩ := definedRow_agrees (hinv row rfl).aliased h
    exact .inl ⟨hagrees, hrow, id⟩
  · exact .inr ⟨_, _, _, rfl, rfl, h⟩
  · cases h

theorem step_inv (hinv : ∀ row ∈ s, Inv row) : ∀ row ∈ step stem uuidText s op, Inv row := by
  intro row' h
  rcases or_eq_some_iff.1 h with h | ⟨-, h⟩
  · rcases resultOf_cases hinv h with ⟨-, h, -⟩ | ⟨row, connector, uri, rfl, rfl, h⟩
    · exact h
    · exact (sync_stale (hinv row rfl) h).1
  · exact hinv row' h

/-- **An operation that writes no sync** keeps the agreement. -/
theorem step_agrees (hinv : ∀ row ∈ s, Inv row) (hagrees : ∀ row ∈ s, Agrees row) (hsync : ¬Syncs s op) :
    ∀ row ∈ step stem uuidText s op, Agrees row := by
  intro row' h
  rcases or_eq_some_iff.1 h with h | ⟨-, h⟩
  · rcases resultOf_cases hinv h with ⟨h, -, -⟩ | ⟨row, connector, uri, rfl, rfl, h⟩
    · exact h
    · exact absurd ((syncedRow_isSome connector uri row).1 (isSome_iff_exists.2 ⟨row', h⟩)) hsync
  · exact hagrees row' h

/-- **A sync that is written** ends it. -/
theorem step_stale (hinv : ∀ row ∈ s, Inv row) (hsync : Syncs s op) :
    ∃ row ∈ step stem uuidText s op, ¬Agrees row := by
  match op, hsync with
  | .sync connector (some uri), hsync =>
    obtain ⟨row, rfl, -⟩ := hsync.1
    obtain ⟨row', h⟩ := isSome_iff_exists.1 ((syncedRow_isSome connector uri row).2 hsync)
    exact ⟨row', or_eq_some_iff.2 (.inl h), (sync_stale (hinv row rfl) h).2⟩

theorem run_snoc (ops : List (Op U)) (op : Op U) :
    run stem uuidText (ops ++ [op]) = step stem uuidText (run stem uuidText ops) op :=
  foldl_concat _ _ _ _

theorem run_inv (ops : List (Op U)) : ∀ row ∈ run stem uuidText ops, Inv row := by
  induction ops using List.reverseRecOn with
  | nil => exact fun row h => by cases h
  | append_singleton ops op ih =>
    rw [run_snoc]
    exact step_inv ih

/-- **Descriptors** agree with the fields after each of a sequence of operations exactly where none of them writes a
sync. -/
theorem descriptors_agree_iff (stem : String → String) (uuidText : U → String) (ops : List (Op U)) :
    (∀ before, before <+: ops → ∀ row ∈ run stem uuidText before, Agrees row) ↔
      ∀ before op, before ++ [op] <+: ops → ¬Syncs (run stem uuidText before) op := by
  constructor
  · intro h before op hprefix hsync
    obtain ⟨row, hrow, hstale⟩ := step_stale (run_inv before) hsync
    rw [← run_snoc] at hrow
    exact hstale (h _ hprefix row hrow)
  · intro h before
    induction before using List.reverseRecOn with
    | nil => exact fun _ row h => by cases h
    | append_singleton before op ih =>
      intro hprefix
      rw [run_snoc]
      exact step_agrees (run_inv before) (ih ((prefix_append before [op]).trans hprefix)) (h before op hprefix)

end Descriptors

/-! ## A synced dataset -/

section Synced

open scoped Ascii

def shop : Connector ℕ := ⟨7, some "SHOPIFY"⟩

/-- the orders of a shop are created, and then synced into a file -/
def ordersOps : List (Op ℕ) :=
  [.create 1 "Orders" (some shop) (.synced (.resource "orders")) true,
    .sync shop (some ⟨"file:///orders.parquet", by decide⟩)]

/-- **A stale descriptor**: after the first sync it names no file. -/
theorem synced_stale : ¬∀ before, before <+: ordersOps → ∀ row ∈ run id toString before, Agrees row := by
  intro h
  obtain ⟨row, hrow, hidentity, huri⟩ : ∃ row, run id toString ordersOps = some row ∧
      row.relationIdentity.map RelationIdentity.storageUri = some none ∧
      stringOrNone row.storageUri = some "file:///orders.parquet" := ⟨_, rfl, by decide +kernel, by decide +kernel⟩
  obtain ⟨i, hi, hnames⟩ := (h ordersOps (prefix_refl _) row hrow).identity
  rw [hi, map_some, hnames.storageUri, huri] at hidentity
  cases hidentity

end Synced

end Langbridge.Runtime.DatasetDescriptors
