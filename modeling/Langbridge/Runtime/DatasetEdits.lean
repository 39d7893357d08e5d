/-
Edits of a synced dataset (`DatasetApplication.update_dataset` with only a description, tags or a policy): the request
is completed from the stored row, and the whole definition is written anew, as that of a dataset that waits for its
sync.
-/
import Langbridge.Runtime.Restarts

namespace Langbridge.Runtime.DatasetEdits

open Core Metadata Option

/-! ## Edits -/

/-- the fields of an update request that are given; a description may be given as `None` -/
structure DatasetEdit where
  description : Option (Option String) := none
  tags : Option (List String) := none
  policy : Option PolicyConfig := none

def policyRequestFromDataset : Option Policy → PolicyConfig
  | none => {}
  | some p => ⟨some p.maxRowsPreview, some p.maxExportRows, p.redactionRules, p.rowFilters, p.allowDml⟩

def syncSourceLabel : SyncSource → String
  | .resource path => "API resource path '" ++ path ++ "'"
  | .table name => "table '" ++ name ++ "'"
  | .sql _ => "SQL query"
  | .storage uri => "storage source '" ++ uri ++ "'"

section Edits

variable [PyText] (hash : String → String) (cfg : RuntimeConfig)

def datasetDescription (description : Option String) (source : SyncSource) : String :=
  (description.filter (· ≠ "")).getD
    ("Runtime-managed synced dataset awaiting dataset sync for " ++ syncSourceLabel source ++ ".")

def datasetTags (existing : List String) (connectorType : String) : SyncSource → List String
  | .storage _ => mergeDatasetTags existing []
  | source => mergeDatasetTags existing (syncSourceTags connectorType source)

def editRequest (connectorType : Uuid → String) (s : MetadataStore) (row : Dataset) (source : SyncSource)
    (e : DatasetEdit) : DatasetRequest where
  connectionId := row.connectionId
  description := some (datasetDescription (e.description.getD row.description) source)
  tags := datasetTags (e.tags.getD row.tags) ((row.connectionId.map connectorType).getD "") source
  sync := row.sync
  definition := syncedDefinition row.sqlAlias source
  storageUri := none
  policy := e.policy.getD (policyRequestFromDataset (policyOf s row.id))
  -- `next_columns = []`
  columns := some []

/-- `update_dataset` with an edit of a synced dataset; `refuses` is what validating the completed request raises -/
def editDataset (connectorType : Uuid → String) (refuses : Dataset → DatasetEdit → Option String) (source : SyncSource)
    (id : Uuid) (revision policy : ℕ) (e : DatasetEdit) (now : ℕ) (s : MetadataStore) :
    Except String MetadataStore := do
  let row ← requireRuntimeManaged s id
  match refuses row e with
  | some message => throw message
  | none => updateDataset hash cfg id revision policy (editRequest connectorType s row source e) now s

/-- the store after an edit, which leaves it as it was where it raises -/
def afterEdit (connectorType : Uuid → String) (refuses : Dataset → DatasetEdit → Option String) (source : SyncSource)
    (id : Uuid) (revision policy : ℕ) (e : DatasetEdit) (now : ℕ) (s : MetadataStore) : MetadataStore :=
  match editDataset hash cfg connectorType refuses source id revision policy e now s with
  | .ok s' => s'
  | .error _ => s

end Edits

/-! ## What is materialised -/

structure SyncedDataset (s : MetadataStore) where
  id : Uuid
  row : Dataset
  source : SyncSource
  stored : s.datasets.get? id = some row
  sync : row.sync = some source

structure Reached [PyText] (hash : String → String) (cfg : RuntimeConfig) where
  store : MetadataStore
  reached : ∃ t s ops, start hash cfg t .empty = .ok s ∧ store = (run hash cfg s ops).store

/-- two rows say the same of where a dataset's rows are, and of how many there are -/
structure SameMaterialized (m m' : Materialized) : Prop where
  storageUri : m'.storageUri = m.storageUri
  status : m'.status = m.status
  rowCount : m'.rowCountEstimate = m.rowCountEstimate
  bytes : m'.bytesEstimate = m.bytesEstimate

/-- a dataset keeps what is materialised of it: its row says the same, and its columns are the same -/
structure KeepsMaterialized (s s' : MetadataStore) (d : SyncedDataset s) : Prop where
  row : ∃ row', s'.datasets.get? d.id = some row' ∧ SameMaterialized d.row.materialized row'.materialized
  columns : ∀ k c, c.datasetId = d.id → (s'.columns.get? k = some c ↔ s.columns.get? k = some c)

/-- nothing is materialised of a dataset -/
structure Unmaterialized (s : MetadataStore) (d : SyncedDataset s) : Prop where
  row : SameMaterialized d.row.materialized pending
  columns : ∀ k c, s.columns.get? k = some c → c.datasetId ≠ d.id

section Steps

variable [PyText] {hash : String → String} {cfg : RuntimeConfig} {connectorType : Uuid → String}
  {refuses : Dataset → DatasetEdit → Option String} {s s' : MetadataStore}

theorem Reached.inv (r : Reached hash cfg) : Metadata.Inv hash cfg r.store := by
  obtain ⟨t, s, ops, hstart, hstore⟩ := r.reached
  rw [hstore]
  exact run_inv (start_empty_inv hstart) ops

/-- the row of an edited dataset has the source it had, which no other dataset has -/
theorem edit_available (h : Metadata.Inv hash cfg s) (d : SyncedDataset s) (revision : ℕ) (e : DatasetEdit) (now : ℕ) :
    sourceAvailable hash s d.id
      (updatedRow d.row revision (editRequest connectorType s d.row d.source e) now) := by
  intro entry hentry hne hbound hsame
  have hget : s.datasets.get? entry.1 = some entry.2 := (Dict.get?_eq_some_iff _ _ _).2 hentry
  refine hne (h.datasets.bindings entry.1 d.id entry.2 d.row hget d.stored ?_ hsame)
  rwa [hsame]

theorem edit_accepted (h : Metadata.Inv hash cfg s) (d : SyncedDataset s) (revision policy : ℕ) (e : DatasetEdit)
    (now : ℕ) (hmode : d.row.managementMode = .runtimeManaged) (hrefuses : refuses d.row e = none) :
    editDataset hash cfg connectorType refuses d.source d.id revision policy e now s =
      .ok (replaceColumns d.id [] (saveDataset
        (updatedRow d.row revision (editRequest connectorType s d.row d.source e) now)
        (savePolicy (requestedPolicy cfg s d.id policy
          (editRequest connectorType s d.row d.source e).policy now) s))) := by
  have hrow : requireRuntimeManaged s d.id = .ok d.row := by
    rw [requireRuntimeManaged, d.stored]
    exact if_pos hmode
  unfold editDataset updateDataset
  simp only [hrow, hrefuses, bind, Except.bind]
  exact if_pos (edit_available h d revision e now)

/-- an edit is refused where the dataset is a configured one, or the completed request is not valid -/
theorem edit_refused (d : SyncedDataset s) (revision policy : ℕ) (e : DatasetEdit) (now : ℕ)
    (hrefused : d.row.managementMode ≠ .runtimeManaged ∨ refuses d.row e ≠ none) :
    afterEdit hash cfg connectorType refuses d.source d.id revision policy e now s = s := by
  have herror : ∃ m, editDataset hash cfg connectorType refuses d.source d.id revision policy e now s = .error m := by
    unfold editDataset
    by_cases hmode : d.row.managementMode = .runtimeManaged
    · have hrow : requireRuntimeManaged s d.id = .ok d.row := by
        rw [requireRuntimeManaged, d.stored]
        exact if_pos hmode
      obtain ⟨m, hm⟩ := ne_none_iff_exists'.1 (hrefused.resolve_left fun hne => hne hmode)
      refine ⟨m, ?_⟩
      simp only [hrow, hm, bind, Except.bind]
      rfl
    · have hrow : requireRuntimeManaged s d.id = .error "read-only" := by
        rw [requireRuntimeManaged, d.stored]
        exact if_neg hmode
      exact ⟨_, by rw [hrow]; rfl⟩
  obtain ⟨m, hm⟩ := herror
  rw [afterEdit, hm]

/-- **An edit.** An accepted edit leaves a row that waits for its sync, no columns, and every sync state. -/
theorem edit_resets (h : Metadata.Inv hash cfg s) (d : SyncedDataset s) (revision policy : ℕ) (e : DatasetEdit)
    (now : ℕ) (hmode : d.row.managementMode = .runtimeManaged) (hrefuses : refuses d.row e = none) :
    ∃ row', (afterEdit hash cfg connectorType refuses d.source d.id revision policy e now s).datasets.get? d.id =
        some row' ∧ SameMaterialized pending row'.materialized ∧
      (∀ k c, (afterEdit hash cfg connectorType refuses d.source d.id revision policy e now s).columns.get? k =
        some c → c.datasetId ≠ d.id) ∧
      (afterEdit hash cfg connectorType refuses d.source d.id revision policy e now s).states = s.states := by
  have hkey := h.datasets.keyed d.id d.row d.stored
  have hsync : (editRequest connectorType s d.row d.source e).sync.isSome = true := by
    change d.row.sync.isSome = true
    rw [d.sync]
    rfl
  rw [afterEdit, edit_accepted h d revision policy e now hmode hrefuses]
  refine ⟨updatedRow d.row revision (editRequest connectorType s d.row d.source e) now, ?_, ⟨rfl, ?_, ?_, ?_⟩, ?_, rfl⟩
  · have hset := Dict.get?_set_self s.datasets d.id
      (updatedRow d.row revision (editRequest connectorType s d.row d.source e) now)
    rw [← hkey] at hset ⊢
    exact hset
  · exact if_pos hsync
  · exact if_pos hsync
  · exact if_pos hsync
  · intro k c hc howner
    rcases replaced_cases hc with ⟨hmem, _⟩ | ⟨_, _, hother⟩
    · cases hmem
    · exact hother (List.mem_singleton.2 howner)

end Steps

/-! ## A described dataset -/

section Described

open scoped Ascii

/-- a shop without configured datasets -/
def plainShop : RuntimeConfig := { shopConfig with datasets := [] }

def ordersRequest : DatasetRequest where
  connectionId := some (connectorId plainShop "shop")
  description := some "Orders"
  tags := []
  sync := some (.resource "orders")
  definition := syncedDefinition "orders" (.resource "orders")
  storageUri := none
  policy := {}
  columns := some []

def ordersOps : List Op := [.createDataset 1 2 3 "orders" ordersRequest 1, .sync (.random 1) ordersWrites true]

/-- what a store says of where the orders are -/
def ordersUri (s : MetadataStore) : Option (Option String × DatasetStatus) :=
  (s.datasets.get? (.random 1)).map fun row => (row.materialized.storageUri, row.materialized.status)

/-- a new description -/
def described : DatasetEdit := ⟨some (some "All orders"), none, none⟩

def afterDescribed (s : MetadataStore) : MetadataStore :=
  afterEdit id plainShop (fun _ => "SHOPIFY") (fun _ _ => none) (.resource "orders") (.random 1) 4 5 described 2 s

end Described

end Langbridge.Runtime.DatasetEdits
