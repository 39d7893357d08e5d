/-
A runtime over its metadata store: requests create, update and delete what they manage, syncs materialise datasets, and
the runtime is started again under the configuration it has.

A sync of a dataset is one unit of work: it writes the dataset's row, its columns, its policy and the sync state, and
commits them. When the commit raises, they are rolled back, and the failure is recorded with the state that the sync had
reached. A history remembers what the last sync of each dataset wrote.
-/
import Langbridge.Runtime.MetadataStore

namespace Langbridge.Runtime.Metadata

open Core List Dict Option

/-! ## Requests and syncs -/

/-- what a request says of a dataset; the columns come with their random identifiers -/
structure DatasetRequest where
  connectionId : Option Uuid
  description : Option String
  tags : List String
  sync : Option SyncSource
  definition : Definition
  storageUri : Option String
  policy : PolicyConfig
  columns : Option (List (ℕ × FileColumn))

/-- what a sync has read and written to its file; the identifiers are random -/
structure SyncWrites where
  storageUri : String
  rowCount : ℕ
  bytes : Option ℕ
  columns : List (ℕ × FileColumn)
  revision : ℕ
  policy : ℕ
  description : String
  tags : List String
  mode : SyncMode
  cursor : Option String
  records : ℕ
  pages : ℕ
  now : ℕ

/-- what happens to a runtime -/
inductive Op where
  | restart (t : Start)
  | createDataset (id revision policy : ℕ) (name : String) (r : DatasetRequest) (now : ℕ)
  | updateDataset (id : Uuid) (revision policy : ℕ) (r : DatasetRequest) (now : ℕ)
  | deleteDataset (id : Uuid)
  | saveResource (kind : ResourceKind) (id : ℕ) (name content : String) (now : ℕ)
  | deleteResource (kind : ResourceKind) (id : Uuid)
  | sync (id : Uuid) (w : SyncWrites) (commits : Bool)

/-- what the last committed sync of a dataset wrote -/
structure Synced where
  materialized : Materialized
  columns : List String
  cursor : Option String

/-- a runtime: its store, and what its syncs have written -/
structure Host where
  store : MetadataStore
  history : Dict Uuid Synced

section Steps

variable [PyText] (hash : String → String) (cfg : RuntimeConfig)

def binding (row : Dataset) : Option (Uuid × String) :=
  match row.connectionId, row.sync with
  | some connection, some source => some (connection, syncSourceKey hash source)
  | _, _ => none

/-- `_assert_sync_source_is_available`, besides the dataset itself -/
def sourceAvailable (s : MetadataStore) (id : Uuid) (row : Dataset) : Prop :=
  ∀ e ∈ s.datasets.entries, e.1 ≠ id → binding hash row ≠ none → binding hash e.2 ≠ binding hash row

instance (s : MetadataStore) (id : Uuid) (row : Dataset) : Decidable (sourceAvailable hash s id row) :=
  inferInstanceAs (Decidable (∀ e ∈ s.datasets.entries,
    e.1 ≠ id → binding hash row ≠ none → binding hash e.2 ≠ binding hash row))

/-- `_assert_dataset_name_is_available` -/
def nameAvailable (s : MetadataStore) (row : Dataset) : Prop :=
  ∀ e ∈ s.datasets.entries, e.2.name ≠ row.name ∧ e.2.sqlAlias ≠ row.sqlAlias

instance (s : MetadataStore) (row : Dataset) : Decidable (nameAvailable s row) :=
  inferInstanceAs (Decidable (∀ e ∈ s.datasets.entries, e.2.name ≠ row.name ∧ e.2.sqlAlias ≠ row.sqlAlias))

/-- columns in the order of a schema -/
def columnRows (owner : Uuid) (now : ℕ) (columns : List (ℕ × FileColumn)) : List Column :=
  columns.zipIdx.map fun e =>
    ⟨.random e.1.1, owner, e.1.2.name, e.1.2.dataType, e.1.2.nullable, e.2, none, none, now, now⟩

/-- the columns of a dataset, deleted and written anew -/
def replaceColumns (owner : Uuid) (columns : List Column) (s : MetadataStore) : MetadataStore :=
  { s with columns := replaced Column.id Column.datasetId [owner] columns s.columns }

/-- `get_for_dataset` -/
def policyOf (s : MetadataStore) (owner : Uuid) : Option Policy :=
  s.policies.values.find? fun p => p.datasetId = owner

def savePolicy (p : Policy) (s : MetadataStore) : MetadataStore := { s with policies := s.policies.set p.id p }

def saveDataset (row : Dataset) (s : MetadataStore) : MetadataStore := { s with datasets := s.datasets.set row.id row }

/-- what is materialised of a dataset that a request has defined -/
def requested (r : DatasetRequest) (revision : ℕ) : Materialized :=
  ⟨r.storageUri, if r.sync.isSome then .pendingSync else .published, some (.random revision), none, none⟩

def createdRow (id revision : ℕ) (name : String) (r : DatasetRequest) (now : ℕ) : Dataset where
  id := .random id
  connectionId := r.connectionId
  name := name
  sqlAlias := datasetSqlAlias name
  description := r.description
  tags := r.tags
  sync := r.sync
  definition := r.definition
  materialized := requested r revision
  managementMode := .runtimeManaged
  createdAt := now
  updatedAt := now

/-- the row of a dataset that a request has changed; what was counted stays unless the dataset is now a synced one -/
def updatedRow (row : Dataset) (revision : ℕ) (r : DatasetRequest) (now : ℕ) : Dataset :=
  { row with
    connectionId := r.connectionId
    description := r.description
    tags := r.tags
    sync := r.sync
    definition := r.definition
    materialized :=
      { requested r revision with
        rowCountEstimate := if r.sync.isSome then none else row.materialized.rowCountEstimate
        bytesEstimate := if r.sync.isSome then none else row.materialized.bytesEstimate }
    updatedAt := now }

/-- `_build_dataset_policy` over the policy there is -/
def requestedPolicy (s : MetadataStore) (owner : Uuid) (policy : ℕ) (p : PolicyConfig) (now : ℕ) : Policy :=
  match policyOf s owner with
  | none => buildPolicy cfg (.random policy) owner now p
  | some old => { buildPolicy cfg old.id owner now p with createdAt := old.createdAt }

def createDataset (id revision policy : ℕ) (name : String) (r : DatasetRequest) (now : ℕ) (s : MetadataStore) :
    Except String MetadataStore :=
  let row := createdRow id revision name r now
  if ¬ nameAvailable s row then .error "name"
  else if ¬ sourceAvailable hash s row.id row then .error "source"
  else .ok (saveDataset row (replaceColumns row.id (columnRows row.id now (r.columns.getD []))
    (savePolicy (buildPolicy cfg (.random policy) row.id now r.policy) s)))

def requireRuntimeManaged (s : MetadataStore) (id : Uuid) : Except String Dataset :=
  match s.datasets.get? id with
  | none => .error "not found"
  | some row => if row.managementMode = .runtimeManaged then .ok row else .error "read-only"

def updateDataset (id : Uuid) (revision policy : ℕ) (r : DatasetRequest) (now : ℕ) (s : MetadataStore) :
    Except String MetadataStore := do
  let row ← requireRuntimeManaged s id
  let row' := updatedRow row revision r now
  if sourceAvailable hash s id row' then
    let s' := saveDataset row' (savePolicy (requestedPolicy cfg s id policy r.policy now) s)
    return match r.columns with
      | none => s'
      | some columns => replaceColumns id (columnRows id now columns) s'
  else throw "source"

/-- `delete_dataset`, which takes the columns and the policy along -/
def deleteDataset (id : Uuid) (s : MetadataStore) : Except String MetadataStore := do
  let _ ← requireRuntimeManaged s id
  return { s with
    datasets := s.datasets.erase id
    columns := s.columns.filter fun c => c.datasetId ≠ id
    policies := s.policies.filter fun p => p.datasetId ≠ id }

/-- `create_connector`, `update_connector` and those of the semantic models -/
def saveResource (kind : ResourceKind) (id : ℕ) (name content : String) (now : ℕ) (s : MetadataStore) : MetadataStore :=
  let r : Resource := ⟨kind, .random id, name, content, .runtimeManaged, now⟩
  { s with resources := s.resources.set r.key r }

/-- `delete_connector` and that of the semantic models -/
def deleteResource (kind : ResourceKind) (id : Uuid) (s : MetadataStore) : Except String MetadataStore :=
  match s.resources.get? (kind, id) with
  | none => .error "not found"
  | some r =>
    if r.managementMode = .runtimeManaged then .ok { s with resources := s.resources.erase (kind, id) }
    else .error "read-only"

/-! ## Syncs -/

def mergeTags (existing required : List String) : List String :=
  (existing ++ required).foldl (fun merged raw =>
    let tag := PyText.strip raw
    if tag = "" ∨ tag ∈ merged then merged else merged ++ [tag]) []

/-- what a sync has materialised -/
def SyncWrites.materialized (w : SyncWrites) : Materialized :=
  ⟨some w.storageUri, .published, some (.random w.revision), some w.rowCount, w.bytes⟩

def syncedRow (row : Dataset) (source : SyncSource) (w : SyncWrites) : Dataset :=
  { row with
    description := if PyText.strip (row.description.getD "") = "" then some w.description else row.description
    tags := mergeTags row.tags w.tags
    definition :=
      { syncedDefinition (if row.definition.tableName = "" then row.sqlAlias else row.definition.tableName) source with
        catalogName := row.definition.catalogName
        sqlText := row.definition.sqlText }
    materialized := w.materialized
    updatedAt := w.now }

/-- `_get_or_create_policy` -/
def syncedPolicy (s : MetadataStore) (owner : Uuid) (w : SyncWrites) : Policy :=
  match policyOf s owner with
  | none => ⟨.random w.policy, owner, 1000, 100000, [], [], false, w.now, w.now⟩
  | some old => { old with allowDml := false, updatedAt := w.now }

/-- `_materialize_existing_dataset` -/
def materialize (row : Dataset) (source : SyncSource) (w : SyncWrites) (s : MetadataStore) : MetadataStore :=
  saveDataset (syncedRow row source w)
    (savePolicy (syncedPolicy s row.id w) (replaceColumns row.id (columnRows row.id w.now w.columns) s))

def succeededState (key : String) (w : SyncWrites) : SyncState :=
  ⟨key, w.mode, w.cursor, .succeeded, none, w.records, w.pages⟩

/-- the one whose commit has raised -/
def lostState (key : String) (w : SyncWrites) : SyncState :=
  { succeededState key w with status := .failed, errorMessage := some "commit" }

def saveState (connection : Uuid) (key : String) (state : SyncState) (s : MetadataStore) : MetadataStore :=
  { s with states := s.states.set (connection, key) state }

/-- a sync of a dataset, which is one unit of work, and what is left when its commit raises -/
def syncDataset (id : Uuid) (w : SyncWrites) (commits : Bool) (s : MetadataStore) : Except String MetadataStore :=
  match s.datasets.get? id with
  | none => .error "not found"
  | some row =>
    match row.connectionId, row.sync with
    | some connection, some source =>
      let key := syncSourceKey hash source
      if commits then .ok (saveState connection key (succeededState key w) (materialize row source w s))
      else .ok (saveState connection key (lostState key w) s)
    | _, _ => .error "not a synced dataset"

/-- what a sync that is committed leaves for the history -/
def remembered (op : Op) (history : Dict Uuid Synced) : Dict Uuid Synced :=
  match op with
  | .sync id w true => history.set id ⟨w.materialized, w.columns.map fun c => c.2.name, w.cursor⟩
  | .deleteDataset id => history.erase id
  | _ => history

def resultOf (s : MetadataStore) : Op → Except String MetadataStore
  | .restart t => start hash cfg t s
  | .createDataset id revision policy name r now => createDataset hash cfg id revision policy name r now s
  | .updateDataset id revision policy r now => updateDataset hash cfg id revision policy r now s
  | .deleteDataset id => deleteDataset id s
  | .saveResource kind id name content now => .ok (saveResource kind id name content now s)
  | .deleteResource kind id => deleteResource kind id s
  | .sync id w commits => syncDataset hash id w commits s

/-- a step of the runtime; what raises leaves everything as it was -/
def step (r : Host) (op : Op) : Host :=
  match resultOf hash cfg r.store op with
  | .ok s => ⟨s, remembered op r.history⟩
  | .error _ => r

/-- a runtime from its first start -/
def run (s : MetadataStore) (ops : List Op) : Host := ops.foldl (step hash cfg) ⟨s, .empty⟩

/-! ## The datasets of every store reached -/

structure ConfiguredRow (d : DatasetConfig) (row : Dataset) : Prop where
  mode : row.managementMode = .configManaged
  name : row.name = d.name
  sqlAlias : row.sqlAlias = datasetSqlAlias d.name
  connection : row.connectionId = connectionOf cfg d
  sync : row.sync = syncOf d

/-- the rows of the datasets: under their identifiers, the configured ones among them, with names and sources of their
own -/
structure DatasetsInv (datasets : Dict Uuid Dataset) : Prop where
  keyed : ∀ k row, datasets.get? k = some row → row.id = k
  configured : ∀ d ∈ datasetConfigs cfg, ∃ row, datasets.get? (datasetId cfg d) = some row ∧ ConfiguredRow cfg d row
  names : ∀ k k' row row', datasets.get? k = some row → datasets.get? k' = some row' →
    row.name = row'.name ∨ row.sqlAlias = row'.sqlAlias → k = k'
  bindings : ∀ k k' row row', datasets.get? k = some row → datasets.get? k' = some row' →
    binding hash row ≠ none → binding hash row = binding hash row' → k = k'

variable {hash cfg} {t : Start} {s s' : MetadataStore} {datasets : Dict Uuid Dataset}

omit [PyText] in
theorem uniqueNames_iff : UniqueNames datasets ↔ ∀ k k' row row', datasets.get? k = some row →
    datasets.get? k' = some row' → row.name = row'.name ∨ row.sqlAlias = row'.sqlAlias → k = k' := by
  constructor
  · intro h k k' row row' hk hk' heq
    exact h (k, row) ((get?_eq_some_iff _ _ _).1 hk) (k', row') ((get?_eq_some_iff _ _ _).1 hk') heq
  · intro h e he e' he' heq
    exact h e.1 e'.1 e.2 e'.2 ((get?_eq_some_iff _ _ _).2 he) ((get?_eq_some_iff _ _ _).2 he') heq

theorem binding_congr {row row' : Dataset} (hconn : row.connectionId = row'.connectionId)
    (hsync : row.sync = row'.sync) :
    binding hash row = binding hash row' := by
  rw [binding, binding, hconn, hsync]

theorem configuredRow_build (now : ℕ) (d : DatasetConfig) : ConfiguredRow cfg d (buildDataset cfg now d) :=
  ⟨buildDataset_managementMode now d, buildDataset_name now d, buildDataset_sqlAlias now d,
    buildDataset_connectionId now d, buildDataset_sync now d⟩

/-- a start changes neither names nor sources -/
theorem started_row (h : DatasetsInv hash cfg s.datasets) {k : Uuid} {row : Dataset}
    (hrow : (started cfg t s).datasets.get? k = some row) :
    row.id = k ∧ ∃ row₀, s.datasets.get? k = some row₀ ∧ row₀.name = row.name ∧ row₀.sqlAlias = row.sqlAlias ∧
      binding hash row₀ = binding hash row := by
  rcases started_cases hrow with ⟨d, hd, rfl, rfl⟩ | ⟨_, hrow⟩
  · obtain ⟨row₀, hrow₀, hconf⟩ := h.configured d hd
    have hnew : ConfiguredRow cfg d (buildDataset cfg t.now d) := configuredRow_build t.now d
    refine ⟨buildDataset_id t.now d, row₀, hrow₀, ?_, ?_, ?_⟩
    · rw [hconf.name, hnew.name]
    · rw [hconf.sqlAlias, hnew.sqlAlias]
    · exact binding_congr (hconf.connection.trans hnew.connection.symm) (hconf.sync.trans hnew.sync.symm)
  · exact ⟨h.keyed k row hrow, row, hrow, rfl, rfl, rfl⟩

theorem datasetsInv_started (h : DatasetsInv hash cfg s.datasets) :
    DatasetsInv hash cfg (started cfg t s).datasets where
  keyed := fun k row hrow => (started_row h hrow).1
  configured := fun d hd => ⟨_, started_configured hd, configuredRow_build t.now d⟩
  names := by
    intro k k' row row' hk hk' heq
    obtain ⟨_, row₀, hrow₀, hname, halias, _⟩ := started_row h hk
    obtain ⟨_, row₀', hrow₀', hname', halias', _⟩ := started_row h hk'
    refine h.names k k' row₀ row₀' hrow₀ hrow₀' ?_
    rwa [hname, hname', halias, halias']
  bindings := by
    intro k k' row row' hk hk' hne heq
    obtain ⟨_, row₀, hrow₀, _, _, hb⟩ := started_row h hk
    obtain ⟨_, row₀', hrow₀', _, _, hb'⟩ := started_row h hk'
    refine h.bindings k k' row₀ row₀' hrow₀ hrow₀' ?_ ?_
    · rwa [hb]
    · rw [hb, hb', heq]

/-- a row is saved that is like no other one -/
theorem DatasetsInv.set (h : DatasetsInv hash cfg datasets) {row : Dataset}
    (hconf : ∀ d ∈ datasetConfigs cfg, datasetId cfg d = row.id → ConfiguredRow cfg d row)
    (hnames : ∀ k row', datasets.get? k = some row' → k ≠ row.id →
      row'.name ≠ row.name ∧ row'.sqlAlias ≠ row.sqlAlias)
    (hbindings : ∀ k row', datasets.get? k = some row' → k ≠ row.id → binding hash row ≠ none →
      binding hash row' ≠ binding hash row) :
    DatasetsInv hash cfg (datasets.set row.id row) where
  keyed := by
    intro k r hr
    rw [get?_set] at hr
    split at hr
    · rename_i hk
      cases hr
      exact hk.symm
    · exact h.keyed k r hr
  configured := by
    intro d hd
    rw [get?_set]
    split
    · rename_i hk
      exact ⟨row, rfl, hconf d hd hk⟩
    · exact h.configured d hd
  names := by
    intro k k' r r' hr hr' heq
    by_contra hne
    rw [get?_set] at hr hr'
    split at hr <;> split at hr'
    · rename_i hk hk'
      exact hne (hk.trans hk'.symm)
    · rename_i hk hk'
      cases hr
      obtain ⟨hn, ha⟩ := hnames k' r' hr' hk'
      exact heq.elim (fun e => hn e.symm) fun e => ha e.symm
    · rename_i hk hk'
      cases hr'
      obtain ⟨hn, ha⟩ := hnames k r hr hk
      exact heq.elim hn ha
    · exact hne (h.names k k' r r' hr hr' heq)
  bindings := by
    intro k k' r r' hr hr' hb heq
    by_contra hne
    rw [get?_set] at hr hr'
    split at hr <;> split at hr'
    · rename_i hk hk'
      exact hne (hk.trans hk'.symm)
    · rename_i hk hk'
      cases hr
      exact hbindings k' r' hr' hk' hb heq.symm
    · rename_i hk hk'
      cases hr'
      exact hbindings k r hr hk (heq ▸ hb) heq
    · exact hne (h.bindings k k' r r' hr hr' hb heq)

/-- a row keeps its names and its source -/
theorem DatasetsInv.set_same (h : DatasetsInv hash cfg datasets) {row row' : Dataset}
    (hrow : datasets.get? row'.id = some row) (hmode : row'.managementMode = row.managementMode)
    (hname : row'.name = row.name) (halias : row'.sqlAlias = row.sqlAlias)
    (hconn : row'.connectionId = row.connectionId) (hsync : row'.sync = row.sync) :
    DatasetsInv hash cfg (datasets.set row'.id row') := by
  refine h.set ?_ ?_ ?_
  · intro d hd hid
    obtain ⟨row₀, hrow₀, hconf⟩ := h.configured d hd
    rw [hid, hrow] at hrow₀
    cases hrow₀
    exact ⟨hmode.trans hconf.mode, hname.trans hconf.name, halias.trans hconf.sqlAlias, hconn.trans hconf.connection,
      hsync.trans hconf.sync⟩
  · intro k r hr hk
    refine ⟨fun heq => hk ?_, fun heq => hk ?_⟩
    · exact h.names k row'.id r row hr hrow (.inl (heq.trans hname))
    · exact h.names k row'.id r row hr hrow (.inr (heq.trans halias))
  · intro k r hr hk hb heq
    refine hk (h.bindings k row'.id r row hr hrow ?_ ?_)
    · rwa [heq]
    · exact heq.trans (binding_congr hconn hsync)

/-! ## What every request and every sync keeps -/

/-- **The invariant.** -/
structure Inv (hash : String → String) (cfg : RuntimeConfig) (s : MetadataStore) : Prop where
  datasets : DatasetsInv hash cfg s.datasets
  random : UnderRandomIds cfg s

/-- only a dataset that a request made is changed by one -/
theorem requireRuntimeManaged_ok (h : DatasetsInv hash cfg s.datasets) {id : Uuid} {row : Dataset}
    (hrow : requireRuntimeManaged s id = .ok row) :
    s.datasets.get? id = some row ∧ row.id = id ∧ id ∉ configuredIds cfg := by
  rw [requireRuntimeManaged] at hrow
  cases hget : s.datasets.get? id with
  | none =>
    rw [hget] at hrow
    cases hrow
  | some row' =>
    rw [hget] at hrow
    dsimp only at hrow
    split at hrow
    · rename_i hmode
      cases hrow
      refine ⟨rfl, h.keyed id _ hget, fun hmem => ?_⟩
      obtain ⟨d, hd, rfl⟩ := mem_map.1 hmem
      obtain ⟨row₀, hrow₀, hconf⟩ := h.configured d hd
      rw [hget] at hrow₀
      cases hrow₀
      rw [hconf.mode] at hmode
      cases hmode
    · cases hrow

omit [PyText] in
theorem columnRows_random {owner : Uuid} {now : ℕ} {columns : List (ℕ × FileColumn)} {c : Column}
    (h : c ∈ columnRows owner now columns) : ∃ n, c.id = .random n := by
  obtain ⟨e, _, rfl⟩ := mem_map.1 h
  exact ⟨_, rfl⟩

omit [PyText] in
theorem random_replaceColumns (h : UnderRandomIds cfg s) (owner : Uuid) (now : ℕ) (columns : List (ℕ × FileColumn)) :
    UnderRandomIds cfg (replaceColumns owner (columnRows owner now columns) s) where
  columns := by
    intro k c hc howner
    rcases replaced_cases hc with ⟨hmem, rfl⟩ | ⟨_, hc, _⟩
    · exact columnRows_random hmem
    · exact h.columns k c hc howner
  policies := h.policies
  resources := h.resources

omit [PyText] in
theorem random_savePolicy (h : UnderRandomIds cfg s) {p : Policy}
    (hp : p.datasetId ∉ configuredIds cfg → ∃ n, p.id = .random n) : UnderRandomIds cfg (savePolicy p s) where
  columns := h.columns
  policies := by
    intro k p' hp' howner
    rw [savePolicy, get?_set] at hp'
    split at hp'
    · rename_i hk
      cases hp'
      exact ⟨hk.symm, hk ▸ hp howner⟩
    · exact h.policies k p' hp' howner
  resources := h.resources

omit [PyText] in
theorem random_saveDataset (h : UnderRandomIds cfg s) (row : Dataset) : UnderRandomIds cfg (saveDataset row s) :=
  ⟨h.columns, h.policies, h.resources⟩

omit [PyText] in
theorem random_saveState (h : UnderRandomIds cfg s) (connection : Uuid) (key : String) (state : SyncState) :
    UnderRandomIds cfg (saveState connection key state s) :=
  ⟨h.columns, h.policies, h.resources⟩

omit [PyText] in
/-- the policy of a dataset that is not configured stands under a random identifier -/
theorem policyOf_random (h : UnderRandomIds cfg s) {owner : Uuid} {p : Policy} (hp : policyOf s owner = some p) :
    p.datasetId = owner ∧ (owner ∉ configuredIds cfg → ∃ n, p.id = .random n) := by
  have howner : p.datasetId = owner := by simpa using find?_some hp
  obtain ⟨k, hk⟩ := (mem_values _ _).1 (mem_of_find?_eq_some hp)
  refine ⟨howner, fun hne => ?_⟩
  obtain ⟨hid, hn⟩ := h.policies k p hk (howner ▸ hne)
  rwa [hid]

theorem createDataset_inv (h : Inv hash cfg s) {id revision policy : ℕ} {name : String} {r : DatasetRequest} {now : ℕ}
    (hs : createDataset hash cfg id revision policy name r now s = .ok s') : Inv hash cfg s' := by
  rw [createDataset] at hs
  split at hs
  · cases hs
  · rename_i hname
    split at hs
    · cases hs
    · rename_i hsource
      cases hs
      refine ⟨h.datasets.set ?_ ?_ ?_, ?_⟩
      · intro d _ hid
        cases hid
      · intro k row' hrow' _
        exact not_not.1 hname (k, row') ((get?_eq_some_iff _ _ _).1 hrow')
      · intro k row' hrow' hk hne
        exact not_not.1 hsource (k, row') ((get?_eq_some_iff _ _ _).1 hrow') hk hne
      · exact random_saveDataset (random_replaceColumns (random_savePolicy h.random fun _ => ⟨policy, rfl⟩) _ _ _) _

theorem updateDataset_inv (h : Inv hash cfg s) {id : Uuid} {revision policy : ℕ} {r : DatasetRequest} {now : ℕ}
    (hs : updateDataset hash cfg id revision policy r now s = .ok s') : Inv hash cfg s' := by
  obtain ⟨row, hrow, hs⟩ := of_bind_ok hs
  obtain ⟨hget, rfl, hid⟩ := requireRuntimeManaged_ok h.datasets hrow
  by_cases hsource : sourceAvailable hash s row.id (updatedRow row revision r now)
  · rw [if_pos hsource] at hs
    have hset : DatasetsInv hash cfg (s.datasets.set row.id (updatedRow row revision r now)) := by
      refine @DatasetsInv.set _ hash cfg s.datasets h.datasets (updatedRow row revision r now) ?_ ?_ ?_
      · intro d hd heq
        exact absurd (heq ▸ mem_map_of_mem hd) hid
      · intro k row' hrow' hk
        refine ⟨fun heq => hk ?_, fun heq => hk ?_⟩
        · exact h.datasets.names k row.id row' row hrow' hget (.inl heq)
        · exact h.datasets.names k row.id row' row hrow' hget (.inr heq)
      · intro k row' hrow' hk hne
        exact hsource (k, row') ((get?_eq_some_iff _ _ _).1 hrow') hk hne
    have hpolicy : (requestedPolicy cfg s row.id policy r.policy now).datasetId ∉ configuredIds cfg →
        ∃ n, (requestedPolicy cfg s row.id policy r.policy now).id = .random n := by
      intro _
      rw [requestedPolicy]
      cases hp : policyOf s row.id with
      | none => exact ⟨policy, rfl⟩
      | some old => exact (policyOf_random h.random hp).2 hid
    have hrandom := random_saveDataset (random_savePolicy h.random hpolicy) (updatedRow row revision r now)
    cases hs
    cases r.columns with
    | none => exact ⟨hset, hrandom⟩
    | some columns => exact ⟨hset, random_replaceColumns hrandom _ _ _⟩
  · rw [if_neg hsource] at hs
    cases hs

theorem deleteDataset_inv (h : Inv hash cfg s) {id : Uuid} (hs : deleteDataset id s = .ok s') : Inv hash cfg s' := by
  obtain ⟨row, hrow, hs⟩ := of_bind_ok hs
  obtain ⟨hget, rfl, hid⟩ := requireRuntimeManaged_ok h.datasets hrow
  cases hs
  have hold : ∀ k row', (s.datasets.erase row.id).get? k = some row' → s.datasets.get? k = some row' := by
    intro k row' hk
    rw [get?_erase] at hk
    split at hk
    · cases hk
    · exact hk
  refine ⟨⟨?_, ?_, ?_, ?_⟩, ⟨?_, ?_, h.random.resources⟩⟩
  · exact fun k row' hk => h.datasets.keyed k row' (hold k row' hk)
  · intro d hd
    obtain ⟨row₀, hrow₀, hconf⟩ := h.datasets.configured d hd
    refine ⟨row₀, ?_, hconf⟩
    rw [get?_erase, if_neg, hrow₀]
    intro heq
    exact hid (heq ▸ mem_map_of_mem hd)
  · exact fun k k' row row' hk hk' => h.datasets.names k k' row row' (hold _ _ hk) (hold _ _ hk')
  · exact fun k k' row row' hk hk' => h.datasets.bindings k k' row row' (hold _ _ hk) (hold _ _ hk')
  · intro k c hc howner
    exact h.random.columns k c ((get?_filter_iff _ _ _ _).1 hc).1 howner
  · intro k p hp howner
    exact h.random.policies k p ((get?_filter_iff _ _ _ _).1 hp).1 howner

theorem saveResource_inv (h : Inv hash cfg s) (kind : ResourceKind) (id : ℕ) (name content : String) (now : ℕ) :
    Inv hash cfg (saveResource kind id name content now s) := by
  refine ⟨h.datasets, h.random.columns, h.random.policies, ?_⟩
  intro k r hr hmode
  rw [saveResource, get?_set] at hr
  split at hr
  · rename_i hk
    exact ⟨id, by rw [hk]; rfl⟩
  · exact h.random.resources k r hr hmode

theorem deleteResource_inv (h : Inv hash cfg s) {kind : ResourceKind} {id : Uuid}
    (hs : deleteResource kind id s = .ok s') : Inv hash cfg s' := by
  rw [deleteResource] at hs
  split at hs
  · cases hs
  · split at hs
    · cases hs
      refine ⟨h.datasets, h.random.columns, h.random.policies, ?_⟩
      intro k r hr hmode
      rw [get?_erase] at hr
      split at hr
      · cases hr
      · exact h.random.resources k r hr hmode
    · cases hs

variable {w : SyncWrites} {commits : Bool}

/-- what a sync of a dataset does to the store -/
theorem syncDataset_ok {id : Uuid} (hs : syncDataset hash id w commits s = .ok s') :
    ∃ row connection source, s.datasets.get? id = some row ∧ row.connectionId = some connection ∧
      row.sync = some source ∧ binding hash row = some (connection, syncSourceKey hash source) ∧
      s' = if commits then
          saveState connection (syncSourceKey hash source) (succeededState (syncSourceKey hash source) w)
            (materialize row source w s)
        else saveState connection (syncSourceKey hash source) (lostState (syncSourceKey hash source) w) s := by
  rw [syncDataset] at hs
  cases hrow : s.datasets.get? id with
  | none =>
    rw [hrow] at hs
    cases hs
  | some row =>
    rw [hrow] at hs
    dsimp only at hs
    split at hs
    · rename_i connection source hconn hsync
      refine ⟨row, connection, source, rfl, hconn, hsync, ?_, ?_⟩
      · rw [binding, hconn, hsync]
      · cases commits <;> exact (Except.ok.inj hs).symm
    · cases hs

theorem syncDataset_inv (h : Inv hash cfg s) {id : Uuid}
    (hs : syncDataset hash id w commits s = .ok s') : Inv hash cfg s' := by
  obtain ⟨row, connection, source, hrow, hconn, hsync, _, rfl⟩ := syncDataset_ok hs
  obtain rfl := h.datasets.keyed id row hrow
  cases commits with
  | false => exact ⟨h.datasets, random_saveState h.random _ _ _⟩
  | true =>
    have hpolicy : (syncedPolicy s row.id w).datasetId ∉ configuredIds cfg →
        ∃ n, (syncedPolicy s row.id w).id = .random n := by
      rw [syncedPolicy]
      cases hp : policyOf s row.id with
      | none => exact fun _ => ⟨w.policy, rfl⟩
      | some old =>
        obtain ⟨howner, hid⟩ := policyOf_random h.random hp
        exact fun hne => hid (howner ▸ hne)
    refine ⟨?_, ?_⟩
    · exact @DatasetsInv.set_same _ hash cfg s.datasets h.datasets row (syncedRow row source w) hrow rfl rfl rfl rfl rfl
    · refine random_saveState ?_ _ _ _
      exact random_saveDataset (random_savePolicy (random_replaceColumns h.random _ _ _) hpolicy) _

theorem start_inv (h : Inv hash cfg s) (hs : start hash cfg t s = .ok s') : Inv hash cfg s' := by
  obtain ⟨_, _, rfl⟩ := start_ok_iff.1 hs
  exact ⟨datasetsInv_started h.datasets, underRandomIds_started h.random⟩

variable {op : Op}

/-- **Every step keeps the invariant.** -/
theorem resultOf_inv (h : Inv hash cfg s) (hs : resultOf hash cfg s op = .ok s') : Inv hash cfg s' := by
  cases op with
  | restart t => exact start_inv h hs
  | createDataset id revision policy name r now => exact createDataset_inv h hs
  | updateDataset id revision policy r now => exact updateDataset_inv h hs
  | deleteDataset id => exact deleteDataset_inv h hs
  | saveResource kind id name content now =>
    cases hs
    exact saveResource_inv h kind id name content now
  | deleteResource kind id => exact deleteResource_inv h hs
  | sync id w commits => exact syncDataset_inv h hs

/-! ## The first start -/

variable (hash cfg) in
def bindingOf (d : DatasetConfig) : Option (String × String) :=
  match connectorOf cfg d, syncOf d with
  | some c, some source => some (c.name, syncSourceKey hash source)
  | _, _ => none

theorem checkBinding_ok {bindings bindings' : List (String × String)} {d : DatasetConfig}
    (h : checkBinding hash cfg bindings d = .ok bindings') :
    bindings' = bindings ++ (bindingOf hash cfg d).toList ∧ (bindings.Nodup → bindings'.Nodup) ∧
      (syncOf d ≠ none → bindingOf hash cfg d ≠ none) := by
  rw [checkBinding] at h
  rw [bindingOf, syncOf]
  cases hm : d.materialization with
  | live definition uri =>
    rw [hm] at h
    cases h
    cases connectorOf cfg d <;> simp
  | synced source =>
    rw [hm] at h
    cases hc : connectorOf cfg d with
    | none =>
      rw [hc] at h
      cases h
    | some c =>
      rw [hc] at h
      dsimp only at h ⊢
      split at h
      · cases h
      · rename_i hnew
        cases h
        refine ⟨rfl, fun hnodup => ?_, fun _ h => (by cases h)⟩
        rw [nodup_append]
        refine ⟨hnodup, nodup_singleton _, fun a ha b hb hab => hnew ?_⟩
        rw [mem_singleton] at hb
        rwa [← hb, ← hab]

theorem checkBindings_ok {l : List DatasetConfig} {bindings bindings' : List (String × String)}
    (h : l.foldlM (checkBinding hash cfg) bindings = .ok bindings') (hnodup : bindings.Nodup) :
    bindings' = bindings ++ l.filterMap (bindingOf hash cfg) ∧ bindings'.Nodup ∧
      ∀ d ∈ l, syncOf d ≠ none → bindingOf hash cfg d ≠ none := by
  induction l generalizing bindings with
  | nil =>
    cases h
    exact ⟨(append_nil _).symm, hnodup, fun d hd => (by cases hd)⟩
  | cons d l ih =>
    obtain ⟨bindings₁, hd, h⟩ := of_bind_ok h
    obtain ⟨rfl, hnodup₁, hsync⟩ := checkBinding_ok hd
    obtain ⟨hmap, hnodup', hall⟩ := ih h (hnodup₁ hnodup)
    refine ⟨?_, hnodup', ?_⟩
    · rw [hmap, append_assoc]
      cases hb : bindingOf hash cfg d with
      | none => simp [hb]
      | some b => simp [hb]
    · intro d' hd'
      rcases mem_cons.1 hd' with rfl | hd'
      · exact hsync
      · exact hall d' hd'

omit [PyText] in
/-- what a list's elements are sent to, each to something of its own -/
theorem eq_of_nodup_filterMap {α β : Type} {f : α → Option β} {l : List α} (h : (l.filterMap f).Nodup) {a a' : α}
    (ha : a ∈ l) (ha' : a' ∈ l) {b : β} (hb : f a = some b) (hb' : f a' = some b) : a = a' := by
  induction l with
  | nil => cases ha
  | cons x l ih =>
    have hfirst : ∀ y ∈ l, f x = some b → f y ≠ some b := by
      intro y hy hx hyb
      rw [filterMap_cons_some hx, nodup_cons] at h
      exact h.1 (mem_filterMap.2 ⟨y, hy, hyb⟩)
    have htail : (l.filterMap f).Nodup := by
      cases hx : f x with
      | none => rwa [filterMap_cons_none hx] at h
      | some y =>
        rw [filterMap_cons_some hx, nodup_cons] at h
        exact h.2
    rcases mem_cons.1 ha with hx | hl
    · rcases mem_cons.1 ha' with hx' | hl'
      · exact hx.trans hx'.symm
      · exact absurd hb' (hfirst a' hl' (hx ▸ hb))
    · rcases mem_cons.1 ha' with hx' | hl'
      · exact absurd hb (hfirst a hl (hx' ▸ hb'))
      · exact ih htail hl hl'

theorem binding_configured {d : DatasetConfig} {row : Dataset} (h : ConfiguredRow cfg d row) :
    binding hash row = (bindingOf hash cfg d).map fun b => (connectorId cfg b.1, b.2) := by
  rw [binding, bindingOf, h.connection, h.sync, connectionOf]
  cases connectorOf cfg d with
  | none => rfl
  | some c =>
    cases syncOf d <;> rfl

omit [PyText] in
theorem mem_datasetConfigs {d : DatasetConfig} (h : d ∈ datasetConfigs cfg) : d ∈ cfg.datasets := by
  rw [datasetConfigs, mem_values_upsert] at h
  exact mem_reverse.1 (mem_of_find?_eq_some h)

/-- **The first start.** It leaves the configured datasets, each with a source of its own. -/
theorem start_empty_inv (hs : start hash cfg t .empty = .ok s') : Inv hash cfg s' := by
  obtain ⟨⟨bindings, hcheck⟩, hunique, rfl⟩ := start_ok_iff.1 hs
  obtain ⟨hmap, hnodup, _⟩ := checkBindings_ok hcheck nodup_nil
  rw [hmap, nil_append] at hnodup
  have hrows : ∀ k row, (started cfg t .empty).datasets.get? k = some row →
      ∃ d ∈ datasetConfigs cfg, k = datasetId cfg d ∧ row = buildDataset cfg t.now d := by
    intro k row hrow
    rcases started_cases hrow with h | ⟨_, h⟩
    · exact h
    · cases h
  refine ⟨⟨?_, ?_, uniqueNames_iff.1 hunique, ?_⟩, underRandomIds_started ⟨?_, ?_, ?_⟩⟩
  · intro k row hrow
    obtain ⟨d, _, rfl, rfl⟩ := hrows k row hrow
    exact buildDataset_id t.now d
  · exact fun d hd => ⟨_, started_configured hd, configuredRow_build t.now d⟩
  · intro k k' row row' hk hk' hne heq
    obtain ⟨d, hd, rfl, rfl⟩ := hrows k row hk
    obtain ⟨d', hd', rfl, rfl⟩ := hrows k' row' hk'
    rw [binding_configured (configuredRow_build t.now d), binding_configured (configuredRow_build t.now d')] at heq
    rw [binding_configured (configuredRow_build t.now d)] at hne
    cases hb : bindingOf hash cfg d with
    | none => exact absurd (by rw [hb]; rfl) hne
    | some b =>
      cases hb' : bindingOf hash cfg d' with
      | none =>
        rw [hb, hb'] at heq
        cases heq
      | some b' =>
        rw [hb, hb', map_some, map_some] at heq
        injection heq with heq
        injection heq with hid hkey
        have hname : b.1 = b'.1 := (String.append_right_inj _).1 (Uuid.named.inj hid).2
        have hbb : b = b' := Prod.ext hname hkey
        rw [eq_of_nodup_filterMap hnodup (mem_datasetConfigs hd) (mem_datasetConfigs hd') hb (hbb ▸ hb')]
  · exact fun k c hc => (by cases hc)
  · exact fun k p hp => (by cases hp)
  · exact fun k r hr => (by cases hr)

/-- a configured dataset that is synced is bound to its source -/
theorem bindingOf_of_start (hs : start hash cfg t s = .ok s') {d : DatasetConfig} (hd : d ∈ datasetConfigs cfg)
    (hsync : syncOf d ≠ none) : ∃ b, bindingOf hash cfg d = some b := by
  obtain ⟨⟨bindings, hcheck⟩, _⟩ := start_ok_iff.1 hs
  obtain ⟨_, _, hall⟩ := checkBindings_ok hcheck nodup_nil
  exact ne_none_iff_exists'.1 (hall d (mem_datasetConfigs hd) hsync)

/-- a start under the configuration goes through -/
theorem start_succeeds (h : Inv hash cfg s) (hchecked : ∃ t₀ s₀ s₁, start hash cfg t₀ s₀ = .ok s₁) (t : Start) :
    start hash cfg t s = .ok (started cfg t s) := by
  obtain ⟨t₀, s₀, s₁, hs⟩ := hchecked
  exact start_ok_iff.2 ⟨(start_ok_iff.1 hs).1, uniqueNames_iff.2 (datasetsInv_started h.datasets).names, rfl⟩

/-! ## What syncs leave of the configured datasets -/

section Cursors

variable (hash cfg)

def storedCursor (s : MetadataStore) (d : DatasetConfig) : Option String :=
  match bindingOf hash cfg d with
  | none => none
  | some b => (s.states.get? (connectorId cfg b.1, b.2)).bind SyncState.lastCursor

/-- the cursor that a lost sync of a dataset had reached -/
def Op.lost (id : Uuid) : Op → Option (Option String)
  | .sync id' w false => if id' = id then some w.cursor else none
  | _ => none

/-- the cursor that the last lost sync of a dataset had reached -/
def lostCursor (ops : List Op) (id : Uuid) : Option String := (ops.reverse.findSome? (Op.lost id)).join

/-- an attempt to sync a dataset -/
def Op.syncs (id : Uuid) : Op → Prop
  | .sync id' _ _ => id' = id
  | _ => False

end Cursors

omit [PyText] in
theorem lostCursor_append (ops : List Op) (op : Op) (id : Uuid) :
    lostCursor (ops ++ [op]) id = ((op.lost id).getD (lostCursor ops id)) := by
  rw [lostCursor, reverse_append, reverse_singleton, singleton_append, findSome?_cons, lostCursor]
  cases op.lost id <;> rfl

omit [PyText] in
theorem lost_eq_none {id : Uuid} (h : ¬ op.syncs id) : op.lost id = none := by
  cases op with
  | sync id' w commits =>
    cases commits with
    | true => rfl
    | false => exact if_neg h
  | _ => rfl

theorem resultOf_states (hs : resultOf hash cfg s op = .ok s') (hop : ∀ id, ¬ op.syncs id) : s'.states = s.states := by
  cases op with
  | restart t =>
    obtain ⟨_, _, rfl⟩ := start_ok_iff.1 hs
    rfl
  | createDataset id revision policy name r now =>
    change createDataset hash cfg id revision policy name r now s = _ at hs
    rw [createDataset] at hs
    split at hs
    · cases hs
    · split at hs
      · cases hs
      · cases hs
        rfl
  | updateDataset id revision policy r now =>
    obtain ⟨row, _, hs⟩ := of_bind_ok hs
    by_cases hsource : sourceAvailable hash s id (updatedRow row revision r now)
    · rw [if_pos hsource] at hs
      cases hs
      cases r.columns <;> rfl
    · rw [if_neg hsource] at hs
      cases hs
  | deleteDataset id =>
    obtain ⟨row, _, hs⟩ := of_bind_ok hs
    cases hs
    rfl
  | saveResource kind id name content now =>
    cases hs
    rfl
  | deleteResource kind id =>
    change deleteResource kind id s = _ at hs
    rw [deleteResource] at hs
    split at hs
    · cases hs
    · split at hs
      · cases hs
        rfl
      · cases hs
  | sync id w commits => exact absurd rfl (hop id)

theorem syncDataset_configured (h : Inv hash cfg s) {d : DatasetConfig} (hd : d ∈ datasetConfigs cfg)
    (hbound : ∃ b, bindingOf hash cfg d = some b) (w : SyncWrites) (commits : Bool) :
    ∃ s', syncDataset hash (datasetId cfg d) w commits s = .ok s' ∧ storedCursor hash cfg s' d = w.cursor := by
  obtain ⟨row, hrow, hconf⟩ := h.datasets.configured d hd
  obtain ⟨b, hb⟩ := hbound
  have hbinding : binding hash row = _ := binding_configured hconf
  rw [hb, map_some] at hbinding
  rw [binding] at hbinding
  split at hbinding
  · rename_i connection source hconn hsync
    injection hbinding with hbinding
    injection hbinding with hid hkey
    have hresult : ∃ s', syncDataset hash (datasetId cfg d) w commits s = .ok s' := by
      rw [syncDataset, hrow]
      dsimp only
      rw [hconn, hsync]
      cases commits <;> exact ⟨_, rfl⟩
    obtain ⟨s', hs⟩ := hresult
    obtain ⟨row', connection', source', hrow', hconn', hsync', _, rfl⟩ := syncDataset_ok hs
    rw [hrow] at hrow'
    cases hrow'
    rw [hconn] at hconn'
    rw [hsync] at hsync'
    cases hconn'
    cases hsync'
    refine ⟨_, hs, ?_⟩
    rw [storedCursor, hb]
    dsimp only
    rw [← hid, ← hkey]
    cases commits <;> exact congrArg (Option.bind · SyncState.lastCursor) (get?_set_self _ _ _)
  · cases hbinding

/-- a sync of another dataset writes another cursor -/
theorem syncDataset_other (h : Inv hash cfg s) {d : DatasetConfig} (hd : d ∈ datasetConfigs cfg) {id : Uuid}
    (hid : id ≠ datasetId cfg d)
    (hs : syncDataset hash id w commits s = .ok s') : storedCursor hash cfg s' d = storedCursor hash cfg s d := by
  obtain ⟨row, connection, source, hrow, hconn, hsync, hbinding, rfl⟩ := syncDataset_ok hs
  obtain ⟨row₀, hrow₀, hconf⟩ := h.datasets.configured d hd
  rw [storedCursor, storedCursor]
  cases hb : bindingOf hash cfg d with
  | none => rfl
  | some b =>
    have hne : (connectorId cfg b.1, b.2) ≠ (connection, syncSourceKey hash source) := by
      intro heq
      refine hid (h.datasets.bindings id _ row row₀ hrow hrow₀ ?_ ?_)
      · rw [hbinding]
        exact fun h => (by cases h)
      · rw [hbinding, binding_configured hconf, hb, map_some, heq]
    cases commits <;> exact congrArg (Option.bind · SyncState.lastCursor) (get?_set_of_ne _ _ hne)

/-! ## Runs -/

variable {r : Host} {d : DatasetConfig}

theorem step_inv (h : Inv hash cfg r.store) (op : Op) : Inv hash cfg (step hash cfg r op).store := by
  rw [step]
  cases hs : resultOf hash cfg r.store op with
  | error e => exact h
  | ok s' => exact resultOf_inv h hs

/-- **Every store reached keeps the invariant.** -/
theorem run_inv (h : Inv hash cfg s) (ops : List Op) : Inv hash cfg (run hash cfg s ops).store := by
  induction ops using List.reverseRecOn with
  | nil => exact h
  | append_singleton ops op ih =>
    rw [run, foldl_append]
    exact step_inv ih op

/-- what does not sync a configured dataset leaves its history and its cursor -/
theorem step_other (h : Inv hash cfg r.store) (hd : d ∈ datasetConfigs cfg) (hop : ¬ op.syncs (datasetId cfg d)) :
    (step hash cfg r op).history.get? (datasetId cfg d) = r.history.get? (datasetId cfg d) ∧
      storedCursor hash cfg (step hash cfg r op).store d = storedCursor hash cfg r.store d := by
  rw [step]
  cases hs : resultOf hash cfg r.store op with
  | error e => exact ⟨rfl, rfl⟩
  | ok s' =>
    have hcursor : (∀ id, ¬ op.syncs id) → storedCursor hash cfg s' d = storedCursor hash cfg r.store d := by
      intro hnone
      rw [storedCursor, storedCursor, resultOf_states hs hnone]
    cases op with
    | sync id w commits =>
      refine ⟨?_, syncDataset_other h hd hop hs⟩
      cases commits with
      | false => rfl
      | true => exact get?_set_of_ne _ _ (Ne.symm hop)
    | deleteDataset id =>
      refine ⟨?_, hcursor fun _ h => h⟩
      obtain ⟨row, hrow, _⟩ := of_bind_ok hs
      obtain ⟨_, _, hid⟩ := requireRuntimeManaged_ok h.datasets hrow
      refine (get?_erase _ _ _).trans (if_neg ?_)
      rintro rfl
      exact hid (mem_map_of_mem hd)
    | restart t => exact ⟨rfl, hcursor fun _ h => h⟩
    | createDataset id revision policy name r now => exact ⟨rfl, hcursor fun _ h => h⟩
    | updateDataset id revision policy r now => exact ⟨rfl, hcursor fun _ h => h⟩
    | saveResource kind id name content now => exact ⟨rfl, hcursor fun _ h => h⟩
    | deleteResource kind id => exact ⟨rfl, hcursor fun _ h => h⟩

/-- a sync of a configured dataset writes the cursor, and the history when it is committed -/
theorem step_sync (h : Inv hash cfg r.store) (hd : d ∈ datasetConfigs cfg)
    (hbound : ∃ b, bindingOf hash cfg d = some b) (w : SyncWrites) (commits : Bool) :
    (step hash cfg r (.sync (datasetId cfg d) w commits)).history =
        remembered (.sync (datasetId cfg d) w commits) r.history ∧
      storedCursor hash cfg (step hash cfg r (.sync (datasetId cfg d) w commits)).store d = w.cursor := by
  obtain ⟨s', hs, hcursor⟩ := syncDataset_configured h hd hbound w commits
  have hresult : resultOf hash cfg r.store (.sync (datasetId cfg d) w commits) = .ok s' := hs
  rw [step, hresult]
  exact ⟨rfl, hcursor⟩

structure Tracked (hash : String → String) (cfg : RuntimeConfig) (d : DatasetConfig) (ops : List Op) (r : Host) :
    Prop where
  committed : (∃ w, Op.sync (datasetId cfg d) w true ∈ ops) →
    ∃ h, r.history.get? (datasetId cfg d) = some h ∧ h.materialized.status = .published
  uncommitted : (∀ w, Op.sync (datasetId cfg d) w true ∉ ops) →
    r.history.get? (datasetId cfg d) = none ∧ storedCursor hash cfg r.store d = lostCursor ops (datasetId cfg d)

theorem tracked_append {ops : List Op} (h : Inv hash cfg r.store) (hd : d ∈ datasetConfigs cfg)
    (hbound : ∃ b, bindingOf hash cfg d = some b) (ht : Tracked hash cfg d ops r) (op : Op) :
    Tracked hash cfg d (ops ++ [op]) (step hash cfg r op) := by
  by_cases hop : op.syncs (datasetId cfg d)
  · cases op with
    | sync id w commits =>
      obtain rfl : id = datasetId cfg d := hop
      obtain ⟨hhistory, hcursor⟩ := step_sync h hd hbound w commits
      cases commits with
      | true =>
        refine ⟨fun _ => ⟨⟨w.materialized, w.columns.map fun c => c.2.name, w.cursor⟩, ?_, rfl⟩, ?_⟩
        · rw [hhistory]
          exact get?_set_self _ _ _
        · exact fun hnone => absurd (by simp) (hnone w)
      | false =>
        have hmem : ∀ w', Op.sync (datasetId cfg d) w' true ∈ ops ++ [Op.sync (datasetId cfg d) w false] ↔
            Op.sync (datasetId cfg d) w' true ∈ ops := by simp
        constructor
        · rintro ⟨w', hw'⟩
          rw [hhistory]
          exact ht.committed ⟨w', (hmem w').1 hw'⟩
        · intro hnone
          refine ⟨?_, ?_⟩
          · rw [hhistory]
            exact (ht.uncommitted fun w' hw' => hnone w' ((hmem w').2 hw')).1
          · rw [hcursor, lostCursor_append, Op.lost, if_pos rfl]
            rfl
    | _ => cases hop
  · obtain ⟨hhistory, hcursor⟩ := step_other h hd hop
    have hmem : ∀ w, Op.sync (datasetId cfg d) w true ∈ ops ++ [op] ↔ Op.sync (datasetId cfg d) w true ∈ ops := by
      intro w
      rw [mem_append, mem_singleton]
      refine ⟨fun hm => hm.resolve_right ?_, .inl⟩
      rintro rfl
      exact hop rfl
    constructor
    · rintro ⟨w, hw⟩
      rw [hhistory]
      exact ht.committed ⟨w, (hmem w).1 hw⟩
    · intro hnone
      rw [hhistory, hcursor, lostCursor_append, lost_eq_none hop, getD_none]
      exact ht.uncommitted fun w hw => hnone w ((hmem w).2 hw)

theorem run_tracked (h : Inv hash cfg s) (hstates : s.states = .empty) (hd : d ∈ datasetConfigs cfg)
    (hbound : ∃ b, bindingOf hash cfg d = some b) (ops : List Op) :
    Tracked hash cfg d ops (run hash cfg s ops) := by
  induction ops using List.reverseRecOn with
  | nil =>
    refine ⟨fun hw => ?_, fun _ => ⟨rfl, ?_⟩⟩
    · obtain ⟨w, hw⟩ := hw
      cases hw
    · rw [storedCursor]
      cases bindingOf hash cfg d with
      | none => rfl
      | some b =>
        change (s.states.get? _).bind _ = none
        rw [hstates]
        rfl
  | append_singleton ops op ih =>
    rw [run, foldl_append]
    exact tracked_append (run_inv h ops) hd hbound ih op

/-! ## What survives a restart -/

def columnNames (s : MetadataStore) (id : Uuid) : List String :=
  (s.columns.values.filter fun c => c.datasetId = id).map Column.name

variable (hash cfg) in
/-- the materialised state of a configured dataset is what its last sync wrote, under the cursor it wrote with it; a
dataset without one has neither a file nor a cursor -/
def MaterializedAsSynced (s : MetadataStore) (history : Dict Uuid Synced) (d : DatasetConfig) : Prop :=
  ∃ row, s.datasets.get? (datasetId cfg d) = some row ∧
    match history.get? (datasetId cfg d) with
    | none => row.materialized.storageUri = none ∧ storedCursor hash cfg s d = none
    | some last => row.materialized = last.materialized ∧ (columnNames s (datasetId cfg d)).Perm last.columns ∧
        storedCursor hash cfg s d = last.cursor

/-- what requests made is as it was: datasets, with their columns and policies, connectors and semantic models -/
structure RuntimeManagedKept (s s' : MetadataStore) : Prop where
  datasets : ∀ k row, row.managementMode = .runtimeManaged →
    (s'.datasets.get? k = some row ↔ s.datasets.get? k = some row)
  columns : ∀ k c row, s.datasets.get? c.datasetId = some row → row.managementMode = .runtimeManaged →
    (s'.columns.get? k = some c ↔ s.columns.get? k = some c)
  policies : ∀ k p row, s.datasets.get? p.datasetId = some row → row.managementMode = .runtimeManaged →
    (s'.policies.get? k = some p ↔ s.policies.get? k = some p)
  resources : ∀ k r, r.managementMode = .runtimeManaged →
    (s'.resources.get? k = some r ↔ s.resources.get? k = some r)

/-- a restart, at whatever time it comes -/
structure RestartSurvived (hash : String → String) (cfg : RuntimeConfig) (r : Host) : Prop where
  starts : ∀ t, ∃ s, start hash cfg t r.store = .ok s
  runtimeManaged : ∀ t s, start hash cfg t r.store = .ok s → RuntimeManagedKept r.store s
  materialized : ∀ t s, start hash cfg t r.store = .ok s → ∀ d ∈ datasetConfigs cfg, syncOf d ≠ none →
    MaterializedAsSynced hash cfg s r.history d
  twice : ∀ t t' s s', start hash cfg t r.store = .ok s → start hash cfg t' s = .ok s' →
    ∃ s₁, start hash cfg t' r.store = .ok s₁ ∧ s'.Same s₁

/-- a dataset that a request made is not a configured one -/
theorem not_configured_of_runtimeManaged (h : DatasetsInv hash cfg s.datasets) {k : Uuid} {row : Dataset}
    (hrow : s.datasets.get? k = some row) (hmode : row.managementMode = .runtimeManaged) : k ∉ configuredIds cfg := by
  intro hmem
  obtain ⟨d, hd, rfl⟩ := mem_map.1 hmem
  obtain ⟨row₀, hrow₀, hconf⟩ := h.configured d hd
  rw [hrow] at hrow₀
  cases hrow₀
  rw [hconf.mode] at hmode
  cases hmode

/-- a start leaves alone what requests made -/
theorem started_runtimeManaged (h : Inv hash cfg s) (t : Start) : RuntimeManagedKept s (started cfg t s) where
  datasets := by
    intro k row hmode
    constructor
    · intro hrow
      rcases started_cases hrow with ⟨d, _, _, rfl⟩ | ⟨_, hrow⟩
      · rw [buildDataset_managementMode] at hmode
        cases hmode
      · exact hrow
    · intro hrow
      rwa [started_other (not_configured_of_runtimeManaged h.datasets hrow hmode)]
  columns := fun _ _ _ hrow hmode =>
    started_columns_iff h.random (not_configured_of_runtimeManaged h.datasets hrow hmode)
  policies := fun _ _ _ hrow hmode =>
    started_policies_iff h.random (not_configured_of_runtimeManaged h.datasets hrow hmode)
  resources := fun _ _ hmode => started_resources_iff h.random hmode

/-- after a restart a dataset is as its last sync left it exactly when none was committed and none left a cursor -/
theorem materializedAsSynced_iff {ops : List Op} (ht : Tracked hash cfg d ops r) (hd : d ∈ datasetConfigs cfg)
    (hsync : syncOf d ≠ none) (t : Start) :
    MaterializedAsSynced hash cfg (started cfg t r.store) r.history d ↔
      (∀ w, Op.sync (datasetId cfg d) w true ∉ ops) ∧ lostCursor ops (datasetId cfg d) = none := by
  obtain ⟨source, hsource⟩ := ne_none_iff_exists'.1 hsync
  have hrow : (started cfg t r.store).datasets.get? (datasetId cfg d) = some (buildDataset cfg t.now d) :=
    started_configured hd
  have hpending : (buildDataset cfg t.now d).materialized = pending := buildDataset_materialized t.now hsource
  have hcursor : storedCursor hash cfg (started cfg t r.store) d = storedCursor hash cfg r.store d := rfl
  constructor
  · rintro ⟨row, hrow', hlast⟩
    rw [hrow] at hrow'
    cases hrow'
    have hnone : ∀ w, Op.sync (datasetId cfg d) w true ∉ ops := by
      intro w hw
      obtain ⟨last, hget, hstatus⟩ := ht.committed ⟨w, hw⟩
      rw [hget] at hlast
      have heq : pending = last.materialized := hpending.symm.trans hlast.1
      rw [← heq] at hstatus
      cases hstatus
    obtain ⟨hget, hstored⟩ := ht.uncommitted hnone
    rw [hget] at hlast
    exact ⟨hnone, hstored.symm.trans (hcursor.symm.trans hlast.2)⟩
  · rintro ⟨hnone, hlost⟩
    obtain ⟨hget, hstored⟩ := ht.uncommitted hnone
    refine ⟨_, hrow, ?_⟩
    rw [hget]
    refine ⟨?_, hcursor.trans (hstored.trans hlost)⟩
    rw [hpending]
    rfl

end Steps

/-! ## A shop -/

section Shop

open scoped Ascii

def ordersConfig : DatasetConfig where
  name := "orders"
  connector := some "shop"
  materialization := .synced (.resource "orders")

def shopConfig : RuntimeConfig where
  path := "runtime.yml"
  workspace := "shop"
  connectors := [⟨⟨"shop", "\x7b\x7d"⟩, "SHOPIFY"⟩]
  llmConnections := []
  agents := []
  semanticModels := []
  datasets := [ordersConfig]
  defaultMaxRowsPreview := 1000
  defaultMaxExportRows := 25000

def startAt (now : ℕ) : Start := ⟨now, fun _ _ => none⟩

def customers : DatasetRequest :=
  ⟨none, none, [], none, ⟨"FILE", "file", "csv", "duckdb", none, none, "customers", none, [("format", "csv")]⟩,
    some "file:///customers.csv", {}, none⟩

/-- three orders, up to May -/
def ordersWrites : SyncWrites where
  storageUri := "file:///orders.parquet"
  rowCount := 3
  bytes := some 512
  columns := [(11, ⟨"id", "int64", true⟩), (12, ⟨"updated_at", "string", true⟩)]
  revision := 13
  policy := 14
  description := "Managed dataset"
  tags := []
  mode := .incremental
  cursor := some "2024-05-01"
  records := 3
  pages := 1
  now := 1

end Shop

end Langbridge.Runtime.Metadata
