/-
How requests find the datasets of a workspace (`_resolve_dataset_record`, `create_semantic_model`,
`update_semantic_model`, `_assert_dataset_name_is_available`, `_assert_sync_source_is_available`).

They read listings, the most recently updated datasets first: 200 of them where no limit is given, and 1000 elsewhere.
Identifiers and aliases are looked up in the whole table. The alias of a name that is taken is taken too, so that the
check of a new name is complete all the same.
-/
import Langbridge.Core.Listing
import Langbridge.Runtime.Restarts

namespace Langbridge.Runtime.Metadata

open Core List PyText Option

section Listings

variable [PyText] (hash : String → String) (order : Recency Dataset.updatedAt)

/-! ## Workspaces -/

/-- `_sync_source_key` of the datasets application -/
def sourceKey : SyncSource → Except String String
  | .resource path =>
    ((normalizeApiResourcePath (strip path)).mapError PathError.message).map ("resource:" ++ ·)
  | .table name => .ok ("table:" ++ strip name)
  | .sql text => .ok ("sql:" ++ hash (strip text))
  | .storage uri => .ok ("storage:" ++ strip uri)

/-- the datasets of a workspace: their identifiers, names and aliases are unique, aliases are made of the names, and
what is synced has a key -/
structure Workspace where
  rows : List Dataset
  ids : (rows.map (·.id)).Nodup
  names : (rows.map (·.name)).Nodup
  aliases : (rows.map (·.sqlAlias)).Nodup
  aliased : ∀ d ∈ rows, d.sqlAlias = datasetSqlAlias d.name
  keyed : ∀ d ∈ rows, d.connectionId ≠ none → ∀ source, d.sync = some source → ∃ key, sourceKey hash source = .ok key

/-! ## The repository -/

/-- `list_for_workspace` without filters -/
def listForWorkspace (rows : List Dataset) (limit : ℕ) : List Dataset := order.first limit rows

def listForConnection (rows : List Dataset) (connection : Uuid) (limit : ℕ) : List Dataset :=
  order.first limit (rows.filter fun d => d.connectionId = some connection)

def getForWorkspaceBySqlAlias (rows : List Dataset) (sqlAlias : String) : Option Dataset :=
  let normalized := lower (strip sqlAlias)
  if normalized = "" then none else rows.find? fun d => lower d.sqlAlias = normalized

/-! ## References -/

/-- `_resolve_dataset_record`; a text that is no UUID is not parsed -/
def resolveDatasetRecord (parseUuid : String → Option Uuid) (rows : List Dataset) (ref : String) :
    Except String Dataset :=
  let normalized := strip ref
  if normalized = "" then .error "dataset_ref is required."
  else
    match (parseUuid normalized).bind fun id => rows.find? fun d => d.id = id with
    | some d => .ok d
    | none =>
      match (listForWorkspace order rows 1000).find? fun d => d.name = normalized with
      | some d => .ok d
      | none => .error ("Unknown dataset '" ++ ref ++ "'.")

structure SemanticModelRequest where
  name : String
  model : Option (List (String × Json))
  datasets : List String

/-- `UpdateSemanticModelRequest`; `none` where the field is not set -/
structure SemanticModelUpdate where
  model : Option (Option (List (String × Json)))
  datasets : Option (Option (List String))

/-- the request that an update comes down to -/
def SemanticModelUpdate.request (u : SemanticModelUpdate) (name : String) (contentJson : List (String × Json)) :
    SemanticModelRequest :=
  ⟨name, u.model.getD (some contentJson), u.datasets.join.getD []⟩

def rawDatasets (payload : List (String × Json)) : Json :=
  match payload.lookup "datasets" with
  | some (.obj es) => .obj es
  | _ => (payload.lookup "tables").getD .null

def referencedDatasetNames (r : SemanticModelRequest) : List String :=
  let named := (r.datasets.map strip).filter (· ≠ "")
  match rawDatasets (r.model.getD []) with
  | .obj es => named ++ (es.map fun e => strip e.1).filter (· ≠ "")
  | _ => named

/-- the names that are not those of a dataset -/
structure UnknownDatasets where
  missing : List String

def UnknownDatasets.message (e : UnknownDatasets) : String :=
  "Semantic model references unknown datasets: " ++ ", ".intercalate e.missing ++ "."

/-- `datasets_by_name`, once all references are known: `create_semantic_model` and `update_semantic_model` -/
def datasetsByName (rows : List Dataset) (r : SemanticModelRequest) : Except UnknownDatasets (Dict String Dataset) :=
  let byName := upsert Dataset.name (listForWorkspace order rows 200)
  let missing := ((referencedDatasetNames r).filter fun name => !byName.has name).dedup.mergeSort (· ≤ ·)
  if missing = [] then .ok byName else .error ⟨missing⟩

/-! ## Uniqueness -/

def assertDatasetNameIsAvailable (rows : List Dataset) (datasetName datasetAlias : String) : Except String Unit :=
  if (listForWorkspace order rows 1000).any (·.name = datasetName) then
    .error ("Dataset '" ++ datasetName ++ "' already exists.")
  else
    match getForWorkspaceBySqlAlias rows datasetAlias with
    | some d => .error ("Dataset sql_alias '" ++ datasetAlias ++ "' is already in use by dataset '" ++ d.name ++ "'.")
    | none => .ok ()

def checkSources (connectorName key : String) (current : Option Uuid) : List Dataset → Except String Unit
  | [] => .ok ()
  | d :: ds =>
    if current = some d.id then checkSources connectorName key current ds
    else
      match d.sync with
      | none => checkSources connectorName key current ds
      | some source =>
        match sourceKey hash source with
        | .error e => .error e
        | .ok candidate =>
          if candidate = key then
            .error ("Connector '" ++ connectorName ++ "' already has dataset '" ++ d.name ++
              "' bound to sync.source '" ++ key ++ "'. Sync source keys must be unique per connector.")
          else checkSources connectorName key current ds

def assertSyncSourceIsAvailable (rows : List Dataset) (connectorName : String) (connection : Uuid) (key : String)
    (current : Option Uuid) : Except String Unit :=
  checkSources hash connectorName key current (listForConnection order rows connection 1000)

/-- the check of a row that is saved, where it is a synced one -/
def assertSourceOf (rows : List Dataset) (connectorName : String) (row : Dataset) (current : Option Uuid) :
    Except String Unit :=
  match row.connectionId, row.sync with
  | some connection, some source => do
    assertSyncSourceIsAvailable hash order rows connectorName connection (← sourceKey hash source) current
  | _, _ => .ok ()

/-! ## What the requests take into account -/

def Bound (connection : Uuid) (key : String) (d : Dataset) : Prop :=
  d.connectionId = some connection ∧ ∃ source, d.sync = some source ∧ sourceKey hash source = .ok key

/-- two datasets are synced from one source -/
def SameSource (row d : Dataset) : Prop := ∃ connection key, Bound hash connection key row ∧ Bound hash connection key d

/-- a reference is to the dataset of its identifier, or of its name where there is no such identifier -/
def Refers (parseUuid : String → Option Uuid) (rows : List Dataset) (ref : String) (d : Dataset) : Prop :=
  strip ref ≠ "" ∧ (parseUuid (strip ref) = some d.id ∨
    ((∀ d' ∈ rows, parseUuid (strip ref) ≠ some d'.id) ∧ d.name = strip ref))

/-- the requests that look datasets up -/
inductive Lookup where
  | createSemanticModel (r : SemanticModelRequest)
  | updateSemanticModel (name : String) (contentJson : List (String × Json)) (u : SemanticModelUpdate)
  | createDataset (connectorName : String) (id revision : ℕ) (name : String) (r : DatasetRequest) (now : ℕ)
  | updateDataset (connectorName ref : String) (revision : ℕ) (r : DatasetRequest) (now : ℕ)

def ResolvesReferences (rows : List Dataset) (r : SemanticModelRequest) : Prop :=
  ∀ d ∈ rows, d.name ∈ referencedDatasetNames r →
    match datasetsByName order rows r with
    | .ok byName => byName.get? d.name = some d
    | .error e => d.name ∉ e.missing

/-- the check of a row's source does not pass when another dataset is synced from it -/
def SourceIsFree (rows : List Dataset) (connectorName : String) (row : Dataset) (current : Option Uuid) : Prop :=
  assertSourceOf hash order rows connectorName row current = .ok () →
    ∀ d ∈ rows, current ≠ some d.id → ¬ SameSource hash row d

/-- The request takes all datasets into account: what it refers to is found, and what passes for free is free. -/
def TakesAll (parseUuid : String → Option Uuid) (w : Workspace hash) : Lookup → Prop
  | .createSemanticModel r => ResolvesReferences order w.rows r
  | .updateSemanticModel name contentJson u => ResolvesReferences order w.rows (u.request name contentJson)
  | .createDataset connectorName id revision name r now =>
    let row := createdRow id revision (strip name) r now
    (assertDatasetNameIsAvailable order w.rows row.name row.sqlAlias = .ok () →
      ∀ d ∈ w.rows, d.name ≠ row.name ∧ d.sqlAlias ≠ row.sqlAlias) ∧
    SourceIsFree hash order w.rows connectorName row none
  | .updateDataset connectorName ref revision r now =>
    (∀ d ∈ w.rows, Refers parseUuid w.rows ref d → resolveDatasetRecord order parseUuid w.rows ref = .ok d) ∧
    ∀ row, resolveDatasetRecord order parseUuid w.rows ref = .ok row →
      SourceIsFree hash order w.rows connectorName (updatedRow row revision r now) (some row.id)

/-- where another dataset is synced from the source of a row, one of the connection's latest is -/
def SourceListed (rows : List Dataset) (row : Dataset) (current : Option Uuid) : Prop :=
  ∀ d ∈ rows, current ≠ some d.id → SameSource hash row d → ∃ connection, row.connectionId = some connection ∧
    ∃ d' ∈ listForConnection order rows connection 1000, current ≠ some d'.id ∧ SameSource hash row d'

/-- What is looked for is among the latest datasets. -/
def Fits (parseUuid : String → Option Uuid) (w : Workspace hash) : Lookup → Prop
  | .createSemanticModel r =>
    ∀ d ∈ w.rows, d.name ∈ referencedDatasetNames r → d ∈ listForWorkspace order w.rows 200
  | .updateSemanticModel name contentJson u =>
    ∀ d ∈ w.rows, d.name ∈ referencedDatasetNames (u.request name contentJson) → d ∈ listForWorkspace order w.rows 200
  | .createDataset _ id revision name r now =>
    SourceListed hash order w.rows (createdRow id revision (strip name) r now) none
  | .updateDataset _ ref revision r now =>
    (∀ d ∈ w.rows, d.name = strip ref → strip ref ≠ "" →
      (∀ d' ∈ w.rows, parseUuid (strip ref) ≠ some d'.id) → d ∈ listForWorkspace order w.rows 1000) ∧
    ∀ row ∈ w.rows, Refers parseUuid w.rows ref row →
      SourceListed hash order w.rows (updatedRow row revision r now) (some row.id)

variable {hash order} {w : Workspace hash}

/-! ## References -/

theorem names_listed (limit : ℕ) : ((listForWorkspace order w.rows limit).map (·.name)).Nodup :=
  (((order.perm w.rows).map _).nodup_iff.2 w.names).sublist ((take_sublist _ _).map _)

theorem get?_byName (limit : ℕ) (name : String) (d : Dataset) :
    (upsert Dataset.name (listForWorkspace order w.rows limit)).get? name = some d ↔
      d ∈ listForWorkspace order w.rows limit ∧ d.name = name :=
  get?_upsert_iff Dataset.name (names_listed limit) name d

theorem datasetsByName_ok {rows : List Dataset} {r : SemanticModelRequest} {byName : Dict String Dataset}
    (h : datasetsByName order rows r = .ok byName) :
    byName = upsert Dataset.name (listForWorkspace order rows 200) := by
  rw [datasetsByName] at h
  split_ifs at h
  exact (Except.ok.inj h).symm

theorem mem_missing {rows : List Dataset} {r : SemanticModelRequest} {e : UnknownDatasets}
    (h : datasetsByName order rows r = .error e) (name : String) : name ∈ e.missing ↔
      name ∈ referencedDatasetNames r ∧ (upsert Dataset.name (listForWorkspace order rows 200)).has name = false := by
  rw [datasetsByName] at h
  split_ifs at h
  rw [← Except.error.inj h]
  simp only [mem_mergeSort, mem_dedup, mem_filter, Bool.not_eq_true']

theorem has_byName_iff {d : Dataset} (hd : d ∈ w.rows) (limit : ℕ) :
    (upsert Dataset.name (listForWorkspace order w.rows limit)).has d.name = true ↔
      d ∈ listForWorkspace order w.rows limit := by
  rw [Dict.has, isSome_iff_exists]
  constructor
  · rintro ⟨d', hd'⟩
    obtain ⟨hlisted, hname⟩ := (get?_byName limit d.name d').1 hd'
    rwa [← inj_on_of_nodup_map w.names (order.mem_of_mem_first hlisted) hd hname]
  · exact fun hlisted => ⟨d, (get?_byName limit d.name d).2 ⟨hlisted, rfl⟩⟩

/-- the references of a semantic model are resolved iff they are among the listed datasets -/
theorem resolvesReferences_iff (r : SemanticModelRequest) : ResolvesReferences order w.rows r ↔
    ∀ d ∈ w.rows, d.name ∈ referencedDatasetNames r → d ∈ listForWorkspace order w.rows 200 := by
  refine forall₃_congr fun d hd href => ?_
  cases hres : datasetsByName order w.rows r with
  | ok byName =>
    rw [datasetsByName_ok hres]
    exact (get?_byName 200 d.name d).trans (and_iff_left rfl)
  | error e =>
    dsimp only
    rw [mem_missing hres, ← has_byName_iff hd, Bool.eq_false_iff]
    simp [href]

theorem eq_of_id {d d' : Dataset} (hd : d ∈ w.rows) (hd' : d' ∈ w.rows) (h : d.id = d'.id) : d = d' :=
  inj_on_of_nodup_map w.ids hd hd' h

theorem eq_of_name {d d' : Dataset} (hd : d ∈ w.rows) (hd' : d' ∈ w.rows) (h : d.name = d'.name) : d = d' :=
  inj_on_of_nodup_map w.names hd hd' h

/-- what a reference is resolved to: the dataset of the identifier, or a listed one of the name -/
theorem resolveDatasetRecord_ok_iff (parseUuid : String → Option Uuid) (ref : String) (d : Dataset) :
    resolveDatasetRecord order parseUuid w.rows ref = .ok d ↔ d ∈ w.rows ∧ Refers parseUuid w.rows ref d ∧
      (parseUuid (strip ref) = some d.id ∨ d ∈ listForWorkspace order w.rows 1000) := by
  rw [resolveDatasetRecord]
  by_cases hblank : strip ref = ""
  · simp [Refers, hblank]
  rw [if_neg hblank]
  cases hfound : (parseUuid (strip ref)).bind fun id => w.rows.find? fun d => d.id = id with
  | some d' =>
    obtain ⟨id, hid, hfind⟩ := bind_eq_some_iff.1 hfound
    obtain ⟨hd', rfl⟩ := (find?_key_iff Dataset.id w.ids id d').1 hfind
    rw [Except.ok.injEq]
    constructor
    · rintro rfl
      exact ⟨hd', ⟨hblank, .inl hid⟩, .inl hid⟩
    · rintro ⟨hd, ⟨-, hrefers⟩, -⟩
      rcases hrefers with hsame | ⟨hnone, -⟩
      · exact eq_of_id hd' hd (Option.some.inj (hid.symm.trans hsame))
      · exact absurd hid (hnone d' hd')
  | none =>
    have hnone : ∀ d' ∈ w.rows, parseUuid (strip ref) ≠ some d'.id := fun d' hd' hid => by
      have hfind := (find?_key_iff Dataset.id w.ids d'.id d').2 ⟨hd', rfl⟩
      rw [hid, bind_some, hfind] at hfound
      cases hfound
    cases hnamed : (listForWorkspace order w.rows 1000).find? fun d => d.name = strip ref with
    | some d' =>
      obtain ⟨hlisted, hname⟩ := (find?_key_iff Dataset.name (names_listed 1000) _ d').1 hnamed
      have hd' := order.mem_of_mem_first hlisted
      rw [Except.ok.injEq]
      constructor
      · rintro rfl
        exact ⟨hd', ⟨hblank, .inr ⟨hnone, hname⟩⟩, .inr hlisted⟩
      · rintro ⟨hd, ⟨-, hrefers⟩, -⟩
        rcases hrefers with hid | ⟨-, hsame⟩
        · exact absurd hid (hnone d hd)
        · exact eq_of_name hd' hd (hname.trans hsame.symm)
    | none =>
      refine iff_of_false (fun h => (by cases h)) ?_
      rintro ⟨hd, ⟨-, hrefers⟩, hreach⟩
      rcases hreach with hid | hlisted
      · exact hnone d hd hid
      · rcases hrefers with hid | ⟨-, hname⟩
        · exact hnone d hd hid
        · have hfind := (find?_key_iff Dataset.name (names_listed 1000) _ d).2 ⟨hlisted, hname⟩
          rw [hnamed] at hfind
          cases hfind

theorem resolves_iff (parseUuid : String → Option Uuid) (ref : String) :
    (∀ d ∈ w.rows, Refers parseUuid w.rows ref d → resolveDatasetRecord order parseUuid w.rows ref = .ok d) ↔
      ∀ d ∈ w.rows, d.name = strip ref → strip ref ≠ "" →
        (∀ d' ∈ w.rows, parseUuid (strip ref) ≠ some d'.id) → d ∈ listForWorkspace order w.rows 1000 := by
  refine forall₂_congr fun d hd => ?_
  rw [resolveDatasetRecord_ok_iff]
  constructor
  · intro h hname hblank hnone
    exact (h ⟨hblank, .inr ⟨hnone, hname⟩⟩).2.2.resolve_left (hnone d hd)
  · rintro h ⟨hblank, hrefers⟩
    refine ⟨hd, ⟨hblank, hrefers⟩, ?_⟩
    rcases hrefers with hid | ⟨hnone, hname⟩
    · exact .inl hid
    · exact .inr (h hname hblank hnone)

/-! ## Sources -/

theorem checkSources_ok_iff {key : String} {current : Option Uuid} (connectorName : String) {ds : List Dataset}
    (hkeyed : ∀ d ∈ ds, ∀ source, d.sync = some source → ∃ k, sourceKey hash source = .ok k) :
    checkSources hash connectorName key current ds = .ok () ↔
      ∀ d ∈ ds, current ≠ some d.id → ∀ source, d.sync = some source → sourceKey hash source ≠ .ok key := by
  induction ds with
  | nil => simp [checkSources]
  | cons d ds ih =>
    have hrest := ih fun d' hd' => hkeyed d' (mem_cons_of_mem d hd')
    rw [checkSources, forall_mem_cons]
    by_cases hcurrent : current = some d.id
    · rw [if_pos hcurrent, hrest]
      exact (and_iff_right fun h => absurd hcurrent h).symm
    rw [if_neg hcurrent]
    cases hsync : d.sync with
    | none =>
      rw [hrest]
      exact (and_iff_right fun _ _ h => (by cases h)).symm
    | some source =>
      obtain ⟨k, hk⟩ := hkeyed d mem_cons_self source hsync
      simp only [hk]
      by_cases hsame : k = key
      · rw [if_pos hsame]
        exact iff_of_false (fun h => (by cases h)) fun h => h.1 hcurrent source rfl (by rw [hk, hsame])
      · rw [if_neg hsame, hrest]
        refine (and_iff_right fun _ source' hsource => ?_).symm
        rw [← Option.some.inj hsource, hk]
        exact fun h => hsame (Except.ok.inj h)

omit [PyText] in
theorem mem_listForConnection {rows : List Dataset} {connection : Uuid} {limit : ℕ} {d : Dataset}
    (h : d ∈ listForConnection order rows connection limit) : d ∈ rows ∧ d.connectionId = some connection := by
  simpa using order.mem_of_mem_first h

/-- the source of a connection passes for free iff none of its listed datasets is synced from it -/
theorem assertSyncSourceIsAvailable_ok_iff (connectorName : String) (connection : Uuid) (key : String)
    (current : Option Uuid) :
    assertSyncSourceIsAvailable hash order w.rows connectorName connection key current = .ok () ↔
      ∀ d ∈ listForConnection order w.rows connection 1000, current ≠ some d.id → ¬ Bound hash connection key d := by
  rw [assertSyncSourceIsAvailable, checkSources_ok_iff connectorName fun d hd =>
    w.keyed d (mem_listForConnection hd).1 (by rw [(mem_listForConnection hd).2]; exact some_ne_none _)]
  refine forall₃_congr fun d hd _ => ?_
  rw [Bound, and_iff_right (mem_listForConnection hd).2]
  push Not
  rfl

variable (hash) in
theorem sourceOf_cases (row : Dataset) :
    (∀ connection key, ¬ Bound hash connection key row) ∨ ∃ connection source key,
      row.connectionId = some connection ∧ row.sync = some source ∧ sourceKey hash source = .ok key := by
  rw [or_iff_not_imp_left]
  intro h
  push Not at h
  obtain ⟨connection, key, hconnection, source, hsync, hkey⟩ := h
  exact ⟨connection, source, key, hconnection, hsync, hkey⟩

theorem sameSource_iff {row d : Dataset} {connection : Uuid} {source : SyncSource} {key : String}
    (hconnection : row.connectionId = some connection) (hsync : row.sync = some source)
    (hkey : sourceKey hash source = .ok key) : SameSource hash row d ↔ Bound hash connection key d := by
  constructor
  · rintro ⟨connection', key', ⟨hconnection', source', hsync', hkey'⟩, hbound⟩
    rw [hconnection] at hconnection'
    rw [hsync] at hsync'
    cases hconnection'
    cases hsync'
    rw [hkey] at hkey'
    rwa [Except.ok.inj hkey']
  · exact fun hbound => ⟨connection, key, ⟨hconnection, source, hsync, hkey⟩, hbound⟩

/-- the check of a row's source is right iff a dataset that has the source is listed where there is one -/
theorem sourceIsFree_iff (connectorName : String) (row : Dataset) (current : Option Uuid) :
    SourceIsFree hash order w.rows connectorName row current ↔ SourceListed hash order w.rows row current := by
  rcases sourceOf_cases hash row with hnone | ⟨connection, source, key, hconnection, hsync, hkey⟩
  · have hfree : ∀ d, ¬ SameSource hash row d := fun d ⟨connection, key, hbound, _⟩ => hnone connection key hbound
    exact iff_of_true (fun _ d _ _ => hfree d) fun d _ _ hsame => absurd hsame (hfree d)
  · have hcheck : assertSourceOf hash order w.rows connectorName row current =
        assertSyncSourceIsAvailable hash order w.rows connectorName connection key current := by
      rw [assertSourceOf, hconnection, hsync]
      simp only [hkey]
      rfl
    simp only [SourceIsFree, SourceListed, sameSource_iff hconnection hsync hkey, hcheck,
      assertSyncSourceIsAvailable_ok_iff, hconnection, Option.some.injEq, exists_eq_left']
    constructor
    · intro hfree d hd hcurrent hbound
      by_contra hnone
      push Not at hnone
      exact hfree hnone d hd hcurrent hbound
    · intro hlisted hnone d hd hcurrent hbound
      obtain ⟨d', hd', hcurrent', hbound'⟩ := hlisted d hd hcurrent hbound
      exact hnone d' hd' hcurrent' hbound'

end Listings

/-! ## Names and aliases -/

section Aliases

variable [PySmall] {hash : String → String} {order : Recency Dataset.updatedAt} {w : Workspace hash}

omit [PySmall] in
theorem mem_subRuns {p : Char → Bool} {inRun : Bool} {l : List Char} {c : Char} (h : c ∈ subRuns p inRun l) :
    c = '_' ∨ (c ∈ l ∧ p c = false) := by
  induction l generalizing inRun with
  | nil => cases h
  | cons d l ih =>
    rw [subRuns] at h
    split_ifs at h with hd hrun
    · exact (ih h).imp_right fun hc => ⟨mem_cons_of_mem d hc.1, hc.2⟩
    · rcases mem_cons.1 h with rfl | h
      · exact .inl rfl
      · exact (ih h).imp_right fun hc => ⟨mem_cons_of_mem d hc.1, hc.2⟩
    · rcases mem_cons.1 h with rfl | h
      · exact .inr ⟨mem_cons_self, Bool.eq_false_iff.2 hd⟩
      · exact (ih h).imp_right fun hc => ⟨mem_cons_of_mem d hc.1, hc.2⟩

/-- an alias is made of small letters, digits and underscores -/
theorem isAliasChar_alias (name : String) : ∀ c ∈ (datasetSqlAlias name).toList, isAliasChar c = true := by
  intro c hc
  rw [datasetSqlAlias] at hc
  split at hc
  · exact forall_mem_of_all (p := fun c => isAliasChar c = true) (by decide) c hc
  · rename_i d ds htrim
    have hds : ∀ c ∈ d :: ds, isAliasChar c = true := fun c hc => by
      rcases mem_subRuns (mem_of_mem_trim _ (htrim ▸ hc)) with rfl | ⟨hc, -⟩
      · decide
      · rcases mem_subRuns hc with rfl | ⟨-, hc⟩
        · decide
        · simpa using hc
    have hchars : (String.ofList (d :: ds)).toList = d :: ds := String.toList_ofList
    split_ifs at hc
    · rw [String.toList_append, hchars, mem_append] at hc
      rcases hc with hc | hc
      · exact forall_mem_of_all (p := fun c => isAliasChar c = true) (by decide) c hc
      · exact hds c hc
    · exact hds c (hchars ▸ hc)

theorem alias_ne_empty (name : String) : datasetSqlAlias name ≠ "" := by
  rw [datasetSqlAlias]
  split
  · decide
  · split_ifs <;> intro h <;> simpa using congrArg String.toList h

omit [PySmall] in
theorem aliasChar_bounds {c : Char} (h : isAliasChar c = true) :
    (48 ≤ c.toNat ∧ c.toNat ≤ 122) ∧ c.isUpper = false := by
  simp only [isAliasChar, Bool.or_eq_true, Ascii.isLower_iff, Char.isDigit, Bool.and_eq_true, decide_eq_true_eq] at h
  have hbounds : (97 ≤ c.toNat ∧ c.toNat ≤ 122) ∨ (48 ≤ c.toNat ∧ c.toNat ≤ 57) ∨ c.toNat = 95 := by
    rcases h with (h | h) | rfl
    · exact .inl h
    · exact .inr (.inl ⟨h.1, h.2⟩)
    · exact .inr (.inr rfl)
  rw [← Bool.not_eq_true, Ascii.isUpper_iff]
  omega

/-- an alias is looked up as it is -/
theorem lower_strip_alias (name : String) :
    lower (datasetSqlAlias name) = datasetSqlAlias name ∧
      strip (datasetSqlAlias name) = datasetSqlAlias name := by
  have hchars := isAliasChar_alias name
  refine ⟨PySmall.lower_small _ fun c hc => ?_, PyGraph.strip_graph _ fun c hc => ?_⟩
  · have hbounds := aliasChar_bounds (hchars c hc)
    exact ⟨by omega, hbounds.2⟩
  · have hbounds := aliasChar_bounds (hchars c hc)
    omega

/-- **Names.** The check of a name is complete: the alias of a taken name is taken, and aliases are looked up in the
whole table. -/
theorem name_free {name : String}
    (h : assertDatasetNameIsAvailable order w.rows name (datasetSqlAlias name) = .ok ()) :
    ∀ d ∈ w.rows, d.name ≠ name ∧ d.sqlAlias ≠ datasetSqlAlias name := by
  obtain ⟨hlower, hstrip⟩ := lower_strip_alias name
  have hfree : ∀ d ∈ w.rows, d.sqlAlias ≠ datasetSqlAlias name := fun d hd halias => by
    rw [assertDatasetNameIsAvailable, getForWorkspaceBySqlAlias, hstrip, hlower, if_neg (alias_ne_empty name)] at h
    split_ifs at h
    obtain ⟨d', hfound⟩ := isSome_iff_exists.1 (find?_isSome.2 ⟨d, hd, decide_eq_true (by
      rw [halias, hlower])⟩ : (w.rows.find? fun d => lower d.sqlAlias = datasetSqlAlias name).isSome = true)
    rw [hfound] at h
    cases h
  exact fun d hd => ⟨fun hname => hfree d hd (by rw [w.aliased d hd, hname]), hfree d hd⟩

/-! ## When everything is taken into account -/

/-- **A request takes all datasets into account iff what it looks for is among the latest ones**: the 200 latest of the
workspace for the references of a semantic model, the 1000 latest for the name of a dataset, and the 1000 latest of the
connection for what is synced from a source. -/
theorem takesAll_iff (hash : String → String) (order : Recency Dataset.updatedAt) (parseUuid : String → Option Uuid)
    (w : Workspace hash) (op : Lookup) : TakesAll hash order parseUuid w op ↔ Fits hash order parseUuid w op := by
  cases op with
  | createSemanticModel r => exact resolvesReferences_iff r
  | updateSemanticModel name contentJson u => exact resolvesReferences_iff _
  | createDataset connectorName id revision name r now =>
    exact (and_iff_right fun h => name_free h).trans (sourceIsFree_iff connectorName _ none)
  | updateDataset connectorName ref revision r now =>
    rw [TakesAll, Fits, ← resolves_iff parseUuid ref]
    refine and_congr_right fun hresolves => ?_
    constructor
    · intro h row hrow hrefers
      exact (sourceIsFree_iff connectorName _ _).1 (h row (hresolves row hrow hrefers))
    · intro h row hrow
      obtain ⟨hmem, hrefers, -⟩ := (resolveDatasetRecord_ok_iff parseUuid ref row).1 hrow
      exact (sourceIsFree_iff connectorName _ _).2 (h row hmem hrefers)

end Aliases

section Tables

variable [PyWords]

omit [PyWords] in
theorem subRuns_of_none {p : Char → Bool} {l : List Char} (h : ∀ c ∈ l, p c = false) : subRuns p false l = l := by
  induction l with
  | nil => rfl
  | cons c l ih =>
    rw [subRuns, if_neg (by rw [h c mem_cons_self]; exact Bool.false_ne_true),
      ih fun c hc => h c (mem_cons_of_mem _ hc)]

/-- a word of small letters is its own alias -/
theorem datasetSqlAlias_word {s : String} (h : ∀ c ∈ s.toList, c.isLower = true) (hne : s ≠ "") :
    datasetSqlAlias s = s := by
  have hunder : ∀ c ∈ s.toList, decide (c = '_') = false := fun c hc => by
    refine decide_eq_false fun heq => ?_
    have hlower := h c hc
    rw [heq] at hlower
    revert hlower
    decide
  have hchars : ∀ c ∈ s.toList, (!isAliasChar c) = false := fun c hc => by rw [isAliasChar, h c hc]; rfl
  have hnorm : lower (strip s) = s := PyWords.norm_word s (all_eq_true.2 h)
  have htrim : trim (· = '_') s.toList = s.toList :=
    trim_of_trimmed _ _
      ⟨fun a ha => hunder a (mem_of_mem_head? ha), fun a ha => hunder a (mem_of_getLast? ha)⟩
  rw [datasetSqlAlias]
  simp only [hnorm]
  rw [subRuns_of_none hchars, subRuns_of_none hunder, htrim]
  cases hs : s.toList with
  | nil => exact absurd (String.toList_eq_nil_iff.1 hs) hne
  | cons c cs =>
    have hdigit : c.isDigit = false := by
      have hlow := Ascii.isLower_iff.1 (h c (hs ▸ mem_cons_self))
      rw [Bool.eq_false_iff, Ne, Char.isDigit_iff_toNat]
      have hnine : '9'.toNat = 57 := rfl
      omega
    dsimp only
    rw [if_neg (by rw [hdigit]; exact Bool.false_ne_true), ← hs, String.ofList_toList]

end Tables

section Counterexample

open scoped Ascii

/-- a word of so many letters -/
def letters (n : ℕ) : String := String.ofList (List.replicate (n + 1) 'a')

theorem letters_injective : Function.Injective letters := fun m n h => by
  have hlist := congrArg (·.toList.length) h
  simpa [letters] using hlist

/-- a live dataset, changed at a time -/
def table (n : ℕ) : Dataset :=
  ⟨.random n, none, letters n, letters n, none, [], none, ⟨"TABLE", "database", "table", "postgres", none, none,
    letters n, none, []⟩, ⟨none, .published, none, none, none⟩, .runtimeManaged, 0, n⟩

/-- a workspace of so many datasets -/
def tables (hash : String → String) (n : ℕ) : Workspace hash where
  rows := (List.range n).map table
  ids := by
    rw [List.map_map]
    exact nodup_range.map fun i j h => Uuid.random.inj h
  names := by
    rw [List.map_map]
    exact nodup_range.map letters_injective
  aliases := by
    rw [List.map_map]
    exact nodup_range.map letters_injective
  aliased d hd := by
    obtain ⟨n, -, rfl⟩ := mem_map.1 hd
    refine (datasetSqlAlias_word (fun c hc => ?_) fun h => ?_).symm
    · have hc' : c ∈ (letters n).toList := hc
      rw [letters, String.toList_ofList] at hc'
      rw [eq_of_mem_replicate hc']
      decide
    · have hlist := congrArg (·.toList.length) h
      simp [table, letters] at hlist
  keyed d hd hconnection := by
    obtain ⟨n, -, rfl⟩ := mem_map.1 hd
    exact absurd rfl hconnection

theorem newer_tables : 200 ≤ ((List.range 201).map table).countP fun d => (table 0).updatedAt < d.updatedAt := by
  decide +kernel

/-- The oldest of 201 datasets is unknown to a semantic model. -/
theorem oldest_unknown : ¬ TakesAll id (Recency.stable _) (fun _ => none) (tables id 201)
    (.createSemanticModel ⟨"sales", none, ["a"]⟩) := by
  intro h
  have hlisted := (resolvesReferences_iff _).1 h (table 0) (mem_map_of_mem (by decide)) (by decide)
  exact (Recency.stable _).not_mem_first (by decide) newer_tables hlisted

end Counterexample

end Langbridge.Runtime.Metadata
