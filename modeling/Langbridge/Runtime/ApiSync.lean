/-
Syncing an API resource (`ConnectorSyncRuntime.sync_dataset`): the pages of the resource are extracted, made rows of and
merged into the dataset's file, and the cursor moves to the newest checkpoint.

The page loop runs at most `max_sync_retry` times. `sync_complete_iff` says what that means for the dataset: a sync
that succeeds has taken in the whole chain of pages exactly when the pages past that number hold no record.
-/
import Langbridge.Core.Paging
import Langbridge.Runtime.SyncRows

namespace Langbridge.Runtime

open Core List

/-! ## The connector and the sync state -/

/-- `ConnectorSyncMode` -/
inductive SyncMode where
  | incremental
  | fullRefresh
  | webhookAssisted
deriving DecidableEq

/-- `ConnectorSyncStatus` -/
inductive SyncStatus where
  | neverSynced
  | running
  | failed
  | succeeded
deriving DecidableEq

/-- what a sync raises -/
inductive SyncError where
  | path (e : PathError)
  | connector (text : String)
  | resourceNotFound (name : String)
  | badCursor
  | arrow
deriving DecidableEq

/-- what a sync reads of `ApiResource` -/
structure ApiResource where
  name : String
  primaryKey : Option String
  supportsIncremental : Bool

/-- `ApiExtractResult` -/
structure ApiExtractResult where
  records : List Json
  nextCursor : Option String
  checkpointCursor : Option String

/-- an API connector: its resources, and the page of a resource under `since` and a cursor -/
structure ApiConnector where
  discovered : List ApiResource
  resolve : String → Option ApiResource
  extract : String → Option String → Option String → Except SyncError ApiExtractResult

/-- what a sync reads of the dataset -/
structure ApiDataset where
  resource : String
  flatten : List String

/-- `ConnectorSyncState` -/
structure SyncState where
  sourceKey : String
  syncMode : SyncMode
  lastCursor : Option String
  status : SyncStatus
  errorMessage : Option String
  recordsSynced : ℕ
  pageCount : ℕ

/-! ## The page loop -/

/-- what the loop has gathered -/
structure Extraction where
  records : List Json
  checkpoint : Option String
  pageCount : ℕ

/-- the cursor of the page after this one -/
def ApiExtractResult.next (r : ApiExtractResult) : Option (Option String) :=
  if r.nextCursor.getD "" = "" then none else some r.nextCursor

/-- the page loop, for the number of turns it has left -/
def extractPages (V : Values) (fetch : Option String → Except SyncError ApiExtractResult) :
    ℕ → Option String → Extraction → Except SyncError Extraction
  | 0, _, acc => .ok acc
  | n + 1, cursor, acc =>
    match fetch cursor with
    | .error e => .error e
    | .ok r =>
      match pickNewerCursor V acc.checkpoint r.checkpointCursor with
      | none => .error .badCursor
      | some checkpoint =>
        let acc' := ⟨acc.records ++ r.records, checkpoint, acc.pageCount + 1⟩
        match r.next with
        | none => .ok acc'
        | some cursor' => extractPages V fetch n cursor' acc'

/-- the loop extracts the records of the first pages of the chain, in their order -/
theorem extractPages_eq (V : Values) (fetch : Option String → Except SyncError ApiExtractResult) (n : ℕ)
    (cursor : Option String) (acc out : Extraction) (h : extractPages V fetch n cursor acc = .ok out) :
    ∃ pages, Paging.fetchUpTo fetch ApiExtractResult.next n cursor = .ok pages ∧
      out.records = acc.records ++ pages.flatMap ApiExtractResult.records ∧
      out.pageCount = acc.pageCount + pages.length := by
  induction n generalizing cursor acc with
  | zero =>
    cases h
    exact ⟨[], rfl, (append_nil _).symm, rfl⟩
  | succ n ih =>
    rw [extractPages] at h
    cases hf : fetch cursor with
    | error e =>
      rw [hf] at h
      cases h
    | ok r =>
      simp only [hf] at h
      cases hc : pickNewerCursor V acc.checkpoint r.checkpointCursor with
      | none =>
        simp only [hc] at h
        cases h
      | some checkpoint =>
        simp only [hc] at h
        cases hn : r.next with
        | none =>
          simp only [hn] at h
          cases h
          refine ⟨[r], ?_, ?_, rfl⟩
          · simp only [Paging.fetchUpTo, hf, hn]
          · simp only [flatMap_cons, flatMap_nil, append_nil]
        | some cursor' =>
          simp only [hn] at h
          obtain ⟨pages, hpages, hrecords, hcount⟩ := ih cursor' _ h
          refine ⟨r :: pages, ?_, ?_, ?_⟩
          · simp only [Paging.fetchUpTo, hf, hn, hpages]
          · rw [hrecords, flatMap_cons, append_assoc]
          · rw [hcount, length_cons, Nat.add_assoc, Nat.add_comm 1]

/-! ## The sync -/

section Sync

variable [PyText]

/-- `_resolve_api_root_resource`: the discovered resource of a name, a later one winning, or the resolved one -/
def resolveRootResource (conn : ApiConnector) (name : String) : Except SyncError ApiResource :=
  match conn.discovered.reverse.find? fun r => r.name = name with
  | some r => .ok r
  | none =>
    match conn.resolve name with
    | some r => .ok r
    | none => .error (.resourceNotFound name)

def effectiveMode (mode : SyncMode) (r : ApiResource) : SyncMode :=
  if mode = .incremental ∧ r.supportsIncremental = false then .fullRefresh else mode

def sinceOf (mode : SyncMode) (r : ApiResource) (state : SyncState) : Option String :=
  if effectiveMode mode r = .incremental ∧ r.supportsIncremental = true then state.lastCursor else none

def hasColumn (rows : List Row) (c : String) : Bool := rows.any fun r => r.has c

def childPrimaryKey (rows : List Row) : Option String :=
  if hasColumn rows "id" then some "id"
  else if hasColumn rows "_parent_id" && hasColumn rows "_child_index" then some "_child_identity"
  else if hasColumn rows "_parent_id" then some "_parent_id"
  else none

def materializationPrimaryKey (resourcePath : String) (r : ApiResource) (rows : List Row) : Option String :=
  if resourcePath = r.name then r.primaryKey else childPrimaryKey rows

/-- the table `_materialize_existing_dataset` writes -/
def materializeExisting (V : Values) (file : Option ArrowTable) (rows : List Row) (primaryKey : Option String)
    (mode : SyncMode) : Option ArrowTable :=
  rowsToTable V (mergeRows ((file.map ArrowTable.rows).getD []) rows primaryKey (mode = .fullRefresh))
    (file.map ArrowTable.columns)

/-- what a successful sync leaves behind -/
structure SyncOutcome where
  resource : ApiResource
  resourcePath : String
  extraction : Extraction
  rows : List Row
  file : ArrowTable
  state : SyncState

/-- `_sync_source_key` of a resource -/
def resourceSourceKey (ds : ApiDataset) : String := "resource:" ++ PyText.strip ds.resource

def liftPath {α : Type} : Except PathError α → Except SyncError α
  | .error e => .error (.path e)
  | .ok a => .ok a

def syncTarget (conn : ApiConnector) (ds : ApiDataset) : Except SyncError (String × ApiResource) := do
  let resourcePath ← liftPath (normalizeApiResourcePath (PyText.strip ds.resource))
  let root ← liftPath (apiResourceRoot resourcePath)
  let resource ← resolveRootResource conn root
  return (resourcePath, resource)

def finishSync (V : Values) (ds : ApiDataset) (state : SyncState) (file : Option ArrowTable) (mode : SyncMode)
    (resourcePath : String) (resource : ApiResource) (extraction : Extraction) : Except SyncError SyncOutcome := do
  let materialized ← liftPath (materializeApiResourceRows resourcePath extraction.records resource.primaryKey ds.flatten)
  let effective := effectiveMode mode resource
  match materializeExisting V file materialized.rows
      (materializationPrimaryKey resourcePath resource materialized.rows) effective with
  | none => .error .arrow
  | some table =>
    return {
      resource := resource
      resourcePath := resourcePath
      extraction := extraction
      rows := materialized.rows
      file := table
      state :=
        { sourceKey := resourceSourceKey ds
          syncMode := effective
          lastCursor :=
            if effective = .incremental ∧ resource.supportsIncremental = true then extraction.checkpoint
            else state.lastCursor
          status := .succeeded
          errorMessage := none
          recordsSynced := materialized.rows.length
          pageCount := extraction.pageCount } }

def syncResource (V : Values) (conn : ApiConnector) (ds : ApiDataset) (state : SyncState) (file : Option ArrowTable)
    (mode : SyncMode) (maxSyncRetry : ℕ) : Except SyncError SyncOutcome := do
  let (resourcePath, resource) ← syncTarget conn ds
  let extraction ← extractPages V (conn.extract resource.name (sinceOf mode resource state)) maxSyncRetry none
    ⟨[], state.lastCursor, 0⟩
  finishSync V ds state file mode resourcePath resource extraction

/-! ## Completeness -/

/-- a sync that took in the chain of pages: every record was extracted and its rows merged into the file, and the cursor
has not moved past a record of a page that was not read (`past` says when it has) -/
structure TookIn (V : Values) (ds : ApiDataset) (file : Option ArrowTable) (past : Option String → Json → Prop)
    (pages : List ApiExtractResult) (out : SyncOutcome) : Prop where
  extracted : out.extraction.records = pages.flatMap ApiExtractResult.records
  materialised : ∃ m, materializeApiResourceRows out.resourcePath (pages.flatMap ApiExtractResult.records)
      out.resource.primaryKey ds.flatten = .ok m ∧
    materializeExisting V file m.rows (materializationPrimaryKey out.resourcePath out.resource m.rows)
      out.state.syncMode = some out.file
  cursor : ∀ page ∈ pages.drop out.extraction.pageCount, ∀ r ∈ page.records, ¬ past out.state.lastCursor r

variable {V : Values} {ds : ApiDataset} {state : SyncState} {file : Option ArrowTable} {mode : SyncMode}
  {out : SyncOutcome}

/-- what a successful sync is made of -/
theorem syncResource_ok {conn : ApiConnector} {n : ℕ} (h : syncResource V conn ds state file mode n = .ok out) :
    syncTarget conn ds = .ok (out.resourcePath, out.resource) ∧
      extractPages V (conn.extract out.resource.name (sinceOf mode out.resource state)) n none
        ⟨[], state.lastCursor, 0⟩ = .ok out.extraction ∧
      finishSync V ds state file mode out.resourcePath out.resource out.extraction = .ok out := by
  rw [syncResource] at h
  cases ht : syncTarget conn ds with
  | error e =>
    rw [ht] at h
    cases h
  | ok target =>
    obtain ⟨path, resource⟩ := target
    rw [ht] at h
    simp only [bind, Except.bind] at h
    cases he : extractPages V (conn.extract resource.name (sinceOf mode resource state)) n none
        ⟨[], state.lastCursor, 0⟩ with
    | error e =>
      rw [he] at h
      cases h
    | ok extraction =>
      rw [he] at h
      have hfields : out.resourcePath = path ∧ out.resource = resource ∧ out.extraction = extraction := by
        simp only [finishSync, bind, Except.bind] at h
        split at h
        · cases h
        · split at h
          · cases h
          · cases h
            exact ⟨rfl, rfl, rfl⟩
      obtain ⟨rfl, rfl, rfl⟩ := hfields
      exact ⟨rfl, he, h⟩

/-- the rows of a successful sync, and where they went -/
theorem finishSync_ok {path : String} {resource : ApiResource} {extraction : Extraction}
    (h : finishSync V ds state file mode path resource extraction = .ok out) :
    ∃ m, materializeApiResourceRows path extraction.records resource.primaryKey ds.flatten = .ok m ∧
      materializeExisting V file m.rows (materializationPrimaryKey path resource m.rows) out.state.syncMode =
        some out.file ∧ out.rows = m.rows ∧ out.state.status = .succeeded := by
  simp only [finishSync, bind, Except.bind] at h
  cases hm : materializeApiResourceRows path extraction.records resource.primaryKey ds.flatten with
  | error e =>
    rw [hm] at h
    cases h
  | ok m =>
    rw [hm] at h
    simp only [liftPath] at h
    split at h
    · cases h
    · rename_i hfile
      cases h
      exact ⟨m, rfl, hfile, rfl, rfl⟩

theorem finishSync_mode {path : String} {resource : ApiResource} {extraction : Extraction}
    (h : finishSync V ds state file mode path resource extraction = .ok out) :
    out.state.syncMode = effectiveMode mode resource := by
  obtain ⟨m, _, h⟩ := of_bind_ok h
  dsimp only at h
  split at h
  · cases h
  · cases h
    rfl

/-- **Syncing a resource.** A sync that succeeds has taken in the whole chain of pages exactly when the pages after the
first `max_sync_retry` hold no record. -/
theorem sync_complete_iff (V : Values) (conn : ApiConnector) (ds : ApiDataset) (state : SyncState)
    (file : Option ArrowTable) (mode : SyncMode) (maxSyncRetry : ℕ) (past : Option String → Json → Prop)
    (out : SyncOutcome) (hout : syncResource V conn ds state file mode maxSyncRetry = .ok out)
    (pages : List ApiExtractResult)
    (hchain : Paging.Chain (conn.extract out.resource.name (sinceOf mode out.resource state)) ApiExtractResult.next none
      pages) :
    TookIn V ds file past pages out ↔ ∀ page ∈ pages.drop maxSyncRetry, page.records = [] := by
  obtain ⟨_, hextract, hfinish⟩ := syncResource_ok hout
  obtain ⟨read, hread, hrecords, hcount⟩ := extractPages_eq V _ _ _ _ _ hextract
  rw [hchain.fetchUpTo] at hread
  cases hread
  rw [nil_append] at hrecords
  have hsplit : pages.flatMap ApiExtractResult.records =
      (pages.take maxSyncRetry).flatMap ApiExtractResult.records ++
        (pages.drop maxSyncRetry).flatMap ApiExtractResult.records := by
    rw [← flatMap_append, take_append_drop]
  constructor
  · intro h page hpage
    have hall : out.extraction.records = pages.flatMap ApiExtractResult.records := h.extracted
    rw [hrecords, hsplit, self_eq_append_right, flatMap_eq_nil_iff] at hall
    exact hall page hpage
  · intro h
    have hnil : (pages.drop maxSyncRetry).flatMap ApiExtractResult.records = [] := flatMap_eq_nil_iff.2 h
    have hall : out.extraction.records = pages.flatMap ApiExtractResult.records := by
      rw [hrecords, hsplit, hnil, append_nil]
    obtain ⟨m, hm, hfile, _, _⟩ := finishSync_ok hfinish
    refine ⟨hall, ⟨m, by rw [← hall]; exact hm, hfile⟩, ?_⟩
    intro page hpage r hr
    -- no page with a record was left unread
    have hunread : page ∈ pages.drop maxSyncRetry := by
      rw [hcount, Nat.zero_add, length_take] at hpage
      rcases Nat.le_total maxSyncRetry pages.length with hle | hle
      · rwa [Nat.min_eq_left hle] at hpage
      · rw [Nat.min_eq_right hle, drop_length] at hpage
        cases hpage
    rw [h page hunread] at hr
    cases hr

end Sync

/-! ## Four pages -/

section FourPages

open scoped Ascii

def order (id : ℤ) : Json := .obj [("id", .int id)]

/-- four pages of one order each; the first page reports the newest checkpoint -/
def orderPage : Option String → ApiExtractResult
  | none => ⟨[order 4], some "2", some "4"⟩
  | some "2" => ⟨[order 3], some "3", some "3"⟩
  | some "3" => ⟨[order 2], some "4", some "2"⟩
  | _ => ⟨[order 1], none, some "1"⟩

def orderPages : List ApiExtractResult := [orderPage none, orderPage (some "2"), orderPage (some "3"), orderPage (some "4")]

def ordersApi : ApiConnector where
  discovered := [⟨"orders", some "id", true⟩]
  resolve _ := none
  extract _ _ cursor := .ok (orderPage cursor)

def ordersOf : ApiDataset := ⟨"orders", []⟩

def neverSynced : SyncState := ⟨"resource:orders", .incremental, none, .neverSynced, none, 0, 0⟩

def orderPassed (cursor : Option String) (record : Json) : Prop :=
  ∃ id n, record = order id ∧ cursor.bind plainValues.int = some n ∧ id ≤ n

theorem orderPages_chain (since : Option String) :
    Paging.Chain (ordersApi.extract "orders" since) ApiExtractResult.next none orderPages :=
  .more rfl rfl (.more rfl rfl (.more rfl rfl (.last rfl rfl)))

/-- with the default bound the fourth page is not read, and the cursor is past its order -/
theorem fourthPage_lost : ∃ out, syncResource plainValues ordersApi ordersOf neverSynced none .incremental 3 = .ok out ∧
    out.state.status = .succeeded ∧ out.extraction.records = [order 4, order 3, order 2] ∧
      out.state.lastCursor = some "4" ∧ orderPassed out.state.lastCursor (order 1) ∧
        ¬ TookIn plainValues ordersOf none orderPassed orderPages out := by
  refine ⟨_, rfl, rfl, rfl, rfl, ⟨1, 4, rfl, rfl, by decide⟩, ?_⟩
  intro h
  have hlength := congrArg List.length h.extracted
  exact absurd hlength (by decide)

/-- a bound of four pages is enough -/
theorem fourPages_taken : ∃ out, syncResource plainValues ordersApi ordersOf neverSynced none .incremental 4 = .ok out ∧
    TookIn plainValues ordersOf none orderPassed orderPages out := by
  refine ⟨_, rfl, ?_⟩
  refine (sync_complete_iff plainValues ordersApi ordersOf neverSynced none .incremental 4 orderPassed _ rfl orderPages
    (orderPages_chain _)).2 ?_
  intro page hpage
  cases hpage

end FourPages

end Langbridge.Runtime
