/-
An attempt to sync a dataset (`DatasetApplication.sync_dataset`, `ConnectorSyncRuntime.sync_dataset`) in which every
call may raise.

The metadata stores are those of a runtime in memory, where the objects an attempt changes are the stored ones, or those
of a unit of work, which a commit makes durable and an exception rolls back; the parquet file is overwritten in place in
both. The failure is recorded with the state that the attempt was left with, which is assigned only after the sync has
gone through.
-/
import Langbridge.Core.Raising
import Langbridge.Runtime.SyncLifecycle

namespace Langbridge.Runtime.SyncFailures

open Core Core.Raising Runtime.Lifecycle Option

/-! ## The store -/

/-- the metadata store of a runtime -/
inductive Backend where
  | memory
  | sql
deriving DecidableEq

/-- what a sync writes of the dataset -/
structure DatasetEntry where
  storageUri : Option String
  columns : List String
  rowCount : Option ℕ
deriving DecidableEq

/-- what the metadata store holds: the sync state under the key of the source, and the dataset -/
structure Catalog where
  state : Option SyncState
  dataset : DatasetEntry

/-- the metadata store and the parquet files -/
structure World where
  stored : Catalog
  files : String → Option ArrowTable

/-- an attempt under way: what the open unit of work holds, and the variable `active_state` -/
structure Attempt extends World where
  session : Catalog
  active : Option SyncState

abbrev Attempting : Type → Type := EStateM String Attempt

/-- the places where an attempt calls what may raise -/
inductive Point where
  | require
  | syncMode
  | resolve
  | source
  | getState
  | saveRunning
  | connect
  | readFile
  | makeDir
  | writeTable
  | stat
  | deleteColumns
  | addColumns
  | policy
  | revision
  | lineage
  | saveDataset
  | saveState
  | getStateAgain
  | commit
  | saveFailed
  | commitFailed
deriving DecidableEq

/-- where an attempt runs: its store, its connectors, the path of the dataset's file, and what each call raises -/
structure Env where
  backend : Backend
  api : ApiConnector
  maxSyncRetry : ℕ
  sql : SqlConnector
  path : String
  raises : Point → Option String
  /-- `str(exc)` -/
  describe : SyncError → String

section Attempts

variable [PyText] (V : Values) (hash : String → String) (E : Env)

/-! ## What is read from the source -/

/-- what an attempt has read: rows, the key to merge them under, the mode, the next cursor (or what computing it after
the rows were written raises) and the number of pages -/
structure Fetched where
  rows : List Row
  key : Option String
  mode : SyncMode
  cursor : Except SyncError (Option String)
  pageCount : ℕ

def fetchResource (conn : ApiConnector) (ds : ApiDataset) (state : SyncState) (mode : SyncMode) (maxSyncRetry : ℕ) :
    Except SyncError Fetched := do
  let (resourcePath, resource) ← syncTarget conn ds
  let extraction ← extractPages V (conn.extract resource.name (sinceOf mode resource state)) maxSyncRetry none
    ⟨[], state.lastCursor, 0⟩
  let materialized ← liftPath
    (materializeApiResourceRows resourcePath extraction.records resource.primaryKey ds.flatten)
  let effective := effectiveMode mode resource
  return {
    rows := materialized.rows
    key := materializationPrimaryKey resourcePath resource materialized.rows
    mode := effective
    cursor := .ok (if effective = .incremental ∧ resource.supportsIncremental = true then extraction.checkpoint
      else state.lastCursor)
    pageCount := extraction.pageCount }

def fetchSql (conn : SqlConnector) (ds : SqlDataset) (state : SyncState) (mode : SyncMode) :
    Except SyncError Fetched := do
  let result ← conn.execute (syncQuery ds state.lastCursor mode)
  let rows := result.rows.map (rowOf result.columns)
  return {
    rows := rows
    key := resolveSqlPrimaryKey conn ds.source rows
    mode := mode
    cursor :=
      match resolveNextSqlCursor V rows ds.cursorColumn state.lastCursor mode with
      | none => .error .badCursor
      | some cursor => .ok cursor
    pageCount := 0 }

def fetch (src : Source) (state : SyncState) (mode : SyncMode) : Except SyncError Fetched :=
  match src with
  | .resource ds => fetchResource V E.api ds state mode E.maxSyncRetry
  | .sql ds => fetchSql V E.sql ds state mode

def Fetched.merged (got : Fetched) (file : Option ArrowTable) : List Row :=
  mergeRows ((file.map ArrowTable.rows).getD []) got.rows got.key (got.mode = .fullRefresh)

/-- the table `_materialize_existing_dataset` writes -/
def Fetched.table (got : Fetched) (file : Option ArrowTable) : Option ArrowTable :=
  rowsToTable V (got.merged file) (file.map ArrowTable.columns)

/-! ## Steps of an attempt -/

def raised (points : List Point) : Option String := points.findSome? E.raises

/-- some calls, one after another -/
def calls (points : List Point) : Attempting Unit :=
  match raised E points with
  | none => pure ()
  | some e => throw e

def lift {α : Type} : Except SyncError α → Attempting α
  | .ok a => pure a
  | .error e => throw (E.describe e)

/-- the catalog that the stores of the runtime read -/
def catalogOf (a : Attempt) : Catalog :=
  match E.backend with
  | .memory => a.stored
  | .sql => a.session

/-- a write through the stores of the runtime -/
def changed (f : Catalog → Catalog) (a : Attempt) : Attempt :=
  match E.backend with
  | .memory => { a with stored := f a.stored }
  | .sql => { a with session := f a.session }

def store (f : Catalog → Catalog) : Attempting Unit := modify (changed E f)

/-- an assignment to the fields of an object: in memory it is the stored one, else a copy -/
def assign (f : Catalog → Catalog) : Attempting Unit :=
  match E.backend with
  | .memory => store E f
  | .sql => pure ()

/-- a new unit of work -/
def enter : Attempting Unit := modify fun a => { a with session := a.stored }

/-- `if uow is not None: await uow.commit()` -/
def commit (point : Point) : Attempting Unit :=
  match E.backend with
  | .memory => pure ()
  | .sql => do
    calls E [point]
    modify fun a => { a with stored := a.session }

def withState (state : SyncState) (c : Catalog) : Catalog := { c with state := some state }

def getOrCreateState (point : Point) (key : String) (mode : SyncMode) : Attempting SyncState := do
  calls E [point]
  let a ← get
  match (catalogOf E a).state with
  | some state => return state
  | none => do
    let state : SyncState := ⟨key, mode, none, .neverSynced, none, 0, 0⟩
    store E (withState state)
    return state

def saveState (point : Point) (state : SyncState) : Attempting Unit := do
  assign E (withState state)
  calls E [point]
  store E (withState state)

/-- the parquet file is replaced -/
def wrote (file : Option ArrowTable) (a : Attempt) : Attempt := { a with files := Function.update a.files E.path file }

/-- `pq.write_table`, which removes a file it could not finish -/
def writeTable (table : ArrowTable) : Attempting Unit :=
  match E.raises .writeTable with
  | none => modify (wrote E (some table))
  | some e => do
    modify (wrote E none)
    throw e

/-- the dataset's own record after a sync -/
def described (rowCount : ℕ) (c : Catalog) : Catalog :=
  { c with dataset := { c.dataset with storageUri := some E.path, rowCount := some rowCount } }

def withColumns (columns : List String) (c : Catalog) : Catalog :=
  { c with dataset := { c.dataset with columns := columns } }

/-- the table is written -/
def writeFile (table : ArrowTable) : Attempting Unit := do
  calls E [.makeDir]
  writeTable E table

/-- what is written of the dataset after its file -/
def recordDataset (table : ArrowTable) (rowCount : ℕ) : Attempting Unit := do
  calls E [.stat]
  assign E (described E rowCount)
  calls E [.deleteColumns]
  store E (withColumns [])
  calls E [.addColumns]
  store E (withColumns table.columns)
  calls E [.policy, .revision, .lineage, .saveDataset]
  store E (described E rowCount)

/-- `_materialize_existing_dataset` -/
def materialize (got : Fetched) : Attempting Unit := do
  calls E [.readFile]
  let a ← get
  match got.table V (a.files E.path) with
  | none => throw (E.describe .arrow)
  | some table => do
    writeFile E table
    recordDataset E table (got.merged (a.files E.path)).length

def running (state : SyncState) (key : String) (mode : SyncMode) : SyncState :=
  { state with sourceKey := key, syncMode := mode, status := .running, errorMessage := none }

def succeeded (state : SyncState) (got : Fetched) (cursor : Option String) : SyncState :=
  { state with
    syncMode := got.mode
    lastCursor := cursor
    status := .succeeded
    errorMessage := none
    recordsSynced := got.rows.length
    pageCount := got.pageCount }

/-- what was read is written, and the state with it -/
def writeFetched (state : SyncState) (got : Fetched) : Attempting Unit := do
  materialize V E got
  let cursor ← lift E got.cursor
  saveState E .saveState (succeeded state got cursor)

/-- `ConnectorSyncRuntime.sync_dataset` -/
def syncRuntime (src : Source) (mode : SyncMode) : Attempting Unit := do
  calls E [.source]
  let state ← getOrCreateState E .getState (sourceKey hash src) mode
  let state := running state (sourceKey hash src) mode
  saveState E .saveRunning state
  calls E [.connect]
  let got ← lift E (fetch V E src state mode)
  writeFetched V E state got

/-- the `try` block -/
def syncBody (src : Source) (mode requested : SyncMode) : Attempting Unit := do
  enter
  calls E [.resolve]
  syncRuntime V hash E src mode
  let state ← getOrCreateState E .getStateAgain (sourceKey hash src) requested
  modify fun a => { a with active := some state }
  commit E .commit

def failed (state : SyncState) (e : String) : SyncState := { state with status := .failed, errorMessage := some e }

/-- the failure is recorded in a unit of work of its own, and raised again -/
def recordFailure (e : String) (state : SyncState) : Attempting Unit := do
  enter
  saveState E .saveFailed (failed state e)
  commit E .commitFailed
  throw e

/-- the `except` block -/
def handleFailure (e : String) : Attempting Unit := do
  let a ← get
  match a.active with
  | none => throw e
  | some state => recordFailure E e state

/-- `DatasetApplication.sync_dataset`; `requested` is the mode without `force_full_refresh` -/
def syncAttempt (src : Source) (mode requested : SyncMode) : Attempting Unit := do
  calls E [.require, .syncMode]
  tryCatch (syncBody V hash E src mode requested) (handleFailure E)

def World.begin (w : World) : Attempt := ⟨w, w.stored, none⟩

def syncDataset (src : Source) (mode requested : SyncMode) (w : World) : EStateM.Result String World Unit :=
  match syncAttempt V hash E src mode requested w.begin with
  | .ok u a => .ok u a.toWorld
  | .error e a => .error e a.toWorld

/-! ## Where an attempt ends -/

def stateBefore (key : String) (mode : SyncMode) (c : Catalog) : SyncState :=
  running (c.state.getD ⟨key, mode, none, .neverSynced, none, 0, 0⟩) key mode

/-- where a sync ends: it raises before the state is set to running, before the file is touched, in writing the file, or
after it has written a table; or it goes through, with a table and a cursor -/
inductive RunEnd where
  | early
  | reading
  | writing
  | recording (table : ArrowTable)
  | done (table : ArrowTable) (cursor : Option String)

/-- the end of a sync after the file was written -/
def recordEnd (table : ArrowTable) (cursor : Except SyncError (Option String)) : RunEnd :=
  match raised E [.stat, .deleteColumns, .addColumns, .policy, .revision, .lineage, .saveDataset], cursor with
  | none, .ok cursor =>
    match raised E [.saveState] with
    | none => .done table cursor
    | some _ => .recording table
  | _, _ => .recording table

/-- the end of a sync that has read from its source -/
def materializeEnd (got : Fetched) (file : Option ArrowTable) : RunEnd :=
  match raised E [.readFile], got.table V file with
  | none, some table =>
    match raised E [.makeDir] with
    | some _ => .reading
    | none =>
      match E.raises .writeTable with
      | some _ => .writing
      | none => recordEnd E table got.cursor
  | _, _ => .reading

def runEnd (src : Source) (mode : SyncMode) (c : Catalog) (file : Option ArrowTable) : RunEnd :=
  match raised E [.source, .getState] with
  | some _ => .early
  | none =>
    match raised E [.saveRunning, .connect], fetch V E src (stateBefore (sourceKey hash src) mode c) mode with
    | none, .ok got => materializeEnd V E got file
    | _, _ => .reading

def attemptEnd (src : Source) (mode : SyncMode) (w : World) : RunEnd :=
  match raised E [.require, .syncMode, .resolve] with
  | some _ => .early
  | none => runEnd V hash E src mode w.stored (w.files E.path)

/-! ## What a failure should leave -/

/-- what the dataset reads -/
structure Reading where
  table : Option ArrowTable
  columns : List String
  rowCount : Option ℕ

def World.reading (w : World) : Reading :=
  ⟨w.stored.dataset.storageUri.bind w.files, w.stored.dataset.columns, w.stored.dataset.rowCount⟩

def World.cursor (w : World) : Option String := w.stored.state.bind SyncState.lastCursor

/-- the failure is recorded, the cursor has not moved, and the dataset reads what it read -/
structure Recorded (w w' : World) (e : String) : Prop where
  state : ∃ state, w'.stored.state = some state ∧ state.status = .failed ∧ state.errorMessage = some e ∧
    state.lastCursor = w.cursor
  reading : w'.reading = w.reading

/-- the state had failed before, with the same text -/
def AlreadyFailed (w : World) (e : String) : Prop :=
  ∃ state, w.stored.state = some state ∧ state.status = .failed ∧ state.errorMessage = some e

/-- a file that the dataset reads, or that it does not read -/
def Kept (w : World) (file : Option ArrowTable) : Prop :=
  w.stored.dataset.storageUri = some E.path → w.files E.path = file

/-- where an attempt may raise an error: with the file as it was, and either after the sync went through, with a cursor
that has not moved, or with the same failure recorded before; a runtime in memory must not have begun -/
def Harmless (w : World) (e : String) : RunEnd → Prop
  | .early => AlreadyFailed w e
  | .reading => E.backend = .sql ∧ AlreadyFailed w e
  | .writing => E.backend = .sql ∧ AlreadyFailed w e ∧ Kept E w none
  | .recording table => E.backend = .sql ∧ AlreadyFailed w e ∧ Kept E w (some table)
  | .done table cursor =>
    E.backend = .sql ∧ Kept E w (some table) ∧
      match raised E [.getStateAgain, .saveFailed, .commitFailed] with
      | none => cursor = w.cursor
      | some _ => AlreadyFailed w e

end Attempts

/-! ## Steps, run -/

section Steps

variable {E : Env}

theorem calls_of_none {points : List Point} (h : raised E points = none) (a : Attempt) :
    calls E points a = .ok () a := by
  rw [calls, h]
  rfl

theorem calls_of_some {points : List Point} {e : String} (h : raised E points = some e) (a : Attempt) :
    calls E points a = .error e a := by
  rw [calls, h]
  rfl

theorem raised_append (points points' : List Point) :
    raised E (points ++ points') = (raised E points).or (raised E points') :=
  List.findSome?_append

variable (E) in
/-- nothing was done but writes of the attempt: the files and the variable are as they were, and in a unit of work the
durable catalog -/
structure Frame (a a' : Attempt) : Prop where
  files : a'.files = a.files
  active : a'.active = a.active
  stored : E.backend = .sql → a'.stored = a.stored

theorem Frame.refl (a : Attempt) : Frame E a a := ⟨rfl, rfl, fun _ => rfl⟩

theorem Frame.trans {a b c : Attempt} (h : Frame E a b) (h' : Frame E b c) : Frame E a c :=
  ⟨h'.files.trans h.files, h'.active.trans h.active, fun hs => (h'.stored hs).trans (h.stored hs)⟩

theorem frame_changed (f : Catalog → Catalog) (a : Attempt) : Frame E a (changed E f a) := by
  unfold changed
  cases hb : E.backend with
  | memory => exact ⟨rfl, rfl, fun hs => absurd (hb.symm.trans hs) (by decide)⟩
  | sql => exact ⟨rfl, rfl, fun _ => rfl⟩

theorem catalogOf_changed (f : Catalog → Catalog) (a : Attempt) : catalogOf E (changed E f a) = f (catalogOf E a) := by
  unfold catalogOf changed
  cases E.backend with
  | memory => rfl
  | sql => rfl

variable (E) in
/-- nothing was done but writes of the attempt that leave the sync state alone -/
structure Quiet (a a' : Attempt) : Prop where
  frame : Frame E a a'
  state : (catalogOf E a').state = (catalogOf E a).state

theorem Quiet.refl (a : Attempt) : Quiet E a a := ⟨.refl a, rfl⟩

theorem Quiet.trans (a b c : Attempt) (h : Quiet E a b) (h' : Quiet E b c) : Quiet E a c :=
  ⟨h.frame.trans h'.frame, h'.state.trans h.state⟩

variable (E) in
/-- a computation that raises what some calls raise, and leaves the sync state alone -/
def Steps (points : List Point) (x : Attempting Unit) : Prop := Goes (Quiet E) (raised E points) x

theorem steps_calls (points : List Point) : Steps E points (calls E points) := by
  unfold Steps calls
  cases raised E points with
  | none => exact .pure Quiet.refl
  | some e => exact .throw Quiet.refl e

theorem steps_store {f : Catalog → Catalog} (hf : ∀ c, (f c).state = c.state) : Steps E [] (store E f) := by
  refine .modify fun a => ⟨frame_changed f a, ?_⟩
  rw [catalogOf_changed, hf]

theorem steps_assign {f : Catalog → Catalog} (hf : ∀ c, (f c).state = c.state) : Steps E [] (assign E f) := by
  unfold assign
  cases E.backend with
  | memory => exact steps_store hf
  | sql => exact .pure Quiet.refl

theorem Steps.seq {points points' : List Point} {x y : Attempting Unit} (hx : Steps E points x)
    (hy : Steps E points' y) : Steps E (points ++ points') (x >>= fun _ => y) := by
  unfold Steps
  rw [raised_append]
  exact Goes.seq Quiet.trans hx hy

theorem recordDataset_steps (table : ArrowTable) (rowCount : ℕ) :
    Steps E [.stat, .deleteColumns, .addColumns, .policy, .revision, .lineage, .saveDataset]
      (recordDataset E table rowCount) := by
  have hcolumns : ∀ columns, Steps E [] (store E (withColumns columns)) := fun columns => steps_store fun _ => rfl
  have hassign : Steps E [] (assign E (described E rowCount)) := steps_assign fun _ => rfl
  have hdescribed : Steps E [] (store E (described E rowCount)) := steps_store fun _ => rfl
  exact (steps_calls [.stat]).seq (hassign.seq ((steps_calls [.deleteColumns]).seq ((hcolumns []).seq
    ((steps_calls [.addColumns]).seq ((hcolumns table.columns).seq
      ((steps_calls [.policy, .revision, .lineage, .saveDataset]).seq hdescribed))))))

variable (E) in
def Unfailed (a : Attempt) : Prop :=
  E.backend = .memory → ∃ state, (catalogOf E a).state = some state ∧ state.status ≠ .failed

theorem Unfailed.of_state {a : Attempt} {state : SyncState} (h : (catalogOf E a).state = some state)
    (hne : state.status ≠ .failed) : Unfailed E a := fun _ => ⟨state, h, hne⟩

theorem Unfailed.same {a a' : Attempt} (h : Unfailed E a) (hstate : (catalogOf E a').state = (catalogOf E a).state) :
    Unfailed E a' := by
  intro hm
  rw [hstate]
  exact h hm

theorem saveState_run (point : Point) (state : SyncState) (a : Attempt) : ∃ a', Frame E a a' ∧
    (E.backend = .memory → (catalogOf E a').state = some state) ∧
    match raised E [point] with
    | none => saveState E point state a = .ok () a' ∧ (catalogOf E a').state = some state
    | some e => saveState E point state a = .error e a' := by
  have hassign : ∃ a₁, Frame E a a₁ ∧ (E.backend = .memory → (catalogOf E a₁).state = some state) ∧
      assign E (withState state) a = .ok () a₁ := by
    unfold assign
    cases hb : E.backend with
    | memory =>
      refine ⟨_, frame_changed _ a, fun _ => ?_, rfl⟩
      rw [catalogOf_changed]
      rfl
    | sql => exact ⟨a, .refl a, fun hm => (by cases hm), rfl⟩
  obtain ⟨a₁, hframe, hmemory, hassign⟩ := hassign
  cases h : raised E [point] with
  | some e => exact ⟨a₁, hframe, hmemory, (bind_of_ok hassign).trans (bind_of_error (calls_of_some h a₁))⟩
  | none =>
    have hstate : (catalogOf E (changed E (withState state) a₁)).state = some state := by
      rw [catalogOf_changed]
      rfl
    refine ⟨changed E (withState state) a₁, hframe.trans (frame_changed _ _), fun _ => hstate, ?_, hstate⟩
    exact (bind_of_ok hassign).trans (bind_of_ok (calls_of_none h a₁))

/-- the state of the source is found or created -/
theorem getOrCreateState_run (point : Point) (key : String) (mode : SyncMode) (a : Attempt) :
    match raised E [point] with
    | none => ∃ a', Frame E a a' ∧
        (catalogOf E a').state = some ((catalogOf E a).state.getD ⟨key, mode, none, .neverSynced, none, 0, 0⟩) ∧
        getOrCreateState E point key mode a =
          .ok ((catalogOf E a).state.getD ⟨key, mode, none, .neverSynced, none, 0, 0⟩) a'
    | some e => getOrCreateState E point key mode a = .error e a := by
  cases h : raised E [point] with
  | some e => exact bind_of_error (calls_of_some h a)
  | none =>
    have hcalls : getOrCreateState E point key mode a = _ := bind_of_ok (calls_of_none h a)
    cases hstate : (catalogOf E a).state with
    | some state =>
      refine ⟨a, .refl a, hstate, hcalls.trans ?_⟩
      refine (bind_of_ok (x := MonadState.get) (s := a) rfl).trans ?_
      rw [hstate]
      rfl
    | none =>
      refine ⟨changed E (withState ⟨key, mode, none, .neverSynced, none, 0, 0⟩) a, frame_changed _ a, ?_, ?_⟩
      · rw [catalogOf_changed]
        rfl
      · refine hcalls.trans ((bind_of_ok (x := MonadState.get) (s := a) rfl).trans ?_)
        rw [hstate]
        rfl

variable (E) in
def Ends (a : Attempt) : RunEnd → EStateM.Result String Attempt Unit → Prop
  | .early, r => ∃ e, r = .error e a
  | .reading, r => ∃ e a', r = .error e a' ∧ Frame E a a' ∧ Unfailed E a'
  | .writing, r => ∃ e a', r = .error e a' ∧ Frame E (wrote E none a) a' ∧ Unfailed E a'
  | .recording table, r => ∃ e a', r = .error e a' ∧ Frame E (wrote E (some table) a) a' ∧ Unfailed E a'
  | .done table cursor, r => ∃ a' state, r = .ok () a' ∧ Frame E (wrote E (some table) a) a' ∧
      (catalogOf E a').state = some state ∧ state.status ≠ .failed ∧ state.lastCursor = cursor

theorem frame_wrote {a a' : Attempt} (h : Frame E a a') (file : Option ArrowTable) :
    Frame E (wrote E file a) (wrote E file a') :=
  ⟨by rw [wrote, wrote, h.files], h.active, h.stored⟩

/-- what ends so after writes of the attempt ends so -/
theorem Ends.frame {a a₁ : Attempt} {stop : RunEnd} {r : EStateM.Result String Attempt Unit} (h : Frame E a a₁)
    (hstop : stop ≠ .early) (hends : Ends E a₁ stop r) : Ends E a stop r := by
  cases stop with
  | early => exact absurd rfl hstop
  | reading =>
    obtain ⟨e, a', hr, hframe, hstate⟩ := hends
    exact ⟨e, a', hr, h.trans hframe, hstate⟩
  | writing =>
    obtain ⟨e, a', hr, hframe, hstate⟩ := hends
    exact ⟨e, a', hr, (frame_wrote h none).trans hframe, hstate⟩
  | recording table =>
    obtain ⟨e, a', hr, hframe, hstate⟩ := hends
    exact ⟨e, a', hr, (frame_wrote h (some table)).trans hframe, hstate⟩
  | done table cursor =>
    obtain ⟨a', state, hr, hframe, hstate⟩ := hends
    exact ⟨a', state, hr, (frame_wrote h (some table)).trans hframe, hstate⟩

theorem catalogOf_wrote (file : Option ArrowTable) (a : Attempt) : catalogOf E (wrote E file a) = catalogOf E a := by
  cases E.backend <;> rfl

end Steps

section Runs

variable [PyText] {V : Values} {hash : String → String} {E : Env}

variable {a : Attempt}

/-- a sync that has read from its source ends where its calls say -/
theorem writeFetched_ends (state : SyncState) (got : Fetched) (ha : Unfailed E a) :
    Ends E a (materializeEnd V E got (a.files E.path)) (writeFetched V E state got a) := by
  unfold materializeEnd
  cases hread : raised E [.readFile] with
  | some e => exact ⟨e, a, bind_of_error (bind_of_error (calls_of_some hread a)), .refl a, ha⟩
  | none =>
    have hstart : materialize V E got a =
        (match got.table V (a.files E.path) with
          | none => throw (E.describe .arrow)
          | some table => do
            writeFile E table
            recordDataset E table (got.merged (a.files E.path)).length : Attempting Unit) a :=
      (bind_of_ok (calls_of_none hread a)).trans (bind_of_ok (x := MonadState.get) (s := a) rfl)
    cases htable : got.table V (a.files E.path) with
    | none =>
      rw [htable] at hstart
      exact ⟨E.describe .arrow, a, bind_of_error hstart, .refl a, ha⟩
    | some table =>
      rw [htable] at hstart
      cases hdir : raised E [.makeDir] with
      | some e =>
        have hwrite := bind_of_error (f := fun _ => recordDataset E table (got.merged (a.files E.path)).length)
          (bind_of_error (f := fun _ => writeTable E table) (calls_of_some hdir a))
        exact ⟨e, a, bind_of_error (hstart.trans hwrite), .refl a, ha⟩
      | none =>
        cases hwrite : E.raises .writeTable with
        | some e =>
          have htable : writeTable E table a = .error e (wrote E none a) := by
            rw [writeTable, hwrite]
            rfl
          have hfile : writeFile E table a = .error e (wrote E none a) :=
            (bind_of_ok (calls_of_none hdir a)).trans htable
          refine ⟨e, wrote E none a, bind_of_error (hstart.trans (bind_of_error hfile)), .refl _, ?_⟩
          exact ha.same (by rw [catalogOf_wrote])
        | none =>
          have htable : writeTable E table a = .ok () (wrote E (some table) a) := by
            rw [writeTable, hwrite]
            rfl
          have hfile : writeFile E table a = .ok () (wrote E (some table) a) :=
            (bind_of_ok (calls_of_none hdir a)).trans htable
          have hwritten : Unfailed E (wrote E (some table) a) := ha.same (by rw [catalogOf_wrote])
          obtain ⟨a₁, ⟨hframe, hstate⟩, hrecord⟩ := recordDataset_steps (E := E) table
            (got.merged (a.files E.path)).length (wrote E (some table) a)
          have hunfailed : Unfailed E a₁ := hwritten.same hstate
          unfold recordEnd
          cases hraised : raised E [.stat, .deleteColumns, .addColumns, .policy, .revision, .lineage, .saveDataset] with
          | some e =>
            rw [hraised] at hrecord
            exact ⟨e, a₁, bind_of_error (hstart.trans ((bind_of_ok hfile).trans hrecord)), hframe, hunfailed⟩
          | none =>
            rw [hraised] at hrecord
            have hmaterialize := hstart.trans ((bind_of_ok hfile).trans hrecord)
            cases hcursor : got.cursor with
            | error x =>
              refine ⟨E.describe x, a₁, (bind_of_ok hmaterialize).trans (bind_of_error ?_), hframe, hunfailed⟩
              rw [hcursor]
              rfl
            | ok cursor =>
              have hlift : lift E got.cursor a₁ = .ok cursor a₁ := by
                rw [hcursor]
                rfl
              obtain ⟨a₂, hframe₂, hmemory, hsave⟩ := saveState_run (E := E) .saveState (succeeded state got cursor) a₁
              cases hlast : raised E [.saveState] with
              | some e =>
                rw [hlast] at hsave
                refine ⟨e, a₂, (bind_of_ok hmaterialize).trans ((bind_of_ok hlift).trans hsave), hframe.trans hframe₂,
                  ?_⟩
                exact fun hm => ⟨_, hmemory hm, fun h => (by cases h)⟩
              | none =>
                rw [hlast] at hsave
                obtain ⟨hsave, hsaved⟩ := hsave
                exact ⟨a₂, _, (bind_of_ok hmaterialize).trans ((bind_of_ok hlift).trans hsave), hframe.trans hframe₂,
                  hsaved, fun h => (by cases h), rfl⟩

theorem materializeEnd_ne_early (got : Fetched) (file : Option ArrowTable) : materializeEnd V E got file ≠ .early := by
  unfold materializeEnd recordEnd
  repeat' split
  all_goals exact fun h => (by cases h)

/-- **One sync** ends where its calls say. -/
theorem syncRuntime_ends (src : Source) (mode : SyncMode) (a : Attempt) :
    Ends E a (runEnd V hash E src mode (catalogOf E a) (a.files E.path)) (syncRuntime V hash E src mode a) := by
  have hpoints : raised E [.source, .getState] = (raised E [.source]).or (raised E [.getState]) :=
    raised_append [.source] [.getState]
  have hpoints' : raised E [.saveRunning, .connect] = (raised E [.saveRunning]).or (raised E [.connect]) :=
    raised_append [.saveRunning] [.connect]
  unfold runEnd
  rw [hpoints, hpoints']
  cases hsource : raised E [.source] with
  | some e => exact ⟨e, bind_of_error (calls_of_some hsource a)⟩
  | none =>
    have hstart : syncRuntime V hash E src mode a = _ := bind_of_ok (calls_of_none hsource a)
    have hget := getOrCreateState_run (E := E) .getState (sourceKey hash src) mode a
    cases hstate : raised E [.getState] with
    | some e =>
      rw [hstate] at hget
      exact ⟨e, hstart.trans (bind_of_error hget)⟩
    | none =>
      rw [hstate] at hget
      obtain ⟨a₁, hframe₁, _, hget⟩ := hget
      replace hstart := hstart.trans (bind_of_ok hget)
      obtain ⟨a₂, hframe₂, hmemory, hsave⟩ := saveState_run (E := E) .saveRunning
        (stateBefore (sourceKey hash src) mode (catalogOf E a)) a₁
      have hunfailed : Unfailed E a₂ := fun hm => ⟨_, hmemory hm, fun h => (by cases h)⟩
      cases hrunning : raised E [.saveRunning] with
      | some e =>
        rw [hrunning] at hsave
        exact ⟨e, a₂, hstart.trans (bind_of_error hsave), hframe₁.trans hframe₂, hunfailed⟩
      | none =>
        rw [hrunning] at hsave
        replace hstart := hstart.trans (bind_of_ok hsave.1)
        cases hconnect : raised E [.connect] with
        | some e =>
          exact ⟨e, a₂, hstart.trans (bind_of_error (calls_of_some hconnect a₂)), hframe₁.trans hframe₂, hunfailed⟩
        | none =>
          replace hstart := hstart.trans (bind_of_ok (calls_of_none hconnect a₂))
          cases hfetch : fetch V E src (stateBefore (sourceKey hash src) mode (catalogOf E a)) mode with
          | error x =>
            refine ⟨E.describe x, a₂, hstart.trans (bind_of_error ?_), hframe₁.trans hframe₂, hunfailed⟩
            change lift E (fetch V E src (stateBefore (sourceKey hash src) mode (catalogOf E a)) mode) a₂ = _
            rw [hfetch]
            rfl
          | ok got =>
            have hlift : lift E (fetch V E src (stateBefore (sourceKey hash src) mode (catalogOf E a)) mode) a₂ =
                .ok got a₂ := by
              rw [hfetch]
              rfl
            replace hstart := hstart.trans (bind_of_ok hlift)
            rw [hstart]
            have hfiles : a₂.files E.path = a.files E.path := by
              rw [hframe₂.files, hframe₁.files]
            have hends := writeFetched_ends (V := V) (stateBefore (sourceKey hash src) mode (catalogOf E a)) got
              hunfailed
            rw [hfiles] at hends
            exact hends.frame (hframe₁.trans hframe₂) (materializeEnd_ne_early got _)

/-! ## Failures -/

omit [PyText] in
theorem reading_update (w w' : World) (file : Option ArrowTable) (hdataset : w'.stored.dataset = w.stored.dataset)
    (hfiles : w'.files = Function.update w.files E.path file) : w'.reading = w.reading ↔ Kept E w file := by
  unfold World.reading Kept
  rw [hdataset, hfiles, Reading.mk.injEq]
  cases huri : w.stored.dataset.storageUri with
  | none => exact iff_of_true ⟨rfl, rfl, rfl⟩ fun h => (by cases h)
  | some uri =>
    rw [bind_some, bind_some, Option.some.injEq]
    by_cases h : uri = E.path
    · subst h
      rw [Function.update_self]
      exact ⟨fun hread _ => hread.1.symm, fun hread => ⟨(hread rfl).symm, rfl, rfl⟩⟩
    · rw [Function.update_of_ne h]
      exact iff_of_true ⟨rfl, rfl, rfl⟩ fun heq => absurd heq h

variable {e : String}

omit [PyText] in
/-- a catalog that is as it was has the failure recorded if it had -/
theorem recorded_state {w w' : World} (h : w'.stored = w.stored) :
    (∃ state, w'.stored.state = some state ∧ state.status = .failed ∧ state.errorMessage = some e ∧
      state.lastCursor = w.cursor) ↔ AlreadyFailed w e := by
  rw [h]
  constructor
  · rintro ⟨state, hstate, hfailed, herror, _⟩
    exact ⟨state, hstate, hfailed, herror⟩
  · rintro ⟨state, hstate, hfailed, herror⟩
    refine ⟨state, hstate, hfailed, herror, ?_⟩
    rw [World.cursor, hstate]
    rfl

omit [PyText] in
theorem recorded_same (w : World) (e : String) : Recorded w w e ↔ AlreadyFailed w e :=
  ⟨fun h => (recorded_state rfl).1 h.state, fun h => ⟨(recorded_state rfl).2 h, rfl⟩⟩

variable {w : World}

omit [PyText] in
/-- in memory a failure after the state was set to running is not recorded -/
theorem not_recorded (hunfailed : Unfailed E a) (hm : E.backend = .memory) : ¬Recorded w a.toWorld e := by
  intro h
  obtain ⟨state, hstate, hfailed, _⟩ := h.state
  obtain ⟨state', hstate', hne⟩ := hunfailed hm
  rw [catalogOf, hm] at hstate'
  have heq : state = state' := Option.some.inj (hstate.symm.trans hstate')
  exact hne (heq ▸ hfailed)

omit [PyText] in
/-- a failure that nothing recorded -/
theorem recorded_frame (hframe : Frame E w.begin a) (hunfailed : Unfailed E a) :
    Recorded w a.toWorld e ↔ E.backend = .sql ∧ AlreadyFailed w e := by
  cases hb : E.backend with
  | memory => exact iff_of_false (not_recorded hunfailed hb) fun h => (by cases h.1)
  | sql =>
    have hstored : a.stored = w.stored := hframe.stored hb
    have hfiles : a.files = w.files := hframe.files
    have hworld : a.toWorld = w := by
      exact congrArg₂ World.mk hstored hfiles
    rw [hworld, recorded_same]
    exact (and_iff_right rfl).symm

omit [PyText] in
/-- a failure after a write of the file that nothing recorded -/
theorem recorded_wrote {file : Option ArrowTable}
    (hframe : Frame E (wrote E file w.begin) a) (hunfailed : Unfailed E a) :
    Recorded w a.toWorld e ↔ E.backend = .sql ∧ AlreadyFailed w e ∧ Kept E w file := by
  cases hb : E.backend with
  | memory => exact iff_of_false (not_recorded hunfailed hb) fun h => (by cases h.1)
  | sql =>
    have hstored : a.stored = w.stored := hframe.stored hb
    have hread := reading_update (E := E) w a.toWorld file (by rw [hstored]) hframe.files
    rw [and_iff_right rfl]
    constructor
    · intro h
      exact ⟨(recorded_state hstored).1 h.state, hread.1 h.reading⟩
    · intro h
      exact ⟨(recorded_state hstored).2 h.1, hread.2 h.2⟩

omit [PyText] in
/-- recording a failure in a unit of work -/
theorem handleFailure_run {state : SyncState} (hb : E.backend = .sql)
    (hactive : a.active = some state) : ∃ a', a'.files = a.files ∧
      match raised E [.saveFailed, .commitFailed] with
      | some e' => handleFailure E e a = .error e' a' ∧ a'.stored = a.stored
      | none => handleFailure E e a = .error e a' ∧ a'.stored = withState (failed state e) a.stored := by
  have hpoints : raised E [.saveFailed, .commitFailed] = (raised E [.saveFailed]).or (raised E [.commitFailed]) :=
    raised_append [.saveFailed] [.commitFailed]
  have hstart : handleFailure E e a = recordFailure E e state a := by
    refine (bind_of_ok (x := MonadState.get) (s := a) rfl).trans ?_
    rw [hactive]
  replace hstart := hstart.trans (bind_of_ok (x := enter) (s := a) rfl)
  rw [hpoints]
  obtain ⟨a₁, hframe, _, hsave⟩ := saveState_run (E := E) .saveFailed (failed state e) { a with session := a.stored }
  cases hsaved : raised E [.saveFailed] with
  | some e' =>
    rw [hsaved] at hsave
    exact ⟨a₁, hframe.files, hstart.trans (bind_of_error hsave), hframe.stored hb⟩
  | none =>
    have hsave : saveState E .saveFailed (failed state e) { a with session := a.stored } =
        .ok () { a with session := withState (failed state e) a.stored } := by
      rw [saveState, assign, hb]
      refine (bind_of_ok (calls_of_none hsaved _)).trans ?_
      change EStateM.Result.ok () (changed E _ _) = _
      rw [changed, hb]
    replace hstart := hstart.trans (bind_of_ok hsave)
    rw [commit, hb] at hstart
    cases hcommit : raised E [.commitFailed] with
    | some e' =>
      exact ⟨{ a with session := withState (failed state e) a.stored }, rfl,
        hstart.trans (bind_of_error (bind_of_error (calls_of_some hcommit _))), rfl⟩
    | none =>
      have hdone := hstart.trans (bind_of_ok (bind_of_ok (calls_of_none hcommit _)))
      refine ⟨{ a with
        stored := withState (failed state e) a.stored
        session := withState (failed state e) a.stored }, rfl, hdone, rfl⟩

/-- the `try` block raises before the state is assigned, and then nothing records the failure, or in its commit -/
theorem syncBody_error {src : Source} {mode requested : SyncMode}
    (hbody : syncBody V hash E src mode requested w.begin = .error e a) (hresolve : raised E [.resolve] = none) :
    (a.active = none ∧ (Recorded w a.toWorld e ↔ Harmless E w e (runEnd V hash E src mode w.stored (w.files E.path)))) ∨
      ∃ table state, runEnd V hash E src mode w.stored (w.files E.path) = .done table state.lastCursor ∧
        E.backend = .sql ∧ raised E [.getStateAgain] = none ∧ a.active = some state ∧ a.stored = w.stored ∧
        a.files = Function.update w.files E.path (some table) := by
  have hstart : syncBody V hash E src mode requested w.begin = _ :=
    (bind_of_ok (x := enter) (s := w.begin) rfl).trans (bind_of_ok (calls_of_none hresolve w.begin))
  have hcatalog : catalogOf E w.begin = w.stored := by
    unfold catalogOf World.begin
    cases E.backend <;> rfl
  have hends := @syncRuntime_ends _ V hash E src mode w.begin
  rw [hcatalog] at hends
  change Ends E w.begin (runEnd V hash E src mode w.stored (w.files E.path)) _ at hends
  cases hstop : runEnd V hash E src mode w.stored (w.files E.path) with
  | early =>
    rw [hstop] at hends
    obtain ⟨e', hr⟩ := hends
    cases (hstart.trans (bind_of_error hr)).symm.trans hbody
    exact .inl ⟨rfl, recorded_same w _⟩
  | reading =>
    rw [hstop] at hends
    obtain ⟨e', a', hr, hframe, hunfailed⟩ := hends
    cases (hstart.trans (bind_of_error hr)).symm.trans hbody
    exact .inl ⟨hframe.active, recorded_frame hframe hunfailed⟩
  | writing =>
    rw [hstop] at hends
    obtain ⟨e', a', hr, hframe, hunfailed⟩ := hends
    cases (hstart.trans (bind_of_error hr)).symm.trans hbody
    exact .inl ⟨hframe.active, recorded_wrote hframe hunfailed⟩
  | recording table =>
    rw [hstop] at hends
    obtain ⟨e', a', hr, hframe, hunfailed⟩ := hends
    cases (hstart.trans (bind_of_error hr)).symm.trans hbody
    exact .inl ⟨hframe.active, recorded_wrote hframe hunfailed⟩
  | done table cursor =>
    rw [hstop] at hends
    obtain ⟨a', state, hr, hframe, hstate, hne, rfl⟩ := hends
    replace hstart := hstart.trans (bind_of_ok hr)
    have hget := getOrCreateState_run (E := E) .getStateAgain (sourceKey hash src) requested a'
    cases hagain : raised E [.getStateAgain] with
    | some e' =>
      rw [hagain] at hget
      cases (hstart.trans (bind_of_error hget)).symm.trans hbody
      refine .inl ⟨hframe.active, ?_⟩
      have hpoints : raised E [.getStateAgain, .saveFailed, .commitFailed] = some e :=
        (raised_append [.getStateAgain] [.saveFailed, .commitFailed]).trans (by rw [hagain]; rfl)
      rw [recorded_wrote hframe (.of_state hstate hne), Harmless, hpoints]
      exact and_congr_right fun _ => and_comm
    | none =>
      rw [hagain] at hget
      obtain ⟨a₂, hframe₂, _, hget⟩ := hget
      rw [hstate, getD_some] at hget
      have hcommit : commit E .commit { a₂ with active := some state } = .error e a :=
        (hstart.trans (bind_of_ok hget)).symm.trans hbody
      cases hb : E.backend with
      | memory =>
        rw [commit, hb] at hcommit
        cases hcommit
      | sql =>
        rw [commit, hb] at hcommit
        refine .inr ⟨table, state, rfl, rfl, rfl, ?_⟩
        have hframe₃ := hframe.trans hframe₂
        rcases bind_error hcommit with hcalls | ⟨_, a₃, _, hmodify⟩
        · cases hc : raised E [.commit] with
          | some e' =>
            rw [calls_of_some hc] at hcalls
            cases hcalls
            exact ⟨rfl, hframe₃.stored hb, hframe₃.files⟩
          | none =>
            rw [calls_of_none hc] at hcalls
            cases hcalls
        · cases hmodify

end Runs

/-! ## Orders -/

section Orders

open scoped Ascii

def orderRow (id : ℤ) : Row := Dict.empty.set "id" (.int id)

def ordersTable (ids : List ℤ) : ArrowTable where
  columns := ["id"]
  rows := ids.map orderRow
  keyed := by
    intro r hr
    obtain ⟨id, _, rfl⟩ := List.mem_map.1 hr
    rfl

def ordersPage (newest : ℤ) (checkpoint : String) : ApiConnector where
  discovered := [⟨"orders", some "id", true⟩]
  resolve _ := none
  extract _ _ _ := .ok ⟨[order newest], none, some checkpoint⟩

/-- a runtime over a SQL store in which one call raises -/
def raisingAt (point : Point) (e : String) (api : ApiConnector) : Env where
  backend := .sql
  api := api
  maxSyncRetry := 3
  sql := ⟨fun _ => .error .arrow, fun _ => none⟩
  path := "orders.parquet"
  raises p := if p = point then some e else none
  describe _ := "sync failed"

def ordersSynced : World where
  stored := ⟨some ⟨"resource:orders", .incremental, some "1", .succeeded, none, 1, 1⟩,
    ⟨some "orders.parquet", ["id"], some 1⟩⟩
  files p := if p = "orders.parquet" then some (ordersTable [1]) else none

end Orders

end Langbridge.Runtime.SyncFailures
