/-
The life of synced datasets (`application/datasets.py`, `ConnectorSyncRuntime`): datasets are created, updated and
deleted, their sources grow, and syncs write their files.

The cursor of a sync is kept under the connection and the source key, which leaves out the flatten list and the cursor
field; the file under the connection and the dataset's name. Neither is cleared by an update or a delete. A world records,
beside what the runtime stores, under which definition a file was last written and which dataset last moved a cursor.
-/
import Langbridge.Runtime.RowForms
import Langbridge.Runtime.SqlSync

namespace Langbridge.Runtime.Lifecycle

open Core List Function Option

/-! ## Datasets -/

/-- the sources that a sync supports -/
inductive Source where
  | resource (ds : ApiDataset)
  | sql (ds : SqlDataset)

structure DatasetRecord where
  connection : String
  sync : Option Source

/-- what the runtime stores: the datasets by name, the sync states by connection and source key, the files by connection
and dataset name -/
structure Workspace where
  datasets : Dict String DatasetRecord
  states : String × String → Option SyncState
  files : String × String → Option ArrowTable

section Datasets

variable [PyText] (hash : String → String)

/-- `_sync_source_key` -/
def sourceKey : Source → String
  | .resource ds => resourceSourceKey ds
  | .sql ⟨.table name, _⟩ => "table:" ++ PyText.strip name
  | .sql ⟨.query sql, _⟩ => "sql:" ++ hash (PyText.strip sql)

/-- `_assert_sync_source_is_available`, besides the dataset itself -/
def sourceAvailable (ws : Workspace) (name : Option String) (d : DatasetRecord) : Bool :=
  match d.sync with
  | none => true
  | some src => !ws.datasets.entries.any fun e =>
      some e.1 ≠ name && e.2.connection = d.connection && e.2.sync.any fun s => sourceKey hash s = sourceKey hash src

def createDataset (ws : Workspace) (name : String) (d : DatasetRecord) : Option Workspace :=
  if ws.datasets.has name || !sourceAvailable hash ws none d then none
  else some { ws with datasets := ws.datasets.set name d }

def updateDataset (ws : Workspace) (name : String) (d : DatasetRecord) : Option Workspace :=
  if !ws.datasets.has name || !sourceAvailable hash ws (some name) d then none
  else some { ws with datasets := ws.datasets.set name d }

def deleteDataset (ws : Workspace) (name : String) : Option Workspace :=
  if ws.datasets.has name then some { ws with datasets := ws.datasets.erase name } else none

def getOrCreateState (ws : Workspace) (connection key : String) (mode : SyncMode) : SyncState :=
  (ws.states (connection, key)).getD ⟨key, mode, none, .neverSynced, none, 0, 0⟩

/-! ## Syncs -/

/-- what a successful sync did: the rows it read, the key it merged them under, the mode it ran in, the cursor it read
from, and the file and the cursor it left -/
structure SyncRun where
  rows : List Row
  key : Option String
  mode : SyncMode
  since : Option String
  file : ArrowTable
  cursor : Option String

/-- the store after a sync of a dataset -/
def Workspace.store (ws : Workspace) (connection name key : String) (run : SyncRun) : Workspace :=
  { ws with
    states := Function.update ws.states (connection, key)
      (some ⟨key, run.mode, run.cursor, .succeeded, none, run.rows.length, 0⟩)
    files := Function.update ws.files (connection, name) (some run.file) }

def resourceRun (out : SyncOutcome) (state : SyncState) (mode : SyncMode) : SyncRun :=
  ⟨out.rows, materializationPrimaryKey out.resourcePath out.resource out.rows, out.state.syncMode,
    sinceOf mode out.resource state, out.file, out.state.lastCursor⟩

def sqlSince (ds : SqlDataset) (cursor : Option String) (mode : SyncMode) : Option String :=
  if mode = .incremental ∧ ds.cursorColumn ≠ "" then cursor else none

inductive Ran (V : Values) (state : SyncState) (file : Option ArrowTable) (mode : SyncMode) : Source → SyncRun → Prop where
  | resource (ds : ApiDataset) (conn : ApiConnector) (maxSyncRetry : ℕ) (out : SyncOutcome)
      (h : syncResource V conn ds state file mode maxSyncRetry = .ok out) :
      Ran V state file mode (.resource ds) (resourceRun out state mode)
  | sql (ds : SqlDataset) (conn : SqlConnector) (out : SqlOutcome)
      (h : syncSql V conn ds state.lastCursor file mode = .ok out) :
      Ran V state file mode (.sql ds)
        ⟨out.rows, resolveSqlPrimaryKey conn ds.source out.rows, mode, sqlSince ds state.lastCursor mode, out.file,
          out.cursor⟩

variable {V : Values} {state : SyncState} {file : Option ArrowTable} {mode : SyncMode} {src : Source} {run : SyncRun}

/-- a sync writes the merge of what it read -/
theorem Ran.materialized (h : Ran V state file mode src run) :
    materializeExisting V file run.rows run.key run.mode = some run.file := by
  cases h with
  | resource ds conn n out h =>
    obtain ⟨_, _, hfinish⟩ := syncResource_ok h
    obtain ⟨m, _, hfile, hrows, _⟩ := finishSync_ok hfinish
    simp only [resourceRun, hrows]
    exact hfile
  | sql ds conn out h =>
    rw [syncSql] at h
    cases hexec : conn.execute (syncQuery ds state.lastCursor mode) with
    | error e =>
      rw [hexec] at h
      cases h
    | ok result =>
      simp only [hexec] at h
      split at h
      · cases h
      · rename_i hfile
        split at h
        · cases h
        · cases h
          exact hfile

/-- a sync that is not incremental reads from no cursor and leaves the cursor as it is -/
theorem Ran.cursor (h : Ran V state file mode src run) (hmode : run.mode ≠ .incremental) :
    run.since = none ∧ run.cursor = state.lastCursor := by
  cases h with
  | resource ds conn n out h =>
    obtain ⟨_, _, hfinish⟩ := syncResource_ok h
    simp only [finishSync, bind, Except.bind] at hfinish
    split at hfinish
    · cases hfinish
    · split at hfinish
      · cases hfinish
      · have hout := Except.ok.inj hfinish
        have hsync : out.state.syncMode = effectiveMode mode out.resource := by rw [← hout]
        have hlast : out.state.lastCursor = if effectiveMode mode out.resource = .incremental ∧
            out.resource.supportsIncremental = true then out.extraction.checkpoint else state.lastCursor := by
          rw [← hout]
        have hne : ¬ effectiveMode mode out.resource = .incremental := by
          rw [← hsync]
          exact hmode
        refine ⟨if_neg fun hc => hne hc.1, ?_⟩
        simp only [resourceRun]
        rw [hlast, if_neg fun hc => hne hc.1]
  | sql ds conn out h =>
    have hne : mode ≠ .incremental := hmode
    refine ⟨if_neg fun hc => hne hc.1, ?_⟩
    rw [syncSql] at h
    cases hexec : conn.execute (syncQuery ds state.lastCursor mode) with
    | error e =>
      rw [hexec] at h
      cases h
    | ok result =>
      simp only [hexec, resolveNextSqlCursor, hne, ne_eq, not_false_eq_true, true_or, if_true] at h
      split at h
      · cases h
      · rw [← Except.ok.inj h]

/-- a sync reads from the cursor it finds -/
theorem Ran.since {c : String} (h : Ran V state file mode src run) (hc : run.since = some c) :
    state.lastCursor = some c := by
  cases h with
  | resource ds conn n out h =>
    have hs : sinceOf mode out.resource state = some c := hc
    rw [sinceOf] at hs
    split_ifs at hs
    exact hs
  | sql ds conn out h =>
    have hs : sqlSince ds state.lastCursor mode = some c := hc
    rw [sqlSince] at hs
    split_ifs at hs
    exact hs

end Datasets

/-! ## Merges that lose no row -/

section Merge

variable [PyText] (V : Values)

/-- the keys of a merge stand for one row each: two rows that are read with one key are one row, so are two rows of the
file, and a row of the file gives way only to the same row of the source -/
structure KeysApart (held : List Row) (key : String) (existing new : List Row) : Prop where
  read : ∀ n ∈ new, ∀ n' ∈ new, rowIdentity n key ≠ none → rowIdentity n key = rowIdentity n' key → n = n'
  stored : ∀ e ∈ existing, ∀ e' ∈ existing, rowIdentity e key ≠ none → rowIdentity e key = rowIdentity e' key → e = e'
  replaced : ∀ e ∈ existing, ∀ n ∈ new, rowIdentity e key ≠ none → rowIdentity e key = rowIdentity n key →
    ∀ r ∈ held, FormRow V r e → FormRow V r n

variable {V}

/-- what takes the place of a row in a merge has its key, and is the row that was read if one was -/
theorem merge_survivor (existing new : List Row) (key : Option String) (x : Row) (hx : x ∈ existing ++ new) :
    x ∈ mergeRows existing new key false ∨
      ∃ k y, key = some k ∧ k ≠ "" ∧ y ∈ mergeRows existing new key false ∧ rowIdentity x k ≠ none ∧
        rowIdentity y k = rowIdentity x k ∧ (y ∈ new ∨ (y ∈ existing ∧ x ∉ new)) := by
  by_cases hkey : key.getD "" = ""
  · left
    rwa [mergeRows, if_neg (by decide), if_pos hkey]
  · cases key with
    | none => exact absurd rfl hkey
    | some k =>
      have hk : k ≠ "" := hkey
      rw [mergeRows_key _ _ _ hk]
      cases hid : rowIdentity x k with
      | none =>
        left
        exact mem_append_right _ (mem_filter.2 ⟨hx, by rw [hid]; rfl⟩)
      | some t =>
        right
        set p : Row → Bool := fun r => (rowIdentity r k).isSome with hp
        have hxmem : x ∈ (existing ++ new).filter p := mem_filter.2 ⟨hx, by rw [hp]; simp [hid]⟩
        cases hf : ((existing ++ new).filter p).reverse.find? fun r => mergeKey k r = mergeKey k x with
        | none =>
          have hno := find?_eq_none.1 hf x (mem_reverse.2 hxmem)
          simp at hno
        | some y =>
          have hymem := mem_filter.1 (mem_reverse.1 (mem_of_find?_eq_some hf))
          have hykey : mergeKey k y = mergeKey k x := by simpa using find?_some hf
          obtain ⟨u, hu⟩ := isSome_iff_exists.1 hymem.2
          have hyx : rowIdentity y k = some t := by
            rw [mergeKey, mergeKey, hu, hid, getD_some, getD_some] at hykey
            rw [hu, hykey]
          refine ⟨k, y, rfl, hk, ?_, by rw [hid]; exact some_ne_none t, hyx.trans hid.symm, ?_⟩
          · refine mem_append_left _ ?_
            rw [mem_values_upsert, hykey]
            exact hf
          · -- the rows that were read come last
            rw [filter_append, reverse_append, find?_append] at hf
            cases hn : (new.filter p).reverse.find? fun r => mergeKey k r = mergeKey k x with
            | some n =>
              rw [hn, some_or] at hf
              cases hf
              exact .inl (mem_filter.1 (mem_reverse.1 (mem_of_find?_eq_some hn))).1
            | none =>
              rw [hn, none_or] at hf
              refine .inr ⟨(mem_filter.1 (mem_reverse.1 (mem_of_find?_eq_some hf))).1, fun hxn => ?_⟩
              have hxf : x ∈ new.filter p := mem_filter.2 ⟨hxn, by rw [hp]; simp [hid]⟩
              have hno := find?_eq_none.1 hn x (mem_reverse.2 hxf)
              simp at hno

/-- **Merging.** A merge whose keys stand for one row each keeps every row of the source. -/
theorem merge_keeps (held existing new : List Row) (key : Option String)
    (hkeys : ∀ k, key = some k → k ≠ "" → KeysApart V held k existing new) (r : Row) (hr : r ∈ held) (x : Row)
    (hx : x ∈ existing ++ new) (hform : FormRow V r x) : ∃ y ∈ mergeRows existing new key false, FormRow V r y := by
  rcases merge_survivor existing new key x hx with h | ⟨k, y, rfl, hk, hy, hid, hyx, hwhere⟩
  · exact ⟨x, h, hform⟩
  · refine ⟨y, hy, ?_⟩
    have happart := hkeys k rfl hk
    have hxy : rowIdentity x k = rowIdentity y k := hyx.symm
    rcases hwhere with hnew | ⟨hold, hxn⟩
    · rcases mem_append.1 hx with hx | hx
      · exact happart.replaced x hx y hnew hid hxy r hr hform
      · rw [← happart.read x hx y hnew hid hxy]
        exact hform
    · have hxe : x ∈ existing := (mem_append.1 hx).resolve_right hxn
      rw [← happart.stored x hxe y hold hid hxy]
      exact hform

end Merge

/-! ## Worlds -/

/-- the runtime's store and the sources; `ever` holds the rows a source has had, `writtenUnder` the definition under which
a file was last written, `movedBy` the dataset and the definition whose sync last set a cursor -/
structure World where
  ws : Workspace
  held : String → Source → List Row
  ever : String → Source → Row → Prop
  writtenUnder : String × String → Option Source
  movedBy : String × String → Option (String × Source)

section Runs

variable [PyText] (V : Values) (hash : String → String)
  -- a row of a source that lies before a cursor, so that a sync from there may leave it out
  (before : String → Source → String → Row → Prop)

def World.cursor (w : World) (connection : String) (src : Source) : Option String :=
  (w.ws.states (connection, sourceKey hash src)).bind SyncState.lastCursor

def World.file (w : World) (connection name : String) : Option ArrowTable := w.ws.files (connection, name)

def World.fileRows (w : World) (connection name : String) : List Row :=
  ((w.file connection name).map ArrowTable.rows).getD []

/-- the world after a sync of a dataset -/
def World.synced (w : World) (connection name : String) (src : Source) (run : SyncRun) : World :=
  { w with
    ws := w.ws.store connection name (sourceKey hash src) run
    writtenUnder := Function.update w.writtenUnder (connection, name) (some src)
    movedBy :=
      if run.mode = .incremental then Function.update w.movedBy (connection, sourceKey hash src) (some (name, src))
      else w.movedBy }

/-- the source answers a sync with rows it holds, and leaves out only rows before the cursor the sync reads from -/
structure Answers (held : List Row) (connection : String) (src : Source) (run : SyncRun) : Prop where
  rows : ∀ r ∈ run.rows, r ∈ held
  complete : ∀ r ∈ held, r ∈ run.rows ∨ ∃ c, run.since = some c ∧ before connection src c r
  columns : ∀ r ∈ held, r.keys ≠ []

/-- the file and the cursor that a sync uses are the dataset's own: a file that it merges into was written under the same
definition or is empty, and a cursor that it reads from was set by a sync of the dataset under this definition, which
also wrote the file -/
structure Own (w : World) (connection name : String) (src : Source) (run : SyncRun) : Prop where
  file : run.mode ≠ .fullRefresh → w.fileRows connection name = [] ∨ w.writtenUnder (connection, name) = some src
  cursor : run.since ≠ none → w.writtenUnder (connection, name) = some src ∧
    w.movedBy (connection, sourceKey hash src) = some (name, src)
  keys : run.mode ≠ .fullRefresh → ∀ k, run.key = some k → k ≠ "" →
    KeysApart V (w.held connection src) k (w.fileRows connection name) run.rows

/-- a source that only inserts and updates: a row it did not hold is not before a cursor that was already set -/
structure Grows (w : World) (held : String → Source → List Row) : Prop where
  rows : ∀ connection src r, r ∈ held connection src →
    r ∈ w.held connection src ∨ ∀ c, w.cursor hash connection src = some c → ¬ before connection src c r

/-- the operations on datasets -/
inductive Managed (ws : Workspace) : Workspace → Prop where
  | create (name : String) (d : DatasetRecord) (ws' : Workspace) (h : createDataset hash ws name d = some ws') :
      Managed ws ws'
  | update (name : String) (d : DatasetRecord) (ws' : Workspace) (h : updateDataset hash ws name d = some ws') :
      Managed ws ws'
  | delete (name : String) (ws' : Workspace) (h : deleteDataset ws name = some ws') : Managed ws ws'

structure Syncs (w : World) (name : String) (d : DatasetRecord) (src : Source) (mode : SyncMode) (run : SyncRun) :
    Prop where
  dataset : w.ws.datasets.get? name = some d
  source : d.sync = some src
  ran : Ran V (getOrCreateState w.ws d.connection (sourceKey hash src) mode) (w.file d.connection name) mode src run
  answers : Answers before (w.held d.connection src) d.connection src run
  own : Own V hash w d.connection name src run

/-- one operation -/
inductive Step : World → World → Prop where
  | manage (w : World) (ws' : Workspace) (h : Managed hash w.ws ws') : Step w { w with ws := ws' }
  | change (w : World) (held : String → Source → List Row) (h : Grows hash before w held) :
      Step w { w with held := held, ever := fun c s r => w.ever c s r ∨ r ∈ held c s }
  | sync (w : World) (name : String) (d : DatasetRecord) (src : Source) (mode : SyncMode) (run : SyncRun)
      (h : Syncs V hash before w name d src mode run) : Step w (w.synced hash d.connection name src run)

/-- nothing was created or synced yet, and the sources hold nothing -/
def start : World where
  ws := ⟨Dict.empty, fun _ => none, fun _ => none⟩
  held _ _ := []
  ever _ _ _ := False
  writtenUnder _ := none
  movedBy _ := none

/-- the worlds of the runs -/
inductive Reach : World → Prop where
  | start : Reach start
  | step {w w' : World} : Reach w → Step V hash before w w' → Reach w'

/-- the rows of a file come from a source -/
def FromSource (w : World) (connection : String) (src : Source) (rows : List Row) : Prop :=
  ∀ e ∈ rows, ∃ r, w.ever connection src r ∧ FormRow V r e

/-- the invariant: a file written under a definition holds rows of that definition, and every row that a cursor set by
its own dataset has passed -/
structure Inv (w : World) : Prop where
  ever : ∀ connection src r, r ∈ w.held connection src → w.ever connection src r
  rows : ∀ connection name src, w.writtenUnder (connection, name) = some src →
    FromSource V w connection src (w.fileRows connection name)
  columns : ∀ connection name src, w.writtenUnder (connection, name) = some src →
    ∀ e ∈ w.fileRows connection name, e.keys ≠ []
  passed : ∀ connection name src c, w.writtenUnder (connection, name) = some src →
    w.movedBy (connection, sourceKey hash src) = some (name, src) → w.cursor hash connection src = some c →
      ∀ r ∈ w.held connection src, before connection src c r →
        ∃ e ∈ w.fileRows connection name, FormRow V r e

variable {V hash before}

theorem Managed.same {ws ws' : Workspace} (h : Managed hash ws ws') : ws'.states = ws.states ∧ ws'.files = ws.files := by
  cases h with
  | create name d _ h =>
    rw [createDataset] at h
    split_ifs at h
    rw [← Option.some.inj h]
    exact ⟨rfl, rfl⟩
  | update name d _ h =>
    rw [updateDataset] at h
    split_ifs at h
    rw [← Option.some.inj h]
    exact ⟨rfl, rfl⟩
  | delete name _ h =>
    rw [deleteDataset] at h
    split_ifs at h
    rw [← Option.some.inj h]
    exact ⟨rfl, rfl⟩

theorem cursor_getOrCreateState (w : World) (connection : String) (src : Source) (mode : SyncMode) :
    (getOrCreateState w.ws connection (sourceKey hash src) mode).lastCursor = w.cursor hash connection src := by
  rw [getOrCreateState, World.cursor]
  cases w.ws.states (connection, sourceKey hash src) <;> rfl

/-- **One sync.** A sync whose file and cursor are the dataset's own writes rows of its source only, and every row that
the source holds. -/
theorem sync_holds (hV : ArrayKeeps V) {w : World} (hinv : Inv V hash before w) {name : String} {d : DatasetRecord}
    {src : Source} {mode : SyncMode} {run : SyncRun} (h : Syncs V hash before w name d src mode run) :
    FromSource V w d.connection src run.file.rows ∧
      (∀ r ∈ w.held d.connection src, ∃ e ∈ run.file.rows, FormRow V r e) ∧ ∀ e ∈ run.file.rows, e.keys ≠ [] := by
  have hmat := h.ran.materialized
  set merged := mergeRows (w.fileRows d.connection name) run.rows run.key (run.mode = .fullRefresh) with hmerged
  have hforms := rowsToTable_forms hV merged _ _ hmat
  -- every merged row is one of the source
  have hfrom : FromSource V w d.connection src merged := by
    intro e he
    have hread : ∀ e ∈ run.rows, ∃ r, w.ever d.connection src r ∧ FormRow V r e := fun e he =>
      ⟨e, hinv.ever _ _ _ (h.answers.rows e he), .refl e⟩
    by_cases hfull : run.mode = .fullRefresh
    · rw [hmerged, decide_eq_true hfull, mergeRows, if_pos rfl] at he
      exact hread e he
    · rcases mem_append.1 (mem_mergeRows _ _ _ _ e he) with he | he
      · rcases h.own.file hfull with hnil | hunder
        · rw [hnil] at he
          cases he
        · exact hinv.rows _ _ _ hunder e he
      · exact hread e he
  -- every row of the source is merged
  have hall : ∀ r ∈ w.held d.connection src, ∃ x ∈ merged, FormRow V r x := by
    intro r hr
    by_cases hfull : run.mode = .fullRefresh
    · have hne : run.mode ≠ .incremental := by
        rw [hfull]
        decide
      rcases h.answers.complete r hr with hread | ⟨c, hc, _⟩
      · refine ⟨r, ?_, .refl r⟩
        rwa [hmerged, decide_eq_true hfull, mergeRows, if_pos rfl]
      · rw [(h.ran.cursor hne).1] at hc
        cases hc
    · have hkeep := merge_keeps (w.held d.connection src) (w.fileRows d.connection name) run.rows run.key
        (h.own.keys hfull) r hr
      rw [hmerged, decide_eq_false hfull]
      rcases h.answers.complete r hr with hread | ⟨c, hc, hbefore⟩
      · exact hkeep r (mem_append_right _ hread) (.refl r)
      · obtain ⟨hunder, hmoved⟩ := h.own.cursor (by rw [hc]; exact some_ne_none c)
        have hcursor : w.cursor hash d.connection src = some c := by
          rw [← cursor_getOrCreateState w d.connection src mode]
          exact h.ran.since hc
        obtain ⟨e, he, hform⟩ := hinv.passed _ _ _ c hunder hmoved hcursor r hr hbefore
        exact hkeep e (mem_append_left _ he) hform
  have hcolumn : ∀ x ∈ merged, x.keys ≠ [] := by
    intro x hx
    by_cases hfull : run.mode = .fullRefresh
    · rw [hmerged, decide_eq_true hfull, mergeRows, if_pos rfl] at hx
      exact h.answers.columns x (h.answers.rows x hx)
    · rcases mem_append.1 (mem_mergeRows _ _ _ _ x hx) with hx | hx
      · rcases h.own.file hfull with hnil | hunder
        · rw [hnil] at hx
          cases hx
        · exact hinv.columns _ _ _ hunder x hx
      · exact h.answers.columns x (h.answers.rows x hx)
  rcases hforms with ⟨hnocolumn, hnorows⟩ | ⟨hforms, hkeys⟩
  · -- without a column nothing was merged
    have hnil : ∀ x, x ∉ merged := by
      intro x hx
      obtain ⟨c, hc⟩ := exists_mem_of_ne_nil _ (hcolumn x hx)
      have hmem := (mem_sortedColumns merged c).2 ⟨x, hx, hc⟩
      rw [hnocolumn] at hmem
      cases hmem
    refine ⟨fun e he => ?_, fun r hr => ?_, fun e he => ?_⟩
    · rw [hnorows] at he
      cases he
    · obtain ⟨x, hx, _⟩ := hall r hr
      exact absurd hx (hnil x)
    · rw [hnorows] at he
      cases he
  · refine ⟨fun e he => ?_, fun r hr => ?_, hkeys⟩
    · obtain ⟨x, hx, hxe⟩ := forall₂_exists_left hforms e he
      obtain ⟨r, hr, hform⟩ := hfrom x hx
      exact ⟨r, hr, hform.trans hxe⟩
    · obtain ⟨x, hx, hform⟩ := hall r hr
      obtain ⟨e, he, hxe⟩ := forall₂_exists_right hforms x hx
      exact ⟨e, he, hform.trans hxe⟩

theorem manage_inv {w : World} (hinv : Inv V hash before w) (ws' : Workspace) (h : Managed hash w.ws ws') :
    Inv V hash before { w with ws := ws' } := by
  obtain ⟨hstates, hfiles⟩ := h.same
  have hcursor : ∀ connection src, World.cursor hash { w with ws := ws' } connection src =
      w.cursor hash connection src := by
    intro connection src
    rw [World.cursor, hstates, World.cursor]
  have hrows : ∀ connection name, World.fileRows { w with ws := ws' } connection name =
      w.fileRows connection name := by
    intro connection name
    rw [World.fileRows, World.file, hfiles]
    rfl
  refine ⟨hinv.ever, ?_, ?_, ?_⟩
  · intro connection name src hunder
    rw [hrows]
    exact hinv.rows connection name src hunder
  · intro connection name src hunder
    rw [hrows]
    exact hinv.columns connection name src hunder
  · intro connection name src c hunder hmoved hc
    rw [hcursor] at hc
    rw [hrows]
    exact hinv.passed connection name src c hunder hmoved hc

theorem change_inv {w : World} (hinv : Inv V hash before w) (held : String → Source → List Row)
    (h : Grows hash before w held) :
    Inv V hash before { w with held := held, ever := fun c s r => w.ever c s r ∨ r ∈ held c s } := by
  refine ⟨fun connection src r hr => .inr hr, ?_, hinv.columns, ?_⟩
  · intro connection name src hunder e he
    obtain ⟨r, hr, hform⟩ := hinv.rows connection name src hunder e he
    exact ⟨r, .inl hr, hform⟩
  · intro connection name src c hunder hmoved hc r hr hbefore
    rcases h.rows connection src r hr with hold | hnew
    · exact hinv.passed connection name src c hunder hmoved hc r hold hbefore
    · exact absurd hbefore (hnew c hc)

theorem sync_inv (hV : ArrayKeeps V) {w : World} (hinv : Inv V hash before w) {name : String} {d : DatasetRecord}
    {src : Source} {mode : SyncMode} {run : SyncRun} (h : Syncs V hash before w name d src mode run) :
    Inv V hash before (w.synced hash d.connection name src run) := by
  obtain ⟨hfrom, hall, hcols⟩ := sync_holds hV hinv h
  have hrows : ∀ connection name', (connection, name') ≠ (d.connection, name) →
      (w.synced hash d.connection name src run).fileRows connection name' = w.fileRows connection name' := by
    intro connection name' hne
    simp only [World.fileRows, World.file, World.synced, Workspace.store, update_of_ne hne]
  have hself : (w.synced hash d.connection name src run).fileRows d.connection name = run.file.rows := by
    simp only [World.fileRows, World.file, World.synced, Workspace.store, update_self, map_some,
      getD_some]
  refine ⟨hinv.ever, ?_, ?_, ?_⟩
  · intro connection name' src' hunder
    by_cases hne : (connection, name') = (d.connection, name)
    · cases hne
      simp only [World.synced, update_self, Option.some.injEq] at hunder
      subst hunder
      rw [hself]
      exact hfrom
    · rw [hrows _ _ hne]
      simp only [World.synced, update_of_ne hne] at hunder
      exact hinv.rows connection name' src' hunder
  · intro connection name' src' hunder
    by_cases hne : (connection, name') = (d.connection, name)
    · cases hne
      rw [hself]
      exact hcols
    · rw [hrows _ _ hne]
      simp only [World.synced, update_of_ne hne] at hunder
      exact hinv.columns connection name' src' hunder
  · intro connection name' src' c hunder hmoved hc r hr hbefore
    by_cases hne : (connection, name') = (d.connection, name)
    · -- the file was just written, with every row of the source
      cases hne
      simp only [World.synced, update_self, Option.some.injEq] at hunder
      subst hunder
      rw [hself]
      exact hall r hr
    · rw [hrows _ _ hne]
      simp only [World.synced, update_of_ne hne] at hunder
      -- a cursor that another dataset moved is not the file's own any more
      by_cases hkey : (connection, sourceKey hash src') = (d.connection, sourceKey hash src)
      · have hmode : run.mode ≠ .incremental := by
          intro hmode
          simp only [World.synced, hmode, if_true, hkey, update_self, Option.some.injEq] at hmoved
          exact hne (Prod.ext (Prod.mk.inj hkey).1 (Prod.mk.inj hmoved).1.symm)
        simp only [World.synced, hmode, if_false] at hmoved
        have hsame : (w.synced hash d.connection name src run).cursor hash connection src' =
            w.cursor hash connection src' := by
          have hstate : (getOrCreateState w.ws d.connection (sourceKey hash src) mode).lastCursor =
              w.cursor hash d.connection src := cursor_getOrCreateState w d.connection src mode
          simp only [World.cursor, World.synced, Workspace.store, hkey, update_self, bind_some]
          rw [(h.ran.cursor hmode).2, hstate, World.cursor]
        rw [hsame] at hc
        exact hinv.passed connection name' src' c hunder hmoved hc r hr hbefore
      · have hmoved' : w.movedBy (connection, sourceKey hash src') = some (name', src') := by
          simp only [World.synced] at hmoved
          split_ifs at hmoved
          · rwa [update_of_ne hkey] at hmoved
          · exact hmoved
        have hsame : (w.synced hash d.connection name src run).cursor hash connection src' =
            w.cursor hash connection src' := by
          simp only [World.cursor, World.synced, Workspace.store, update_of_ne hkey]
        rw [hsame] at hc
        exact hinv.passed connection name' src' c hunder hmoved' hc r hr hbefore

/-- **Runs.** The invariant holds in every world that a run reaches. -/
theorem reach_inv (hV : ArrayKeeps V) {w : World} (h : Reach V hash before w) : Inv V hash before w := by
  induction h with
  | start =>
    exact ⟨fun _ _ _ hr => (nomatch hr), fun _ _ _ hunder => (nomatch hunder), fun _ _ _ hunder => (nomatch hunder),
      fun _ _ _ _ hunder => (nomatch hunder)⟩
  | step _ hstep ih =>
    cases hstep with
    | manage ws' h => exact manage_inv ih ws' h
    | change held h => exact change_inv ih held h
    | sync name d src mode run h => exact sync_inv hV ih h

end Runs

/-! ## A dataset that is created again -/

section Recreated

open scoped Ascii

def shopApi (ids : List ℤ) : ApiConnector where
  discovered := [⟨"orders", some "id", true⟩]
  resolve _ := none
  extract _ since _ := .ok
    { records := (ids.filter fun i => (since.bind plainValues.int).all fun n => (n : ℤ) ≤ i).map order
      nextCursor := none
      checkpointCursor := ids.getLast?.map toString }

def shopOrders : DatasetRecord := ⟨"shop", some (.resource ordersOf)⟩

def emptyWorkspace : Workspace := ⟨Dict.empty, fun _ => none, fun _ => none⟩

def orderState (ws : Workspace) : SyncState := getOrCreateState ws "shop" "resource:orders" .incremental

def orderRow (id : ℤ) : Row := Dict.empty.set "id" (.int id)

theorem first_missed {rows : List Row} (hids : rows.map (fun r => cellOf r "id") = [.int 2, .int 3]) :
    ∀ e ∈ rows, ¬ FormRow plainValues (orderRow 1) e := by
  intro e he hform
  have hmem : cellOf e "id" ∈ rows.map fun r => cellOf r "id" := mem_map_of_mem he
  have hcell := hform "id"
  rw [hids] at hmem
  rcases mem_cons.1 hmem with h | h
  · rw [h] at hcell
    cases hcell.of_int
  · rw [mem_singleton.1 h] at hcell
    cases hcell.of_int

def orderBefore (_ : String) (_ : Source) (c : String) (r : Row) : Prop :=
  ∃ i n, cellOf r "id" = .int i ∧ plainValues.int c = some n ∧ i < n

end Recreated

end Langbridge.Runtime.Lifecycle
