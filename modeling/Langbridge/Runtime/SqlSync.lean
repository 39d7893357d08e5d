/-
Syncing a SQL table or query (`ConnectorSyncRuntime.sync_dataset`): the rows at or above the cursor are read again,
merged into the file under the primary key, and the cursor moves to the newest value read.

The primary key is the first column that the connector flags, or `id`; rows without one are appended. Over runs in which
rows are inserted and updated with growing cursor values, the invariant says that the file holds, under the keys of the
source, every row below the cursor as it is.
-/
import Langbridge.Runtime.ApiSync

namespace Langbridge.Runtime

open Core List Dict PyText Option

/-! ## The sync of a SQL source -/

/-- the SQL shapes of `DatasetSource` -/
inductive SqlSource where
  | table (name : String)
  | query (sql : String)

/-- `QueryResult` -/
structure QueryResult where
  columns : List String
  rows : List (List Json)

/-- a SQL connector; `fetchColumns` gives the columns of a table with their primary-key flags, or raises (`none`) -/
structure SqlConnector where
  execute : String → Except SyncError QueryResult
  fetchColumns : String → Option (List (String × Bool))

/-- what a sync reads of the dataset -/
structure SqlDataset where
  source : SqlSource
  cursorField : Option String

section Sync

variable [PyText]

/-- `str(dataset.sync.cursor_field or "").strip()` -/
def SqlDataset.cursorColumn (ds : SqlDataset) : String := strip (ds.cursorField.getD "")

def SqlSource.text : SqlSource → String
  | .table name => "SELECT * FROM " ++ strip name
  | .query sql => strip sql

/-- `_sql_literal` of a text -/
def sqlLiteral (value : String) : String :=
  "'" ++ String.ofList (value.toList.flatMap fun c => if c = '\'' then ['\'', '\''] else [c]) ++ "'"

def syncQuery (ds : SqlDataset) (cursor : Option String) (mode : SyncMode) : String :=
  match cursor with
  | some c =>
    if mode = .incremental ∧ ds.cursorColumn ≠ "" then
      "SELECT * FROM (" ++ ds.source.text ++ ") AS langbridge_sync_source WHERE " ++ ds.cursorColumn ++ " >= " ++
        sqlLiteral c
    else ds.source.text
  | none => ds.source.text

/-- one row of a result, a later column of a name winning -/
def rowOf (columns : List String) (raw : List Json) : Row :=
  Dict.ofList (columns.zipIdx.map fun e => (e.1, (raw[e.2]?).getD .null))

/-- the first column with the flag, `id` where the rows have it -/
def resolveSqlPrimaryKey (conn : SqlConnector) (source : SqlSource) (rows : List Row) : Option String :=
  match source with
  | .table name =>
    match conn.fetchColumns (strip name) with
    | none => none
    | some columns =>
      match columns.find? Prod.snd with
      | some c => some c.1
      | none => if hasColumn rows "id" then some "id" else none
  | .query _ => if hasColumn rows "id" then some "id" else none

/-- one row of `_resolve_next_sql_cursor` -/
def nextCursorStep (V : Values) (field : String) (current : Option String) (row : Row) : Option (Option String) :=
  match cellOf row field with
  | .null => some current
  | v => if strip v.text = "" then some current else pickNewerCursor V current (some v.text)

def resolveNextSqlCursor (V : Values) (rows : List Row) (field : String) (current : Option String) (mode : SyncMode) :
    Option (Option String) :=
  if mode ≠ .incremental ∨ field = "" then some current else rows.foldlM (nextCursorStep V field) current

/-- what a successful sync leaves behind -/
structure SqlOutcome where
  rows : List Row
  file : ArrowTable
  cursor : Option String

/-- `sync_dataset` of a table or a query -/
def syncSql (V : Values) (conn : SqlConnector) (ds : SqlDataset) (cursor : Option String) (file : Option ArrowTable)
    (mode : SyncMode) : Except SyncError SqlOutcome :=
  match conn.execute (syncQuery ds cursor mode) with
  | .error e => .error e
  | .ok result =>
    let rows := result.rows.map (rowOf result.columns)
    match materializeExisting V file rows (resolveSqlPrimaryKey conn ds.source rows) mode with
    | none => .error .arrow
    | some table =>
      match resolveNextSqlCursor V rows ds.cursorColumn cursor mode with
      | none => .error .badCursor
      | some cursor' => .ok ⟨rows, table, cursor'⟩

end Sync

/-! ## Runs -/

section Order

variable [PyText]

/-- how the database orders the cursor column; `atLeast` compares a value with the literal of a cursor, which is at most
what the cursor's own value is at most -/
structure CursorOrder where
  cursorOf : List Json → Json
  le : Json → Json → Prop
  atLeast : Json → String → Bool
  reads : ∀ v w, le w v → atLeast v w.text = true

end Order

/-- the source and what earlier syncs left; `history` holds every version a row has had -/
structure SqlState where
  rows : List (List Json)
  history : List (List Json)
  file : Option ArrowTable
  cursor : Option String

def SqlState.fileRows (s : SqlState) : List Row := (s.file.map ArrowTable.rows).getD []

section Runs

variable [PyText] (V : Values) (db : CursorOrder) (columns : List String) (ds : SqlDataset)
  (flags : String → Option (List (String × Bool)))

/-- the columns of the file -/
def tableColumns : List String := sortedColumns [rowOf columns []]

omit [PyText] in
theorem tableColumns_nodup : (tableColumns columns).Nodup := sortedColumns_nodup _

def inColumns (r : Row) : Row := flatRow (tableColumns columns) (tableColumns_nodup columns) r

/-- a row of the source as the file holds it -/
def stored (raw : List Json) : Row := inColumns columns (rowOf columns raw)

def resolvedKey : Option String :=
  (resolveSqlPrimaryKey ⟨fun _ => .error .arrow, flags⟩ ds.source [rowOf columns []]).filter (· ≠ "")

def keyOf (r : Row) : Option String := (resolvedKey columns ds flags).bind (rowIdentity r)

/-- a sync reads the row again -/
def selected (cursor : Option String) (raw : List Json) : Bool :=
  match cursor with
  | none => true
  | some t => ds.cursorColumn = "" || db.atLeast (db.cursorOf raw) t

/-- a connector that answers the query of the next sync from the rows of the source, in any order -/
structure Serves (s : SqlState) (conn : SqlConnector) : Prop where
  flags : conn.fetchColumns = flags
  answers : ∃ l, conn.execute (syncQuery ds s.cursor .incremental) = .ok ⟨columns, l⟩ ∧
    l.Perm (s.rows.filter (selected db ds s.cursor))

/-- the resolved key is a key of the source -/
structure Keyed (rows : List (List Json)) : Prop where
  isSome : ∀ r ∈ rows, (keyOf columns ds flags (rowOf columns r)).isSome = true
  nodup : (rows.map fun r => keyOf columns ds flags (rowOf columns r)).Nodup

/-- nothing was synced before, and rows that have a key have it for themselves -/
structure FirstLoad (s : SqlState) : Prop where
  file : s.file = none
  nodup : (s.rows.filterMap fun r => keyOf columns ds flags (rowOf columns r)).Nodup

/-- what a sync needs: a key, or nothing to merge into; columns of one category; cursors that are their own texts -/
structure SyncOk (s : SqlState) : Prop where
  key : Keyed columns ds flags s.rows ∨ FirstLoad columns ds flags s
  kinds : ∀ c ∈ tableColumns columns, OneKind (s.history.map fun r => cellOf (rowOf columns r) c)
  canonical : ∀ r ∈ s.history, CanonicalDigits V (db.cursorOf r).text

/-- a row that is written: its cursor value is not below any earlier one -/
structure Grows (s : SqlState) (raw : List Json) : Prop where
  notNull : db.cursorOf raw ≠ .null
  atLeast : ∀ r ∈ s.history, db.le (db.cursorOf r) (db.cursorOf raw)

inductive Step : SqlState → SqlState → Prop where
  | insert (s : SqlState) (raw : List Json) (hgrows : Grows db s raw) :
      Step s { s with rows := raw :: s.rows, history := raw :: s.history }
  | update (s : SqlState) (before after : List (List Json)) (old raw : List Json)
      (hrows : s.rows = before ++ old :: after) (hgrows : Grows db s raw)
      (hkey : keyOf columns ds flags (rowOf columns raw) = keyOf columns ds flags (rowOf columns old)) :
      Step s { s with rows := before ++ raw :: after, history := raw :: s.history }
  | sync (s : SqlState) (conn : SqlConnector) (out : SqlOutcome) (hok : SyncOk V db columns ds flags s)
      (hserves : Serves db columns ds flags s conn)
      (hout : syncSql V conn ds s.cursor s.file .incremental = .ok out) :
      Step s { s with file := some out.file, cursor := out.cursor }

/-- the states of the runs from an empty source that was never synced -/
inductive Reach : SqlState → Prop where
  | init : Reach ⟨[], [], none, none⟩
  | step {s s' : SqlState} : Reach s → Step V db columns ds flags s s' → Reach s'

structure Holds (s : SqlState) : Prop where
  nodup : (s.fileRows.map (keyOf columns ds flags)).Nodup
  keys : ∀ e ∈ s.fileRows, ∃ r ∈ s.rows, keyOf columns ds flags e = keyOf columns ds flags (rowOf columns r)
  holds : ∀ r ∈ s.rows, selected db ds s.cursor r = true ∨ stored columns r ∈ s.fileRows

/-- the invariant: the cursor is the text of a value that was given, the file holds versions of rows, and under a key
every row that the next sync does not read -/
structure Inv (s : SqlState) : Prop where
  history : ∀ r ∈ s.rows, r ∈ s.history
  cursor : ∀ t, s.cursor = some t → ∃ r ∈ s.history, t = (db.cursorOf r).text
  first : s.file = none → s.cursor = none
  versions : ∀ e ∈ s.fileRows, ∃ r ∈ s.history, e = stored columns r
  holds : Keyed columns ds flags s.rows → Holds db columns ds flags s

variable {V db columns ds flags}

/-! ## Rows and their keys -/

omit [PyText] in
theorem mem_keys_rowOf (raw : List Json) (c : String) : c ∈ (rowOf columns raw).keys ↔ c ∈ columns := by
  rw [rowOf, mem_keys_ofList, List.map_map]
  have h : (Prod.fst ∘ fun e : String × ℕ => (e.1, (raw[e.2]?).getD Json.null)) = Prod.fst := rfl
  rw [h, zipIdx_map_fst]

omit [PyText] in
theorem mem_tableColumns (c : String) : c ∈ tableColumns columns ↔ c ∈ columns := by
  rw [tableColumns, mem_sortedColumns]
  constructor
  · rintro ⟨r, hr, hc⟩
    obtain rfl := mem_singleton.1 hr
    rwa [mem_keys_rowOf] at hc
  · intro hc
    exact ⟨_, mem_singleton_self _, (mem_keys_rowOf _ _).2 hc⟩

theorem cellOf_inColumns (r : Row) (hr : ∀ c ∈ r.keys, c ∈ columns) (c : String) :
    cellOf (inColumns columns r) c = flat (cellOf r c) := by
  by_cases hc : c ∈ tableColumns columns
  · exact cellOf_tabulate _ (tableColumns_nodup columns) _ c hc
  · have hnone : r.get? c = none := by
      by_contra hne
      obtain ⟨v, hv⟩ := ne_none_iff_exists'.1 hne
      exact hc ((mem_tableColumns c).2 (hr c ((mem_keys_iff _ _).2 ⟨v, hv⟩)))
    have hget : (inColumns columns r).get? c = none := by
      rw [inColumns, flatRow, get?_tabulate, if_neg hc]
    rw [cellOf, hget, cellOf, hnone]
    rfl

theorem keyOf_inColumns (r : Row) (hr : ∀ c ∈ r.keys, c ∈ columns) :
    keyOf columns ds flags (inColumns columns r) = keyOf columns ds flags r := by
  have h : rowIdentity (inColumns columns r) = rowIdentity r :=
    funext fun key => rowIdentity_flat r _ key (cellOf_inColumns r hr)
  rw [keyOf, h, keyOf]

theorem keyOf_stored (raw : List Json) :
    keyOf columns ds flags (stored columns raw) = keyOf columns ds flags (rowOf columns raw) :=
  keyOf_inColumns _ fun c hc => (mem_keys_rowOf raw c).1 hc

/-- stored rows are in the columns of the file -/
theorem inColumns_stored (raw : List Json) : inColumns columns (stored columns raw) = stored columns raw := by
  refine tabulate_congr (tableColumns_nodup columns) _ _ fun c _ => ?_
  rw [stored, cellOf_inColumns _ (fun c hc => (mem_keys_rowOf raw c).1 hc) c, flat_flat]

theorem keys_stored (raw : List Json) : (stored columns raw).keys = tableColumns columns :=
  keys_tabulate _ (tableColumns_nodup columns) _

/-! ## Writing rows -/

variable (columns) in
/-- a version of a row, from the source or from the file -/
def Version (history : List (List Json)) (m : Row) : Prop :=
  ∃ r ∈ history, m = rowOf columns r ∨ m = stored columns r

theorem cellOf_version {history : List (List Json)} {m : Row} (h : Version columns history m) (c : String) :
    ∃ r ∈ history, cellOf m c = cellOf (rowOf columns r) c ∨ cellOf m c = flat (cellOf (rowOf columns r) c) := by
  obtain ⟨r, hr, rfl | rfl⟩ := h
  · exact ⟨r, hr, .inl rfl⟩
  · exact ⟨r, hr, .inr (cellOf_inColumns _ (fun c hc => (mem_keys_rowOf r c).1 hc) c)⟩

theorem sortedColumns_versions {history : List (List Json)} {rows : List Row} (hne : rows ≠ [])
    (h : ∀ m ∈ rows, Version columns history m) : sortedColumns rows = tableColumns columns := by
  have hkeys : ∀ m ∈ rows, ∀ c, c ∈ m.keys ↔ c ∈ columns := by
    intro m hm c
    obtain ⟨r, _, rfl | rfl⟩ := h m hm
    · exact mem_keys_rowOf r c
    · rw [keys_stored, mem_tableColumns]
  refine sortedColumns_congr _ _ fun c => ?_
  obtain ⟨first, hfirst⟩ := exists_mem_of_ne_nil rows hne
  constructor
  · rintro ⟨m, hm, hc⟩
    exact ⟨_, mem_singleton_self _, (mem_keys_rowOf [] c).2 ((hkeys m hm c).1 hc)⟩
  · rintro ⟨m, hm, hc⟩
    obtain rfl := mem_singleton.1 hm
    exact ⟨first, hfirst, (hkeys first hfirst c).2 ((mem_keys_rowOf [] c).1 hc)⟩

/-- versions of rows whose columns have one category each are written as the file holds them -/
theorem rowsToTable_versions (hV : KeepsColumns V) {history : List (List Json)} {rows : List Row}
    (h : ∀ m ∈ rows, Version columns history m)
    (hkinds : ∀ c ∈ tableColumns columns, OneKind (history.map fun r => cellOf (rowOf columns r) c))
    (schema : Option (List String)) :
    ∃ table, rowsToTable V rows schema = some table ∧
      table.columns = (if rows = [] then schema.getD [] else tableColumns columns) ∧
      table.rows = if tableColumns columns = [] then [] else rows.map (inColumns columns) := by
  by_cases hne : rows = []
  · refine ⟨⟨schema.getD [], [], by simp⟩, if_pos hne, (if_pos hne).symm, ?_⟩
    rw [hne, map_nil, ite_self]
  · have hcols := sortedColumns_versions hne h
    have hkind : ∀ c ∈ sortedColumns rows, OneKind (rows.map fun r => cellOf r c) := by
      intro c hc
      rw [hcols] at hc
      refine (hkinds c hc).versions fun v hv => ?_
      obtain ⟨m, hm, rfl⟩ := mem_map.1 hv
      obtain ⟨r, hr, hcell⟩ := cellOf_version (h m hm) c
      exact ⟨_, mem_map.2 ⟨r, hr, rfl⟩, hcell⟩
    obtain ⟨table, htable, hc, hr⟩ := rowsToTable_flat V hV rows schema hne hkind
    refine ⟨table, htable, by rw [hc, hcols, if_neg hne], ?_⟩
    rw [hr]
    refine ite_congr (by rw [hcols]) (fun _ => rfl) fun _ => ?_
    refine map_congr_left fun r _ => ?_
    simp only [inColumns, hcols]

/-! ## Merging what was read -/

omit [PyText] in
theorem hasColumn_rowOf (rows : List (List Json)) (hne : rows ≠ []) (c : String) :
    hasColumn (rows.map (rowOf columns)) c = hasColumn [rowOf columns []] c := by
  have hiff : ∀ l : List (List Json), l ≠ [] → (hasColumn (l.map (rowOf columns)) c = true ↔ c ∈ columns) := by
    intro l hl
    obtain ⟨first, hfirst⟩ := exists_mem_of_ne_nil l hl
    rw [hasColumn, List.any_eq_true]
    constructor
    · rintro ⟨m, hm, hc⟩
      obtain ⟨r, _, rfl⟩ := mem_map.1 hm
      exact (mem_keys_rowOf r c).1 ((has_iff _ _).1 hc)
    · intro hc
      exact ⟨_, mem_map.2 ⟨first, hfirst, rfl⟩, (has_iff _ _).2 ((mem_keys_rowOf first c).2 hc)⟩
  rw [Bool.eq_iff_iff, hiff rows hne, ← hiff [[]] (cons_ne_nil _ _)]
  rfl

theorem resolve_rowOf (conn : SqlConnector) (hflags : conn.fetchColumns = flags) (rows : List (List Json))
    (hne : rows ≠ []) :
    (resolveSqlPrimaryKey conn ds.source (rows.map (rowOf columns))).filter (· ≠ "") = resolvedKey columns ds flags := by
  rw [resolvedKey]
  cases hs : ds.source with
  | query sql => simp only [resolveSqlPrimaryKey, hasColumn_rowOf rows hne]
  | table name => simp only [resolveSqlPrimaryKey, hflags, hasColumn_rowOf rows hne]

/-- a key that a sync of no rows resolves is flagged, hence the key of the source -/
theorem resolve_nil (conn : SqlConnector) (hflags : conn.fetchColumns = flags) (k : String) (hk : k ≠ "")
    (h : resolveSqlPrimaryKey conn ds.source [] = some k) : resolvedKey columns ds flags = some k := by
  have hno : hasColumn [] "id" = false := rfl
  have hres : resolveSqlPrimaryKey ⟨fun _ => .error .arrow, flags⟩ ds.source [rowOf columns []] = some k := by
    cases hs : ds.source with
    | query sql =>
      rw [hs] at h
      simp [resolveSqlPrimaryKey, hno] at h
    | table name =>
      rw [hs] at h
      simp only [resolveSqlPrimaryKey, hflags] at h ⊢
      cases hc : flags (strip name) with
      | none => simp [hc] at h
      | some cols =>
        cases hf : cols.find? Prod.snd with
        | none => simp [hc, hf, hno] at h
        | some c => simpa [hc, hf] using h
  rw [resolvedKey, hres, filter_some, decide_eq_true hk, if_pos rfl]

theorem mergeRows_filter (existing new : List Row) (key : Option String) (full : Bool) :
    mergeRows existing new key full = mergeRows existing new (key.filter (· ≠ "")) full := by
  cases key with
  | none => rfl
  | some k =>
    by_cases hk : k = ""
    · subst hk
      rfl
    · rw [filter_some, decide_eq_true hk, if_pos rfl]

/-- under a key of the source every row has one -/
theorem Keyed.key {rows : List (List Json)} (h : Keyed columns ds flags rows) (hne : rows ≠ []) :
    ∃ k, resolvedKey columns ds flags = some k ∧ k ≠ "" := by
  obtain ⟨r, hr⟩ := exists_mem_of_ne_nil rows hne
  have hsome := h.isSome r hr
  cases hk : resolvedKey columns ds flags with
  | none =>
    rw [keyOf, hk] at hsome
    cases hsome
  | some k =>
    refine ⟨k, rfl, ?_⟩
    rintro rfl
    have hmem := (filter_eq_some_iff.1 hk).2
    simp at hmem

/-- distinct keys that are there are distinct texts -/
theorem nodup_getD {rows : List Row} {k : String} (hk : resolvedKey columns ds flags = some k)
    (hsome : ∀ r ∈ rows, (keyOf columns ds flags r).isSome = true)
    (hnd : (rows.map (keyOf columns ds flags)).Nodup) : (rows.map (mergeKey k)).Nodup := by
  have hmap : (rows.map (mergeKey k)).map some = rows.map (keyOf columns ds flags) := by
    rw [List.map_map]
    refine map_congr_left fun r hr => ?_
    obtain ⟨x, hx⟩ := isSome_iff_exists.1 (hsome r hr)
    have hid : rowIdentity r k = some x := by
      rw [← hx, keyOf, hk]
      rfl
    simp only [Function.comp_apply, mergeKey, hid, hx, getD_some]
  rw [← hmap] at hnd
  exact hnd.of_map

section Merge

variable {s : SqlState}

theorem Holds.isSome (h : Holds db columns ds flags s) (hkeyed : Keyed columns ds flags s.rows) (e : Row)
    (he : e ∈ s.fileRows) : (keyOf columns ds flags e).isSome = true := by
  obtain ⟨r, hr, hkey⟩ := h.keys e he
  rw [hkey]
  exact hkeyed.isSome r hr

theorem Inv.keys_subset (hinv : Inv db columns ds flags s) (e : Row) (he : e ∈ s.fileRows) :
    ∀ c ∈ e.keys, c ∈ columns := by
  obtain ⟨r, _, rfl⟩ := hinv.versions e he
  intro c hc
  rwa [keys_stored, mem_tableColumns] at hc

/-- under a key, an upsert of rows that contain those read again gives the source -/
theorem upsert_source (hinv : Inv db columns ds flags s) (hkeyed : Keyed columns ds flags s.rows) {k : String}
    (hk : resolvedKey columns ds flags = some k) (l : List (List Json)) (hsub : ∀ r ∈ l, r ∈ s.rows)
    (hl : ∀ r ∈ s.rows, selected db ds s.cursor r = true → r ∈ l) :
    ((upsert (mergeKey k) (s.fileRows ++ l.map (rowOf columns))).values.map (inColumns columns)).Perm
      (s.rows.map (stored columns)) := by
  have hholds := hinv.holds hkeyed
  have hmerge : ∀ r, keyOf columns ds flags r = rowIdentity r k := by
    intro r
    rw [keyOf, hk]
    rfl
  have hsource : s.rows.map (stored columns) = (s.rows.map (rowOf columns)).map (inColumns columns) := by
    rw [List.map_map]
    rfl
  rw [hsource]
  refine upsert_perm s.fileRows (l.map (rowOf columns)) (s.rows.map (rowOf columns)) (inColumns columns) ?_ ?_ ?_ ?_ ?_
    ?_ ?_
  · intro r hr
    have hcols : ∀ c ∈ r.keys, c ∈ columns := by
      rcases mem_append.1 hr with hr | hr
      · exact hinv.keys_subset r hr
      · obtain ⟨raw, _, rfl⟩ := mem_map.1 hr
        exact fun c hc => (mem_keys_rowOf raw c).1 hc
    have h : keyOf columns ds flags (inColumns columns r) = keyOf columns ds flags r := keyOf_inColumns r hcols
    rw [hmerge, hmerge] at h
    rw [mergeKey, h, mergeKey]
  · refine nodup_getD hk ?_ ?_
    · intro r hr
      obtain ⟨raw, hraw, rfl⟩ := mem_map.1 hr
      exact hkeyed.isSome raw hraw
    · rw [List.map_map]
      exact hkeyed.nodup
  · intro r hr
    obtain ⟨raw, hraw, rfl⟩ := mem_map.1 hr
    exact mem_map.2 ⟨raw, hsub raw hraw, rfl⟩
  · exact nodup_getD hk (hholds.isSome hkeyed) hholds.nodup
  · intro e he
    obtain ⟨r, hr, hkey⟩ := hholds.keys e he
    refine ⟨_, mem_map.2 ⟨r, hr, rfl⟩, ?_⟩
    rw [hmerge, hmerge] at hkey
    rw [mergeKey, hkey, mergeKey]
  · intro e he
    obtain ⟨r, _, rfl⟩ := hinv.versions e he
    exact inColumns_stored r
  · intro r hr
    obtain ⟨raw, hraw, rfl⟩ := mem_map.1 hr
    rcases hholds.holds raw hraw with h | h
    · exact .inl (mem_map.2 ⟨raw, hl raw hraw h, rfl⟩)
    · exact .inr h

/-- **Merging.** What a sync that may run merges into the file is the source, in versions of its rows. -/
theorem merge_perm (hinv : Inv db columns ds flags s) (hok : SyncOk V db columns ds flags s) (conn : SqlConnector)
    (hflags : conn.fetchColumns = flags) (l : List (List Json))
    (hl : l.Perm (s.rows.filter (selected db ds s.cursor))) :
    ((mergeRows s.fileRows (l.map (rowOf columns)) (resolveSqlPrimaryKey conn ds.source (l.map (rowOf columns)))
      false).map (inColumns columns)).Perm (s.rows.map (stored columns)) := by
  have hsub : ∀ r ∈ l, r ∈ s.rows := fun r hr => (mem_filter.1 (hl.mem_iff.1 hr)).1
  have hmem : ∀ r ∈ s.rows, selected db ds s.cursor r = true → r ∈ l := fun r hr hs =>
    hl.mem_iff.2 (mem_filter.2 ⟨hr, hs⟩)
  rcases hok.key with hkeyed | hfirst
  · have hholds := hinv.holds hkeyed
    by_cases hne : s.rows = []
    · -- nothing in the source, hence nothing in the file
      have hfile : s.fileRows = [] := by
        rw [eq_nil_iff_forall_not_mem]
        intro e he
        obtain ⟨r, hr, _⟩ := hholds.keys e he
        rw [hne] at hr
        cases hr
      have hnil : l = [] := by
        rw [eq_nil_iff_forall_not_mem]
        intro r hr
        have h := hsub r hr
        rw [hne] at h
        cases h
      have hmerge : mergeRows s.fileRows (l.map (rowOf columns))
          (resolveSqlPrimaryKey conn ds.source (l.map (rowOf columns))) false = [] := by
        rw [eq_nil_iff_forall_not_mem]
        intro r hr
        have h := mem_mergeRows _ _ _ _ r hr
        rw [hfile, hnil] at h
        cases h
      rw [hmerge, hne]
      exact List.Perm.refl _
    · obtain ⟨k, hk, hk'⟩ := hkeyed.key hne
      have hup := upsert_source hinv hkeyed hk l hsub hmem
      have hids : ∀ r ∈ s.fileRows ++ l.map (rowOf columns), (rowIdentity r k).isSome = true := by
        intro r hr
        have hsome : (keyOf columns ds flags r).isSome = true := by
          rcases mem_append.1 hr with hr | hr
          · exact hholds.isSome hkeyed r hr
          · obtain ⟨raw, hraw, rfl⟩ := mem_map.1 hr
            exact hkeyed.isSome raw (hsub raw hraw)
        rwa [keyOf, hk] at hsome
      by_cases hnil : l = []
      · -- nothing was read: the file stays, under the key or without one
        subst hnil
        rw [map_nil, append_nil] at hup hids
        have hstay : s.fileRows.Perm (mergeRows s.fileRows (List.map (rowOf columns) [])
            (resolveSqlPrimaryKey conn ds.source (List.map (rowOf columns) [])) false) := by
          have hnd := nodup_getD hk (hholds.isSome hkeyed) hholds.nodup
          rw [map_nil]
          cases hres : resolveSqlPrimaryKey conn ds.source [] with
          | none => simp [mergeRows]
          | some k' =>
            by_cases hempty : k' = ""
            · simp [mergeRows, hempty]
            · have hkk : resolvedKey columns ds flags = some k' := resolve_nil conn hflags k' hempty hres
              rw [hk] at hkk
              cases hkk
              rw [mergeRows_of_identities _ _ _ hk' (by rwa [append_nil]), append_nil]
              exact (upsert_perm_of_nodup _ hnd).symm
        have hnd := nodup_getD hk (hholds.isSome hkeyed) hholds.nodup
        exact (hstay.symm.map _).trans (((upsert_perm_of_nodup _ hnd).symm.map _).trans hup)
      · rw [mergeRows_filter, resolve_rowOf conn hflags l hnil, hk, mergeRows_of_identities _ _ _ hk' hids]
        exact hup
  · have hall : s.rows.filter (selected db ds s.cursor) = s.rows := by
      rw [hinv.first hfirst.file]
      exact filter_eq_self.2 fun _ _ => rfl
    rw [hall] at hl
    have hfile : s.fileRows = [] := by
      rw [SqlState.fileRows, hfirst.file]
      rfl
    rw [hfile]
    have hperm := mergeRows_nil_perm (l.map (rowOf columns))
      (resolveSqlPrimaryKey conn ds.source (l.map (rowOf columns))) fun key hkey hne => by
        by_cases hnil : l = []
        · subst hnil
          exact nodup_nil
        · have hres : (resolveSqlPrimaryKey conn ds.source (l.map (rowOf columns))).filter (· ≠ "") =
              resolvedKey columns ds flags := resolve_rowOf conn hflags l hnil
          rw [hkey, filter_some, decide_eq_true hne, if_pos rfl] at hres
          have hmap : (l.map (rowOf columns)).filterMap (fun r => rowIdentity r key) =
              l.filterMap fun r => keyOf columns ds flags (rowOf columns r) := by
            rw [filterMap_map]
            refine filterMap_congr fun r _ => ?_
            rw [keyOf, ← hres]
            rfl
          rw [hmap]
          exact (hl.filterMap _).nodup_iff.2 hfirst.nodup
    refine (hperm.map _).trans ?_
    rw [List.map_map]
    exact hl.map _

/-! ## The cursor -/

theorem nextCursor_mem (hcell : ∀ raw, cellOf (rowOf columns raw) ds.cursorColumn = .null ∨
      cellOf (rowOf columns raw) ds.cursorColumn = db.cursorOf raw)
    (hcanonical : ∀ r ∈ s.history, CanonicalDigits V (db.cursorOf r).text) (l : List (List Json))
    (hl : ∀ r ∈ l, r ∈ s.history) (current next : Option String)
    (hcurrent : ∀ t, current = some t → ∃ r ∈ s.history, t = (db.cursorOf r).text)
    (h : (l.map (rowOf columns)).foldlM (nextCursorStep V ds.cursorColumn) current = some next) (t : String)
    (ht : next = some t) : ∃ r ∈ s.history, t = (db.cursorOf r).text := by
  induction l generalizing current with
  | nil =>
    cases h
    exact hcurrent t ht
  | cons raw l ih =>
    obtain ⟨current', hstep, h⟩ := bind_eq_some_iff.1 h
    refine ih (fun r hr => hl r (mem_cons_of_mem raw hr)) current' (fun t' ht' => ?_) h
    have hraw : raw ∈ s.history := hl raw mem_cons_self
    -- the row gives no cursor, or its own
    have hnew : current' = current ∨ current' = some (db.cursorOf raw).text := by
      rw [nextCursorStep] at hstep
      rcases hcell raw with hnull | hvalue
      · rw [hnull] at hstep
        exact .inl (Option.some.inj hstep).symm
      · rw [hvalue] at hstep
        split at hstep
        · exact .inl (Option.some.inj hstep).symm
        · split_ifs at hstep
          · exact .inl (Option.some.inj hstep).symm
          · refine pickNewerCursor_mem V _ _ _ (fun t ht => ?_) (fun t ht => ?_) hstep
            · obtain ⟨r, hr, rfl⟩ := hcurrent t ht
              exact hcanonical r hr
            · cases ht
              exact hcanonical raw hraw
    rcases hnew with h' | h'
    · exact hcurrent t' (by rw [← h', ht'])
    · rw [h'] at ht'
      exact ⟨raw, hraw, (Option.some.inj ht').symm⟩

/-! ## One sync -/

/-- what a sync that may run writes -/
theorem sync_writes (hV : KeepsColumns V)
    (hcell : ∀ raw, cellOf (rowOf columns raw) ds.cursorColumn = .null ∨
      cellOf (rowOf columns raw) ds.cursorColumn = db.cursorOf raw)
    (hinv : Inv db columns ds flags s) (hok : SyncOk V db columns ds flags s) (conn : SqlConnector)
    (hserves : Serves db columns ds flags s conn) (out : SqlOutcome)
    (hout : syncSql V conn ds s.cursor s.file .incremental = .ok out) :
    (out.file.columns = if s.rows = [] then (s.file.map ArrowTable.columns).getD [] else tableColumns columns) ∧
      (out.file.rows.Perm (if tableColumns columns = [] then [] else s.rows.map (stored columns))) ∧
        ∀ t, out.cursor = some t → ∃ r ∈ s.history, t = (db.cursorOf r).text := by
  obtain ⟨l, hexec, hl⟩ := hserves.answers
  have hperm := merge_perm hinv hok conn hserves.flags l hl
  set merged := mergeRows s.fileRows (l.map (rowOf columns))
    (resolveSqlPrimaryKey conn ds.source (l.map (rowOf columns))) false with hmerged
  have hlrows : ∀ r ∈ l, r ∈ s.history := fun r hr => hinv.history r (mem_filter.1 (hl.mem_iff.1 hr)).1
  have hversions : ∀ m ∈ merged, Version columns s.history m := by
    intro m hm
    rcases mem_append.1 (mem_mergeRows _ _ _ _ m hm) with hm | hm
    · obtain ⟨r, hr, rfl⟩ := hinv.versions m hm
      exact ⟨r, hr, .inr rfl⟩
    · obtain ⟨r, hr, rfl⟩ := mem_map.1 hm
      exact ⟨r, hlrows r hr, .inl rfl⟩
  obtain ⟨table, htable, hcols, hrows⟩ := rowsToTable_versions hV hversions hok.kinds (s.file.map ArrowTable.columns)
  have hmat : materializeExisting V s.file (l.map (rowOf columns))
      (resolveSqlPrimaryKey conn ds.source (l.map (rowOf columns))) .incremental = some table := htable
  rw [syncSql, hexec] at hout
  simp only [hmat] at hout
  cases hcur : resolveNextSqlCursor V (l.map (rowOf columns)) ds.cursorColumn s.cursor .incremental with
  | none =>
    rw [hcur] at hout
    cases hout
  | some cursor' =>
    rw [hcur] at hout
    cases hout
    have hnil : merged = [] ↔ s.rows = [] := by
      have hlen := hperm.length_eq
      rw [length_map, length_map] at hlen
      rw [← length_eq_zero_iff, hlen, length_eq_zero_iff]
    refine ⟨?_, ?_, ?_⟩
    · rw [hcols]
      exact if_congr hnil rfl rfl
    · rw [hrows]
      split_ifs
      · exact List.Perm.refl _
      · exact hperm
    · intro t ht
      rw [resolveNextSqlCursor] at hcur
      split_ifs at hcur with hfield
      · cases hcur
        exact hinv.cursor t ht
      · exact nextCursor_mem hcell hok.canonical l hlrows _ _ hinv.cursor hcur t ht

end Merge

/-! ## Runs keep the invariant -/

/-- a row that is written now is read by the next sync -/
theorem selected_of_grows {s : SqlState} (hinv : Inv db columns ds flags s) (raw : List Json) (hgrows : Grows db s raw) :
    selected db ds s.cursor raw = true := by
  cases hc : s.cursor with
  | none => rfl
  | some t =>
    obtain ⟨r, hr, rfl⟩ := hinv.cursor t hc
    have hread : db.atLeast (db.cursorOf raw) (db.cursorOf r).text = true := db.reads _ _ (hgrows.atLeast r hr)
    rw [selected, hread, Bool.or_true]

/-- a row that grows comes into the source, whose other rows were there, and no key is lost -/
theorem grow_inv {s : SqlState} (hinv : Inv db columns ds flags s) {raw : List Json} (hgrows : Grows db s raw)
    {rows : List (List Json)} (hother : ∀ r ∈ rows, r = raw ∨ r ∈ s.rows)
    (hkeys : ∀ r ∈ s.rows, ∃ r' ∈ rows,
      keyOf columns ds flags (rowOf columns r') = keyOf columns ds flags (rowOf columns r))
    (hnodup : (rows.map fun r => keyOf columns ds flags (rowOf columns r)).Nodup →
      (s.rows.map fun r => keyOf columns ds flags (rowOf columns r)).Nodup) :
    Inv db columns ds flags { s with rows, history := raw :: s.history } := by
  refine ⟨?_, ?_, hinv.first, ?_, ?_⟩
  · intro r hr
    rcases hother r hr with rfl | hr
    · exact mem_cons_self
    · exact mem_cons_of_mem raw (hinv.history r hr)
  · intro t ht
    obtain ⟨r, hr, h⟩ := hinv.cursor t ht
    exact ⟨r, mem_cons_of_mem raw hr, h⟩
  · intro e he
    obtain ⟨r, hr, h⟩ := hinv.versions e he
    exact ⟨r, mem_cons_of_mem raw hr, h⟩
  · intro hkeyed
    have h := hinv.holds ⟨fun r hr => by
      obtain ⟨r', hr', hkey⟩ := hkeys r hr
      rw [← hkey]
      exact hkeyed.isSome r' hr', hnodup hkeyed.nodup⟩
    refine ⟨h.nodup, ?_, ?_⟩
    · intro e he
      obtain ⟨r, hr, hke⟩ := h.keys e he
      obtain ⟨r', hr', hkey⟩ := hkeys r hr
      exact ⟨r', hr', hke.trans hkey.symm⟩
    · intro r hr
      rcases hother r hr with rfl | hr
      · exact .inl (selected_of_grows hinv r hgrows)
      · exact h.holds r hr

theorem insert_inv {s : SqlState} (hinv : Inv db columns ds flags s) (raw : List Json) (hgrows : Grows db s raw) :
    Inv db columns ds flags { s with rows := raw :: s.rows, history := raw :: s.history } :=
  grow_inv hinv hgrows (fun _ => mem_cons.1) (fun r hr => ⟨r, mem_cons_of_mem raw hr, rfl⟩)
    fun h => (nodup_cons.1 h).2

theorem update_inv {s : SqlState} (hinv : Inv db columns ds flags s) (before after : List (List Json))
    (old raw : List Json) (hrows : s.rows = before ++ old :: after) (hgrows : Grows db s raw)
    (hkey : keyOf columns ds flags (rowOf columns raw) = keyOf columns ds flags (rowOf columns old)) :
    Inv db columns ds flags { s with rows := before ++ raw :: after, history := raw :: s.history } := by
  -- the keys of the source are those it had
  have hmap : (before ++ raw :: after).map (fun r => keyOf columns ds flags (rowOf columns r)) =
      s.rows.map fun r => keyOf columns ds flags (rowOf columns r) := by
    rw [hrows, map_append, map_append, map_cons, map_cons, hkey]
  refine grow_inv hinv hgrows (fun r hr => ?_) (fun r hr => mem_map.1 (hmap ▸ mem_map.2 ⟨r, hr, rfl⟩))
    fun h => hmap ▸ h
  rw [hrows]
  rcases mem_append.1 hr with hr | hr
  · exact .inr (mem_append_left _ hr)
  · rcases mem_cons.1 hr with rfl | hr
    · exact .inl rfl
    · exact .inr (mem_append_right _ (mem_cons_of_mem old hr))

section Run

variable (hV : KeepsColumns V)
  (hcell : ∀ raw, cellOf (rowOf columns raw) ds.cursorColumn = .null ∨
    cellOf (rowOf columns raw) ds.cursorColumn = db.cursorOf raw)

include hV hcell

theorem sync_inv {s : SqlState} (hinv : Inv db columns ds flags s) (conn : SqlConnector) (out : SqlOutcome)
    (hok : SyncOk V db columns ds flags s) (hserves : Serves db columns ds flags s conn)
    (hout : syncSql V conn ds s.cursor s.file .incremental = .ok out) :
    Inv db columns ds flags { s with file := some out.file, cursor := out.cursor } := by
  obtain ⟨_, hperm, hcursor⟩ := sync_writes hV hcell hinv hok conn hserves out hout
  refine ⟨hinv.history, hcursor, fun h => absurd h (some_ne_none _), ?_, ?_⟩
  · intro e he
    have hmem := hperm.mem_iff.1 he
    split_ifs at hmem
    · cases hmem
    · obtain ⟨r, hr, rfl⟩ := mem_map.1 hmem
      exact ⟨r, hinv.history r hr, rfl⟩
  · intro hkeyed
    by_cases hcols : tableColumns columns = []
    · -- a source without columns has no keyed row
      have hnil : s.rows = [] := by
        rw [eq_nil_iff_forall_not_mem]
        intro r hr
        have hsome := hkeyed.isSome r hr
        have hnull : ∀ c, cellOf (rowOf columns r) c = .null := by
          intro c
          have hc : c ∉ (rowOf columns r).keys := by
            rw [mem_keys_rowOf, ← mem_tableColumns, hcols]
            exact not_mem_nil
          cases hget : (rowOf columns r).get? c with
          | none => rw [cellOf, hget]; rfl
          | some v => exact absurd ((mem_keys_iff _ _).2 ⟨v, hget⟩) hc
        have hnone : ∀ k, rowIdentity (rowOf columns r) k = none := by
          intro k
          simp only [rowIdentity, hnull, textOf, childIdentity, ite_self]
        rw [keyOf] at hsome
        cases hk : resolvedKey columns ds flags with
        | none => rw [hk] at hsome; cases hsome
        | some k =>
          rw [hk, bind_some, hnone] at hsome
          cases hsome
      rw [if_pos hcols] at hperm
      have hfile : out.file.rows = [] := Perm.eq_nil hperm
      refine ⟨?_, ?_, ?_⟩
      · rw [SqlState.fileRows, map_some, getD_some, hfile]
        exact nodup_nil
      · intro e he
        rw [SqlState.fileRows, map_some, getD_some, hfile] at he
        cases he
      · intro r hr
        rw [hnil] at hr
        cases hr
    · rw [if_neg hcols] at hperm
      refine ⟨?_, ?_, ?_⟩
      · refine (hperm.map _).nodup_iff.2 ?_
        rw [List.map_map]
        have hkeys : keyOf columns ds flags ∘ stored columns = fun r => keyOf columns ds flags (rowOf columns r) :=
          funext keyOf_stored
        rw [hkeys]
        exact hkeyed.nodup
      · intro e he
        obtain ⟨r, hr, rfl⟩ := mem_map.1 (hperm.mem_iff.1 he)
        exact ⟨r, hr, keyOf_stored r⟩
      · intro r hr
        exact .inr (hperm.mem_iff.2 (mem_map.2 ⟨r, hr, rfl⟩))

/-- **Runs.** The invariant holds in every state that a run reaches. -/
theorem reach_inv {s : SqlState} (h : Reach V db columns ds flags s) : Inv db columns ds flags s := by
  induction h with
  | init =>
    exact ⟨fun _ h => (nomatch h), fun _ h => (nomatch h), fun _ => rfl, fun _ h => (nomatch h),
      fun _ => ⟨nodup_nil, fun _ h => (nomatch h), fun _ h => (nomatch h)⟩⟩
  | step _ hstep ih =>
    cases hstep with
    | insert raw hgrows => exact insert_inv ih raw hgrows
    | update before after old raw hrows hgrows hkey => exact update_inv ih before after old raw hrows hgrows hkey
    | sync conn out hok hserves hout => exact sync_inv hV hcell ih conn out hok hserves hout

/-- **Incremental syncs.** In a run whose syncs all may run, an incremental sync writes the rows that a full refresh of
the source at that moment would write. -/
theorem incremental_eq_full {s : SqlState} (h : Reach V db columns ds flags s) (hok : SyncOk V db columns ds flags s)
    (conn : SqlConnector) (hserves : Serves db columns ds flags s conn) (out : SqlOutcome)
    (hout : syncSql V conn ds s.cursor s.file .incremental = .ok out) :
    ∃ full, materializeExisting V s.file (s.rows.map (rowOf columns)) none .fullRefresh = some full ∧
      out.file.columns = full.columns ∧ out.file.rows.Perm full.rows := by
  have hinv := reach_inv hV hcell h
  obtain ⟨hcols, hperm, _⟩ := sync_writes hV hcell hinv hok conn hserves out hout
  have hversions : ∀ m ∈ s.rows.map (rowOf columns), Version columns s.history m := by
    intro m hm
    obtain ⟨r, hr, rfl⟩ := mem_map.1 hm
    exact ⟨r, hinv.history r hr, .inl rfl⟩
  obtain ⟨full, hfull, hfcols, hfrows⟩ := rowsToTable_versions hV hversions hok.kinds (s.file.map ArrowTable.columns)
  refine ⟨full, hfull, ?_, ?_⟩
  · rw [hcols, hfcols]
    exact if_congr map_eq_nil_iff.symm rfl rfl
  · rw [hfrows, List.map_map]
    exact hperm

end Run

end Runs

/-! ## A table without a key -/

section Keyless

open scoped Ascii

/-- a database that compares the column at a place as text -/
def textOrder (place : ℕ) : CursorOrder where
  cursorOf raw := (raw[place]?).getD .null
  le w v := w.text ≤ v.text
  atLeast v t := decide (t ≤ v.text)
  reads _ _ h := decide_eq_true h

def eventsTable : SqlDataset := ⟨.table "events", some "updated_at"⟩

/-- a table of events that always answers with the same rows -/
def eventsConnector (columns : List String) (flags : List (String × Bool)) (rows : List (List Json)) : SqlConnector :=
  ⟨fun _ => .ok ⟨columns, rows⟩, fun _ => some flags⟩

def keylessRow : List Json := [.str "2026-01-01"]

/-- the row at the cursor is read again and appended -/
theorem keyless_duplicates : ∃ first second full,
    syncSql plainValues (eventsConnector ["updated_at"] [("updated_at", false)] [keylessRow]) eventsTable none none
        .incremental = .ok first ∧
      Serves (textOrder 0) ["updated_at"] eventsTable (fun _ => some [("updated_at", false)])
        ⟨[keylessRow], [keylessRow], some first.file, first.cursor⟩
        (eventsConnector ["updated_at"] [("updated_at", false)] [keylessRow]) ∧
      syncSql plainValues (eventsConnector ["updated_at"] [("updated_at", false)] [keylessRow]) eventsTable first.cursor
        (some first.file) .incremental = .ok second ∧
      materializeExisting plainValues (some first.file) [rowOf ["updated_at"] keylessRow] none .fullRefresh =
        some full ∧
      second.file.rows.length = 2 ∧ full.rows.length = 1 := by
  refine ⟨_, _, _, rfl, ⟨rfl, [keylessRow], rfl, ?_⟩, rfl, rfl, rfl, rfl⟩
  exact List.Perm.refl _

/-- two events, with the identity that the table flags -/
def firstEvent : List Json := [.int 1, .str "2026-01-01"]

def secondEvent : List Json := [.int 2, .str "2026-01-02"]

def eventFlags : List (String × Bool) := [("id", true), ("updated_at", false)]

theorem plainValues_keeps : KeepsColumns plainValues := fun _ _ _ => ⟨id, rfl, fun _ _ => rfl⟩

theorem events_syncOk (s : SqlState) (hrows : s.rows = [firstEvent] ∨ s.rows = [secondEvent, firstEvent])
    (hhistory : s.history = s.rows) :
    SyncOk plainValues (textOrder 1) ["id", "updated_at"] eventsTable (fun _ => some eventFlags) s := by
  have hmem : ∀ r ∈ s.history, r = firstEvent ∨ r = secondEvent := by
    intro r hr
    rw [hhistory] at hr
    rcases hrows with h | h <;> rw [h] at hr <;> simp at hr <;> tauto
  refine ⟨.inl ?_, ?_, ?_⟩
  · rcases hrows with h | h <;> rw [h] <;> exact ⟨by decide, by decide⟩
  · intro c hc
    have hc : c = "id" ∨ c = "updated_at" := by
      have h : c ∈ ["id", "updated_at"] := (mem_tableColumns c).1 hc
      simpa using h
    rcases hc with rfl | rfl
    · refine ⟨⟨.int, fun v hv => ?_⟩, fun i hi => ?_⟩
      · obtain ⟨r, hr, rfl⟩ := mem_map.1 hv
        rcases hmem r hr with rfl | rfl <;> exact .inr rfl
      · obtain ⟨r, hr, h⟩ := mem_map.1 hi
        rcases hmem r hr with rfl | rfl
        · obtain rfl : (1 : ℤ) = i := Json.int.inj h
          decide
        · obtain rfl : (2 : ℤ) = i := Json.int.inj h
          decide
    · refine ⟨⟨.string, fun v hv => ?_⟩, fun i hi => ?_⟩
      · obtain ⟨r, hr, rfl⟩ := mem_map.1 hv
        rcases hmem r hr with rfl | rfl <;> exact .inr rfl
      · obtain ⟨r, hr, h⟩ := mem_map.1 hi
        rcases hmem r hr with rfl | rfl
        · cases h
        · cases h
  · intro r hr
    rcases hmem r hr with rfl | rfl <;> exact fun h => absurd h (by decide)

/-- under a key, a sync after an insert writes both events -/
theorem events_synced : ∃ first second full,
    syncSql plainValues (eventsConnector ["id", "updated_at"] eventFlags [firstEvent]) eventsTable none none
        .incremental = .ok first ∧
      syncSql plainValues (eventsConnector ["id", "updated_at"] eventFlags [secondEvent, firstEvent]) eventsTable
        first.cursor (some first.file) .incremental = .ok second ∧
      materializeExisting plainValues (some first.file)
        ([secondEvent, firstEvent].map (rowOf ["id", "updated_at"])) none .fullRefresh = some full ∧
      second.file.columns = full.columns ∧ second.file.rows.Perm full.rows := by
  obtain ⟨first, hfirst, hcursor, second, hsecond⟩ : ∃ first,
      syncSql plainValues (eventsConnector ["id", "updated_at"] eventFlags [firstEvent]) eventsTable none none
          .incremental = .ok first ∧ first.cursor = some "2026-01-01" ∧
        ∃ second, syncSql plainValues (eventsConnector ["id", "updated_at"] eventFlags [secondEvent, firstEvent])
          eventsTable first.cursor (some first.file) .incremental = .ok second := ⟨_, rfl, rfl, _, rfl⟩
  have hcell : ∀ raw, cellOf (rowOf ["id", "updated_at"] raw) eventsTable.cursorColumn = .null ∨
      cellOf (rowOf ["id", "updated_at"] raw) eventsTable.cursorColumn = (textOrder 1).cursorOf raw :=
    fun raw => .inr rfl
  have hreach : Reach plainValues (textOrder 1) ["id", "updated_at"] eventsTable (fun _ => some eventFlags)
      ⟨[secondEvent, firstEvent], [secondEvent, firstEvent], some first.file, first.cursor⟩ := by
    have hinsert : Reach plainValues (textOrder 1) ["id", "updated_at"] eventsTable (fun _ => some eventFlags)
        ⟨[firstEvent], [firstEvent], none, none⟩ := by
      refine .step .init (.insert _ firstEvent ⟨fun h => ?_, fun r hr => ?_⟩)
      · cases h
      · cases hr
    have hsync := Reach.step hinsert (.sync _ _ first (events_syncOk _ (.inl rfl) rfl)
      ⟨rfl, [firstEvent], rfl, List.Perm.refl _⟩ hfirst)
    refine .step hsync (.insert _ secondEvent ⟨fun h => ?_, fun r hr => ?_⟩)
    · cases h
    · obtain rfl := mem_singleton.1 hr
      exact (by decide : "2026-01-01" ≤ "2026-01-02")
  have hserves : Serves (textOrder 1) ["id", "updated_at"] eventsTable (fun _ => some eventFlags)
      ⟨[secondEvent, firstEvent], [secondEvent, firstEvent], some first.file, first.cursor⟩
      (eventsConnector ["id", "updated_at"] eventFlags [secondEvent, firstEvent]) := by
    refine ⟨rfl, [secondEvent, firstEvent], rfl, ?_⟩
    rw [hcursor]
    exact List.Perm.refl _
  obtain ⟨full, hfull, hcols, hrows⟩ := incremental_eq_full plainValues_keeps hcell hreach
    (events_syncOk _ (.inr rfl) rfl) _ hserves second hsecond
  exact ⟨first, second, full, hfirst, hsecond, hfull, hcols, hrows⟩

end Keyless

end Langbridge.Runtime
