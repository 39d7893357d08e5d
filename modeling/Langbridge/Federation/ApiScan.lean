/-
Live scans of an API source (`federation/connectors/api.py`): every binding's resource is extracted, flattened and made
a view of an in-memory database, and a scan reads the view of its binding.

A full refresh of the same resource makes a table of the same records by a way of its own (`ApiSync`). The two ways
differ in the pages they read, in the key that gives a child its parent's identity, in the columns they keep and in how
a column holds lists; and a view replaces an earlier one of its name.
-/
import Langbridge.Runtime.ApiSync

namespace Langbridge.Federation.ApiScan

open Core Langbridge.Runtime List Dict PyText

/-! ## Bindings -/

/-- what a scan reads of `VirtualTableBinding`, with the `source` of its descriptor -/
structure ApiBinding where
  tableKey : String
  schemaName : Option String
  table : String
  metadata : Dict String Json
  descriptorSource : Dict String Json

/-- what a scan raises -/
inductive ScanError where
  | source (e : SyncError)
  | missingResource (tableKey : String)
  | noColumns
  | noRelation
deriving DecidableEq

def ScanError.message : ScanError → String
  | .missingResource key => "API binding '" ++ key ++ "' is missing dataset source.resource."
  | .source (.path e) => e.message
  | _ => ""

/-- the database the views live in: how it folds identifiers, and the tables a view can read -/
structure DuckDb where
  fold : String → String
  takes : ArrowTable → Bool

/-- `_qualified_relation_name`, as the database compares it -/
def qualifiedRelationName (duck : DuckDb) (b : ApiBinding) : String × String :=
  let schema := b.schemaName.getD ""
  (duck.fold (if schema = "" then "main" else schema), duck.fold (if b.table = "" then "api_dataset" else b.table))

/-- `self._bindings`: the bindings by their table keys -/
def boundTables (bindings : List ApiBinding) : Dict String ApiBinding :=
  Dict.ofList (bindings.map fun b => (b.tableKey, b))

/-! ## The view of a name -/

def LastOfName (duck : DuckDb) (bound : List ApiBinding) (b : ApiBinding) : Prop :=
  ∃ before after, bound = before ++ b :: after ∧
    ∀ b' ∈ after, qualifiedRelationName duck b' ≠ qualifiedRelationName duck b

variable {duck : DuckDb}

theorem LastOfName.unique {bound : List ApiBinding} {b b' : ApiBinding} (h : LastOfName duck bound b)
    (h' : LastOfName duck bound b') (hname : qualifiedRelationName duck b = qualifiedRelationName duck b') : b = b' := by
  have hfind : ∀ c, LastOfName duck bound c → qualifiedRelationName duck c = qualifiedRelationName duck b →
      bound.reverse.find? (fun d => qualifiedRelationName duck d = qualifiedRelationName duck b) = some c := by
    rintro c ⟨before, after, rfl, hafter⟩ hc
    rw [find?_eq_some_iff_append]
    refine ⟨decide_eq_true hc, after.reverse, before.reverse, by simp, ?_⟩
    intro d hd
    have hne := hafter d (mem_reverse.1 hd)
    rw [hc] at hne
    simpa using hne
  have hb := hfind b h rfl
  rw [hfind b' h' hname.symm] at hb
  exact (Option.some.inj hb).symm

/-! ## The scan -/

def liftSource {α : Type} : Except SyncError α → Except ScanError α
  | .error e => .error (.source e)
  | .ok a => .ok a

theorem liftSource_ok {α : Type} {x : Except SyncError α} {a : α} (h : liftSource x = .ok a) : x = .ok a := by
  cases x with
  | error e => cases h
  | ok a' => exact congrArg Except.ok (Except.ok.inj h)

theorem liftPath_ok {α : Type} {x : Except PathError α} {a : α} (h : liftPath x = .ok a) : x = .ok a := by
  cases x with
  | error e => cases h
  | ok a' => exact congrArg Except.ok (Except.ok.inj h)

section Scan

variable [PyText]

def resourcePath (b : ApiBinding) : Except ScanError String :=
  let name := (cellOf b.descriptorSource "resource").orElse ((cellOf b.metadata "api_resource").orElse (.str ""))
  if strip name.text = "" then .error (.missingResource b.tableKey) else .ok (strip name.text)

def trimmedPaths (paths : List Json) : List String := (paths.map fun p => strip p.text).filter (· ≠ "")

def flattenPaths (b : ApiBinding) : List String :=
  match cellOf b.descriptorSource "flatten" with
  | .arr paths => trimmedPaths paths
  | _ =>
    match cellOf b.metadata "api_flatten" with
    | .arr paths => trimmedPaths paths
    | _ => []

def resourcePrimaryKey (conn : ApiConnector) (root : String) : String :=
  let key := strip (((conn.resolve root).bind ApiResource.primaryKey).getD "")
  if key = "" then "id" else key

/-- `_records_to_arrow`; `none` raises -/
def recordsToArrow (V : Values) (rows : List Row) : Option ArrowTable :=
  if rows = [] then some ⟨[], [], keyed_nil⟩ else fromPylist V rows

/-- what a binding's view is made of -/
structure BindingScan where
  binding : ApiBinding
  records : List Json
  rows : List Row
  table : ArrowTable

def fetchBindingTable (V : Values) (conn : ApiConnector) (b : ApiBinding) : Except ScanError BindingScan := do
  let path ← resourcePath b
  let root ← liftSource (liftPath (apiResourceRoot path))
  let page ← liftSource (conn.extract root none none)
  let m ← liftSource (liftPath
    (materializeApiResourceRows path page.records (some (resourcePrimaryKey conn root)) (flattenPaths b)))
  match recordsToArrow V m.rows with
  | none => throw (.source .arrow)
  | some table => return ⟨b, page.records, m.rows, table⟩

/-- one turn of `_register_bindings`: `CREATE OR REPLACE VIEW` over the table, registered under a name of its own -/
def registerBinding (V : Values) (duck : DuckDb) (conn : ApiConnector) (views : Dict (String × String) BindingScan)
    (b : ApiBinding) : Except ScanError (Dict (String × String) BindingScan) := do
  let s ← fetchBindingTable V conn b
  if duck.takes s.table then return views.set (qualifiedRelationName duck b) s else throw .noColumns

def registerBindings (V : Values) (duck : DuckDb) (conn : ApiConnector) (bindings : List ApiBinding) :
    Except ScanError (Dict (String × String) BindingScan) :=
  (boundTables bindings).values.foldlM (registerBinding V duck conn) Dict.empty

/-- `execute` without a statement of its own: the view under the binding's name -/
def scanBinding (V : Values) (duck : DuckDb) (conn : ApiConnector) (bindings : List ApiBinding) (b : ApiBinding) :
    Except ScanError BindingScan := do
  let views ← registerBindings V duck conn bindings
  match views.get? (qualifiedRelationName duck b) with
  | none => throw .noRelation
  | some s => return s

variable {conn : ApiConnector} {b : ApiBinding} {s : BindingScan}

theorem fetchBindingTable_binding {V : Values} (h : fetchBindingTable V conn b = .ok s) : s.binding = b := by
  obtain ⟨path, _, h⟩ := of_bind_ok h
  obtain ⟨root, _, h⟩ := of_bind_ok h
  obtain ⟨page, _, h⟩ := of_bind_ok h
  obtain ⟨m, _, h⟩ := of_bind_ok h
  split at h
  · cases h
  · cases h
    rfl

theorem registerBinding_ok {V : Values} {views views' : Dict (String × String) BindingScan}
    (h : registerBinding V duck conn views b = .ok views') :
    ∃ s, fetchBindingTable V conn b = .ok s ∧ views' = views.set (qualifiedRelationName duck b) s := by
  obtain ⟨s, hs, h⟩ := of_bind_ok h
  split_ifs at h
  exact ⟨s, hs, (Except.ok.inj h).symm⟩

/-- the view of a name is an earlier one, when no binding has that name, or that of the last binding of the name -/
theorem foldlM_registerBinding {V : Values} (bound : List ApiBinding)
    (views views' : Dict (String × String) BindingScan)
    (h : bound.foldlM (registerBinding V duck conn) views = .ok views') (name : String × String) (s : BindingScan)
    (hget : views'.get? name = some s) :
    (views.get? name = some s ∧ ∀ b ∈ bound, qualifiedRelationName duck b ≠ name) ∨
      (LastOfName duck bound s.binding ∧ qualifiedRelationName duck s.binding = name ∧
        fetchBindingTable V conn s.binding = .ok s) := by
  induction bound generalizing views with
  | nil =>
    cases h
    refine .inl ⟨hget, ?_⟩
    intro b hb
    cases hb
  | cons b bound ih =>
    obtain ⟨views₁, hstep, hrest⟩ := of_bind_ok h
    obtain ⟨fetched, hfetch, rfl⟩ := registerBinding_ok hstep
    rcases ih _ hrest with ⟨hfound, hnone⟩ | ⟨⟨before, after, rfl, hafter⟩, hname, hs⟩
    · rw [get?_set] at hfound
      split_ifs at hfound with hb
      · -- the view is this binding's, and no later one has the name
        cases hfound
        have hbinding := fetchBindingTable_binding hfetch
        refine .inr ⟨⟨[], bound, by rw [hbinding, nil_append], ?_⟩, by rw [hbinding, hb], by rw [hbinding, hfetch]⟩
        intro b' hb'
        rw [hbinding, ← hb]
        exact hnone b' hb'
      · refine .inl ⟨hfound, ?_⟩
        intro b' hb'
        rcases mem_cons.1 hb' with rfl | hb'
        · exact Ne.symm hb
        · exact hnone b' hb'
    · exact .inr ⟨⟨b :: before, after, rfl, hafter⟩, hname, hs⟩

theorem scanBinding_ok {V : Values} {bindings : List ApiBinding} (h : scanBinding V duck conn bindings b = .ok s) :
    LastOfName duck (boundTables bindings).values s.binding ∧
      qualifiedRelationName duck s.binding = qualifiedRelationName duck b ∧
        fetchBindingTable V conn s.binding = .ok s := by
  obtain ⟨views, hviews, h⟩ := of_bind_ok h
  split at h
  · cases h
  · rename_i found hget
    cases h
    rcases foldlM_registerBinding _ _ _ hviews _ _ hget with ⟨hempty, _⟩ | hlast
    · cases hempty
    · exact hlast

theorem scanBinding_own_iff {V : Values} {bindings : List ApiBinding} (h : scanBinding V duck conn bindings b = .ok s) :
    s.binding = b ↔ LastOfName duck (boundTables bindings).values b := by
  obtain ⟨hlast, hname, _⟩ := scanBinding_ok h
  constructor
  · rintro rfl
    exact hlast
  · intro hb
    exact hlast.unique hb hname

end Scan

/-! ## The two conversions -/

/-- a list or an object -/
def isNested : Json → Bool
  | .arr _ => true
  | .obj _ => true
  | _ => false

/-- `None`, an integer or a float -/
def isNumber : Json → Bool
  | .null => true
  | .int _ => true
  | .float _ => true
  | _ => false

/-- an integer as the float of itself -/
def asFloat (V : Values) : Json → Json
  | .int i => .float (V.float i)
  | v => v

def OneCategory (values : List Json) : Prop := ∃ k, ∀ v ∈ values, valueCategory v = none ∨ valueCategory v = some k

/-- how `pa.array` finds the type of a column -/
structure InfersColumns (V : Values) : Prop where
  /-- the values are of one category, or numbers -/
  kinds : ∀ values f, V.array values = some f → OneCategory values ∨ ∀ v ∈ values, isNumber v = true
  /-- texts, booleans, integers and floats are kept -/
  plain : ∀ values f, V.array values = some f → OneCategory values → (∀ v ∈ values, isNested v = false) →
    ∀ v ∈ values, f v = v
  /-- integers beside floats become floats -/
  numbers : ∀ values f, V.array values = some f → ¬ OneCategory values → (∀ v ∈ values, isNumber v = true) →
    ∀ v ∈ values, f v = asFloat V v
  /-- lists stay lists -/
  nested : ∀ values f, V.array values = some f → ∀ v ∈ values, isNested v = true → isNested (f v) = true
  /-- a column of floats has a type -/
  floats : ∀ values, (∀ v ∈ values, v = .null ∨ valueCategory v = some .float) → ∃ f, V.array values = some f

/-- two tables with the same columns, in any order, and the same cells, row by row -/
structure SameRelation (t u : ArrowTable) : Prop where
  columns : t.columns.Perm u.columns
  rows : t.rows.map cellOf = u.rows.map cellOf

/-- the values of a column -/
def columnOf (rows : List Row) (c : String) : List Json := rows.map fun r => cellOf r c

section Rows

variable {V : Values}

def rowIn (V : Values) (columns : List String) (h : columns.Nodup) (rows : List Row) (r : Row) : Row :=
  Dict.tabulate columns h fun c => ((V.array (columnOf rows c)).getD id) (cellOf r c)

variable {columns : List String}

theorem cellOf_rowIn (h : columns.Nodup) (rows : List Row) (r : Row) {c : String}
    (hc : c ∈ columns) {f : Json → Json} (hf : V.array (columnOf rows c) = some f) :
    cellOf (rowIn V columns h rows r) c = f (cellOf r c) := by
  rw [rowIn, cellOf_tabulate _ _ _ _ hc, hf, Option.getD_some]

theorem cellOf_rowIn_not_mem (h : columns.Nodup) (rows : List Row) (r : Row) {c : String}
    (hc : c ∉ columns) : cellOf (rowIn V columns h rows r) c = .null := by
  refine cellOf_not_mem _ _ ?_
  rwa [rowIn, keys_tabulate]

theorem fromPylist_cells {first : Row} {rest : List Row} {t : ArrowTable}
    (h : fromPylist V (first :: rest) = some t) :
    t.columns = first.keys ∧ (∀ c ∈ first.keys, ∃ f, V.array (columnOf (first :: rest) c) = some f) ∧
      t.rows = if first.keys = [] then [] else
        (first :: rest).map (rowIn V first.keys first.keys_nodup (first :: rest)) := by
  by_cases hall : (first.keys.all fun c => (V.array (columnOf (first :: rest) c)).isSome) = true
  · obtain rfl := Option.some.inj ((if_pos hall).symm.trans h)
    refine ⟨rfl, ?_, rfl⟩
    intro c hc
    exact Option.isSome_iff_exists.1 (all_eq_true.1 hall c hc)
  · cases (if_neg hall).symm.trans h

theorem fromPylist_keyed {rows : List Row} (h : columns.Nodup) {t : ArrowTable}
    (hne : rows ≠ []) (hkeys : ∀ r ∈ rows, r.keys = columns) (ht : fromPylist V rows = some t) :
    t.columns = columns ∧ (∀ c ∈ columns, ∃ f, V.array (columnOf rows c) = some f) ∧
      t.rows = if columns = [] then [] else rows.map (rowIn V columns h rows) := by
  obtain ⟨first, rest, rfl⟩ := exists_cons_of_ne_nil hne
  obtain rfl := hkeys first mem_cons_self
  exact fromPylist_cells ht

/-- the table that `pa.Table.from_pylist` makes of changed rows -/
theorem fromPylist_map {rows : List Row} {norm : Row → Row} (h : columns.Nodup) {t : ArrowTable} (hne : rows ≠ [])
    (hkeys : ∀ r ∈ rows.map norm, r.keys = columns) (ht : fromPylist V (rows.map norm) = some t) :
    ∃ g : Row → Row, t.columns = columns ∧ (t.rows = if columns = [] then [] else rows.map g) ∧
      (∀ c ∈ columns, ∃ f, V.array (columnOf (rows.map norm) c) = some f ∧
        ∀ r, cellOf (g r) c = f (cellOf (norm r) c)) ∧
      ∀ c ∉ columns, ∀ r, cellOf (g r) c = .null := by
  obtain ⟨hcolumns, htaken, hrows⟩ := fromPylist_keyed h (by rwa [ne_eq, map_eq_nil_iff]) hkeys ht
  refine ⟨fun r => rowIn V columns h (rows.map norm) (norm r), hcolumns, ?_, fun c hc => ?_, fun c hc r => ?_⟩
  · rw [hrows, List.map_map]
    rfl
  · obtain ⟨f, hf⟩ := htaken c hc
    exact ⟨f, hf, fun r => cellOf_rowIn _ _ _ hc hf⟩
  · exact cellOf_rowIn_not_mem _ _ _ hc

end Rows

variable {rows : List Row}

/-- two tables of the same rows are one relation when their columns are the same and their cells are -/
theorem sameRelation_of_cells {t u : ArrowTable} {columns columns' : List String} {f g : Row → Row}
    (hcolumns : columns.Perm columns') (ht : t.columns = columns) (hu : u.columns = columns')
    (htrows : t.rows = if columns = [] then [] else rows.map f)
    (hurows : u.rows = if columns' = [] then [] else rows.map g)
    (hcells : ∀ r ∈ rows, ∀ c, cellOf (f r) c = cellOf (g r) c) : SameRelation t u := by
  refine ⟨by rwa [ht, hu], ?_⟩
  have hempty : columns = [] ↔ columns' = [] := by
    constructor
    · rintro rfl
      exact hcolumns.nil_eq.symm
    · rintro rfl
      exact hcolumns.eq_nil
  rw [htrows, hurows]
  by_cases hnil : columns' = []
  · rw [if_pos (hempty.2 hnil), if_pos hnil]
  · rw [if_neg (mt hempty.1 hnil), if_neg hnil, List.map_map, List.map_map]
    refine map_congr_left ?_
    intro r hr
    funext c
    exact hcells r hr c

/-! ## A column -/

section Columns

variable [PyText] {V : Values}

theorem flat_of_not_nested {v : Json} (h : isNested v = false) : flat v = v := by
  cases v with
  | arr items => cases h
  | obj entries => cases h
  | str s => exact if_pos rfl
  | null => rfl
  | bool b => rfl
  | int i => rfl
  | float t => rfl

variable {values : List Json}

theorem normalizeValue_numbers (hnumbers : ∀ v ∈ values, isNumber v = true)
    (hmixed : ¬ OneCategory values) (v : Json) (hv : v ∈ values) :
    normalizeValue V (values.filterMap valueCategory) v = asFloat V v := by
  have hcats : ∀ c ∈ values.filterMap valueCategory, c = .int ∨ c = .float := by
    intro c hc
    obtain ⟨w, hw, hwc⟩ := mem_filterMap.1 hc
    have hnumber := hnumbers w hw
    cases w with
    | null => cases hwc
    | int i => exact .inl (Option.some.inj hwc).symm
    | float t => exact .inr (Option.some.inj hwc).symm
    | bool b => cases hnumber
    | str s => cases hnumber
    | arr items => cases hnumber
    | obj entries => cases hnumber
  have hint : ¬ ((values.filterMap valueCategory).all fun c => c = .int) = true := by
    intro hall
    rw [all_eq_true] at hall
    apply hmixed
    refine ⟨.int, ?_⟩
    intro w hw
    cases hcat : valueCategory w with
    | none => exact .inl rfl
    | some k => exact .inr (congrArg some (of_decide_eq_true (hall k (mem_filterMap.2 ⟨w, hw, hcat⟩))))
  have hboth : ((values.filterMap valueCategory).all fun c => c = .int ∨ c = .float) = true := by
    rw [all_eq_true]
    intro c hc
    exact decide_eq_true (hcats c hc)
  have hnumber := hnumbers v hv
  cases v with
  | null => rfl
  | int i => simp only [normalizeValue, if_neg hint, if_pos hboth, asFloat]
  | float t => simp only [normalizeValue, if_neg hint, if_pos hboth, asFloat]
  | bool b => cases hnumber
  | str s => cases hnumber
  | arr items => cases hnumber
  | obj entries => cases hnumber

/-- a column without lists that `pa.array` takes as it is, it takes after normalisation, to the same values -/
theorem array_normalized (hV : InfersColumns V) {f : Json → Json}
    (h : V.array values = some f) (hflat : ∀ v ∈ values, isNested v = false) :
    ∃ f', V.array (values.map (normalizeValue V (values.filterMap valueCategory))) = some f' ∧
      ∀ v ∈ values, f' (normalizeValue V (values.filterMap valueCategory) v) = f v := by
  by_cases hone : OneCategory values
  · have hself : ∀ v ∈ values, normalizeValue V (values.filterMap valueCategory) v = v := by
      intro v hv
      rw [normalizeValue_category V values hone v hv, flat_of_not_nested (hflat v hv)]
    have hmap : values.map (normalizeValue V (values.filterMap valueCategory)) = values := by
      conv_rhs => rw [← List.map_id values]
      exact map_congr_left hself
    refine ⟨f, by rw [hmap, h], ?_⟩
    intro v hv
    rw [hself v hv]
  · have hnumbers := (hV.kinds values f h).resolve_left hone
    have hfloats : ∀ v ∈ values, normalizeValue V (values.filterMap valueCategory) v = asFloat V v :=
      fun v hv => normalizeValue_numbers hnumbers hone v hv
    have hmap : values.map (normalizeValue V (values.filterMap valueCategory)) = values.map (asFloat V) :=
      map_congr_left hfloats
    have hfloat : ∀ v ∈ values.map (asFloat V), v = .null ∨ valueCategory v = some .float := by
      intro v hv
      obtain ⟨w, hw, rfl⟩ := mem_map.1 hv
      have hnumber := hnumbers w hw
      cases w with
      | null => exact .inl rfl
      | int i => exact .inr rfl
      | float t => exact .inr rfl
      | bool b => cases hnumber
      | str s => cases hnumber
      | arr items => cases hnumber
      | obj entries => cases hnumber
    obtain ⟨f', hf'⟩ := hV.floats _ hfloat
    refine ⟨f', by rw [hmap, hf'], ?_⟩
    intro v hv
    have hkeep : f' (asFloat V v) = asFloat V v := by
      refine hV.plain _ f' hf' ⟨.float, ?_⟩ ?_ _ (mem_map.2 ⟨v, hv, rfl⟩)
      · intro w hw
        rcases hfloat w hw with rfl | hw
        · exact .inl rfl
        · exact .inr hw
      · intro w hw
        rcases hfloat w hw with rfl | hw
        · rfl
        · cases w with
          | arr items => cases hw
          | obj entries => cases hw
          | null => rfl
          | bool b => rfl
          | int i => rfl
          | float t => rfl
          | str s => rfl
    rw [hfloats v hv, hkeep, hV.numbers values f h hone hnumbers v hv]

/-- beside a list, every value is normalised to a text -/
theorem normalizeValue_beside_nested {w : Json} (hw : w ∈ values) (hnested : isNested w = true)
    (v : Json) : stringified (normalizeValue V (values.filterMap valueCategory) v) =
      normalizeValue V (values.filterMap valueCategory) v := by
  have hstring : Category.string ∈ values.filterMap valueCategory := by
    refine mem_filterMap.2 ⟨w, hw, ?_⟩
    cases w with
    | arr items => rfl
    | obj entries => rfl
    | null => cases hnested
    | bool b => cases hnested
    | int i => cases hnested
    | float t => cases hnested
    | str s => cases hnested
  have hno : ∀ p : Category → Bool, p .string = false → ¬ (values.filterMap valueCategory).all p = true := by
    intro p hp hall
    rw [all_eq_true] at hall
    have htrue := hall _ hstring
    rw [hp] at htrue
    cases htrue
  have hint := hno (fun c => c = .int) rfl
  have hboth := hno (fun c => c = .int ∨ c = .float) rfl
  have hbool := hno (fun c => c = .bool) rfl
  cases v <;> simp only [normalizeValue, if_neg hint, if_neg hboth, if_neg hbool, stringified, Json.text]

theorem array_texts (hV : InfersColumns V) {f : Json → Json} (h : V.array values = some f)
    (htexts : ∀ v ∈ values, stringified v = v) : ∀ v ∈ values, isNested (f v) = false := by
  have hnull : ∀ v ∈ values, v = .null ∨ ∃ s, v = .str s := by
    intro v hv
    have hself := htexts v hv
    cases v with
    | null => exact .inl rfl
    | str s => exact .inr ⟨s, rfl⟩
    | bool b => cases hself
    | int i => cases hself
    | float t => cases hself
    | arr items => cases hself
    | obj entries => cases hself
  intro v hv
  have hkeep : f v = v := by
    refine hV.plain values f h ⟨.string, ?_⟩ ?_ v hv
    · intro w hw
      rcases hnull w hw with rfl | ⟨s, rfl⟩
      · exact .inl rfl
      · exact .inr rfl
    · intro w hw
      rcases hnull w hw with rfl | ⟨s, rfl⟩
      · rfl
      · rfl
  rw [hkeep]
  rcases hnull v hv with rfl | ⟨s, rfl⟩
  · rfl
  · rfl

end Columns

/-! ## The two tables -/

/-- the first row has the columns of every row; without rows the file has no columns either -/
def FirstHasColumns (schema : Option (List String)) : List Row → Prop
  | [] => schema.getD [] = []
  | first :: rest => ∀ r ∈ rest, ∀ c ∈ r.keys, c ∈ first.keys

def NoLists (rows : List Row) : Prop := ∀ r ∈ rows, ∀ c ∈ r.keys, isNested (cellOf r c) = false

theorem NoLists.column (h : NoLists rows) (c : String) : ∀ v ∈ columnOf rows c, isNested v = false := by
  intro v hv
  obtain ⟨r, hr, rfl⟩ := mem_map.1 hv
  by_cases hc : c ∈ r.keys
  · exact h r hr c hc
  · rw [cellOf_not_mem r c hc]
    rfl

theorem sortedColumns_perm {first : Row} {rest : List Row} :
    first.keys.Perm (sortedColumns (first :: rest)) ↔ ∀ r ∈ rest, ∀ c ∈ r.keys, c ∈ first.keys := by
  constructor
  · intro h r hr c hc
    exact h.mem_iff.2 ((mem_sortedColumns _ c).2 ⟨r, mem_cons_of_mem first hr, hc⟩)
  · intro h
    rw [perm_ext_iff_of_nodup first.keys_nodup (sortedColumns_nodup _)]
    intro c
    rw [mem_sortedColumns]
    constructor
    · intro hc
      exact ⟨first, mem_cons_self, hc⟩
    · rintro ⟨r, hr, hc⟩
      rcases mem_cons.1 hr with rfl | hr
      · exact hc
      · exact h r hr c hc

section Tables

variable [PyText] {V : Values}

theorem keys_normalizeRowsForArrow (rows : List Row) : ∀ r ∈ normalizeRowsForArrow V rows, r.keys = sortedColumns rows := by
  intro r hr
  obtain ⟨r', _, rfl⟩ := mem_map.1 hr
  exact keys_tabulate _ _ _

theorem columnOf_normalized (rows : List Row) {c : String} (hc : c ∈ sortedColumns rows) :
    columnOf (normalizeRowsForArrow V rows) c =
      (columnOf rows c).map (normalizeValue V ((columnOf rows c).filterMap valueCategory)) := by
  rw [columnOf, normalizeRowsForArrow, columnOf, List.map_map, List.map_map]
  refine map_congr_left ?_
  intro r _
  exact cellOf_tabulate _ _ _ c hc

variable {schema : Option (List String)} {u : ArrowTable}

/-- the table a sync writes is made of the normalised rows, or of their texts -/
theorem rowsToTable_cases (hne : rows ≠ []) (h : rowsToTable V rows schema = some u) :
    fromPylist V (normalizeRowsForArrow V rows) = some u ∨
      (fromPylist V (normalizeRowsForArrow V rows) = none ∧
        fromPylist V ((normalizeRowsForArrow V rows).map (mapCells stringified)) = some u) := by
  rw [rowsToTable, if_neg hne] at h
  split at h
  · rename_i table htable
    cases h
    exact .inl htable
  · rename_i hnone
    exact .inr ⟨hnone, h⟩

/-- beside a list, a cell that a sync writes is not a list -/
theorem rowsToTable_not_nested (hV : InfersColumns V) (hne : rows ≠ []) (h : rowsToTable V rows schema = some u) :
    ∃ g : Row → Row, u.columns = sortedColumns rows ∧
      (u.rows = if sortedColumns rows = [] then [] else rows.map g) ∧
        ∀ c ∈ sortedColumns rows, (∃ v ∈ columnOf rows c, isNested v = true) →
          ∀ r ∈ rows, isNested (cellOf (g r) c) = false := by
  have htexts : ∀ c ∈ sortedColumns rows, (∃ v ∈ columnOf rows c, isNested v = true) →
      ∀ v ∈ columnOf (normalizeRowsForArrow V rows) c, stringified v = v := by
    rintro c hc ⟨w, hw, hnested⟩ v hv
    rw [columnOf_normalized rows hc] at hv
    obtain ⟨v, _, rfl⟩ := mem_map.1 hv
    exact normalizeValue_beside_nested hw hnested v
  rcases rowsToTable_cases hne h with ht | ⟨_, ht⟩
  · obtain ⟨g, hcolumns, hrows, htaken, -⟩ :=
      fromPylist_map (sortedColumns_nodup rows) hne (keys_normalizeRowsForArrow rows) ht
    refine ⟨g, hcolumns, hrows, fun c hc hnested r hr => ?_⟩
    obtain ⟨f, hf, hcell⟩ := htaken c hc
    rw [hcell]
    exact array_texts hV hf (htexts c hc hnested) _ (mem_map_of_mem (mem_map_of_mem hr))
  · rw [normalizeRowsForArrow, List.map_map] at ht
    obtain ⟨g, hcolumns, hrows, htaken, -⟩ := fromPylist_map (sortedColumns_nodup rows) hne (fun r hr => by
      obtain ⟨r', -, rfl⟩ := mem_map.1 hr
      simp [mapCells, keys_tabulate]) ht
    refine ⟨g, hcolumns, hrows, fun c hc _ r hr => ?_⟩
    obtain ⟨f, hf, hcell⟩ := htaken c hc
    rw [hcell]
    refine array_texts hV hf (fun v hv => ?_) _ (mem_map_of_mem (mem_map_of_mem hr))
    obtain ⟨r', hr', rfl⟩ := mem_map.1 hv
    obtain ⟨r'', -, rfl⟩ := mem_map.1 hr'
    rw [Function.comp_apply, mapCells, cellOf_tabulate _ _ _ _ (by rwa [keys_tabulate])]
    have htwice : ∀ v, stringified (stringified v) = stringified v := fun v => by cases v <;> rfl
    exact htwice _

/-- rows without lists whose columns `pa.array` takes as they are: the sync writes what it takes them to -/
theorem rowsToTable_plain (hV : InfersColumns V)
    (hne : rows ≠ []) (h : rowsToTable V rows schema = some u) (hflat : NoLists rows)
    (htaken : ∀ c ∈ sortedColumns rows, ∃ f, V.array (columnOf rows c) = some f) :
    ∃ g : Row → Row, u.columns = sortedColumns rows ∧
      (u.rows = if sortedColumns rows = [] then [] else rows.map g) ∧
        ∀ r ∈ rows, ∀ c, cellOf (g r) c =
          if c ∈ sortedColumns rows then ((V.array (columnOf rows c)).getD id) (cellOf r c) else .null := by
  have hcolumn : ∀ c ∈ sortedColumns rows, ∃ f', V.array (columnOf (normalizeRowsForArrow V rows) c) = some f' ∧
      ∀ r ∈ rows, f' (normalizeValue V (categories rows c) (cellOf r c)) =
        ((V.array (columnOf rows c)).getD id) (cellOf r c) := by
    intro c hc
    obtain ⟨f, hf⟩ := htaken c hc
    obtain ⟨f', hf', hsame⟩ := array_normalized hV hf (hflat.column c)
    refine ⟨f', by rw [columnOf_normalized rows hc, hf'], fun r hr => ?_⟩
    rw [hf, Option.getD_some, ← hsame _ (mem_map.2 ⟨r, hr, rfl⟩)]
    rfl
  have hsome : ∃ table, fromPylist V (normalizeRowsForArrow V rows) = some table := by
    refine fromPylist_isSome V _ (sortedColumns rows) (by rwa [normalizeRowsForArrow, ne_eq, map_eq_nil_iff])
      (keys_normalizeRowsForArrow rows) fun c hc => ?_
    obtain ⟨f', hf', _⟩ := hcolumn c hc
    exact Option.isSome_iff_exists.2 ⟨f', hf'⟩
  rcases rowsToTable_cases hne h with ht | ⟨hnone, _⟩
  · obtain ⟨g, hcolumns, hrows, hcells, hother⟩ :=
      fromPylist_map (sortedColumns_nodup rows) hne (keys_normalizeRowsForArrow rows) ht
    refine ⟨g, hcolumns, hrows, fun r hr c => ?_⟩
    split_ifs with hc
    · obtain ⟨f', hf', hsame⟩ := hcolumn c hc
      obtain ⟨f, hf, hcell⟩ := hcells c hc
      obtain rfl := Option.some.inj (hf.symm.trans hf')
      rw [hcell, cellOf_tabulate _ _ _ _ hc, hsame r hr]
    · exact hother c hc r
  · obtain ⟨table, htable⟩ := hsome
    rw [hnone] at htable
    cases htable

/-- **The two conversions.** The table of a scan and that of a sync are one relation of the same rows exactly when the
first row has every column and no cell is a list. -/
theorem sameRelation_iff (hV : InfersColumns V) {t u : ArrowTable}
    (ht : recordsToArrow V rows = some t) (hu : rowsToTable V rows schema = some u) :
    SameRelation t u ↔ FirstHasColumns schema rows ∧ NoLists rows := by
  cases rows with
  | nil =>
    cases ht
    cases hu
    constructor
    · intro h
      refine ⟨h.columns.nil_eq.symm, ?_⟩
      intro r hr
      cases hr
    · rintro ⟨h, _⟩
      refine ⟨?_, rfl⟩
      dsimp only
      rw [show schema.getD [] = [] from h]
  | cons first rest =>
    have hne : first :: rest ≠ [] := cons_ne_nil first rest
    obtain ⟨htcols, httaken, htrows⟩ := fromPylist_cells ((if_neg hne).symm.trans ht)
    constructor
    · intro h
      obtain ⟨g, hucols, hurows, hnested⟩ := rowsToTable_not_nested hV hne hu
      have hperm : first.keys.Perm (sortedColumns (first :: rest)) := by
        rw [← htcols, ← hucols]
        exact h.columns
      refine ⟨sortedColumns_perm.1 hperm, ?_⟩
      intro r hr c hc
      by_contra hlist
      rw [Bool.not_eq_false] at hlist
      have hsorted : c ∈ sortedColumns (first :: rest) := (mem_sortedColumns _ c).2 ⟨r, hr, hc⟩
      have hfirst : c ∈ first.keys := hperm.mem_iff.2 hsorted
      -- the scan's cell is a list, the sync's is not
      have hrows := h.rows
      rw [htrows, hurows, if_neg (ne_nil_of_mem hfirst), if_neg (ne_nil_of_mem hsorted), List.map_map,
        List.map_map, map_inj_left] at hrows
      have hcell : cellOf (rowIn V first.keys first.keys_nodup (first :: rest) r) c = cellOf (g r) c :=
        congrFun (hrows r hr) c
      obtain ⟨f, hf⟩ := httaken c hfirst
      have hmem : cellOf r c ∈ columnOf (first :: rest) c := mem_map.2 ⟨r, hr, rfl⟩
      rw [cellOf_rowIn _ _ _ hfirst hf] at hcell
      have htrue := hV.nested _ f hf _ hmem hlist
      rw [hcell, hnested c hsorted ⟨_, hmem, hlist⟩ r hr] at htrue
      cases htrue
    · rintro ⟨hcovers, hflat⟩
      have hperm : first.keys.Perm (sortedColumns (first :: rest)) := sortedColumns_perm.2 hcovers
      obtain ⟨g, hucols, hurows, hcells⟩ := rowsToTable_plain hV hne hu hflat fun c hc =>
        httaken c (hperm.mem_iff.2 hc)
      refine sameRelation_of_cells hperm htcols hucols htrows hurows ?_
      intro r hr c
      rw [hcells r hr c]
      by_cases hc : c ∈ first.keys
      · obtain ⟨f, hf⟩ := httaken c hc
        rw [if_pos (hperm.mem_iff.1 hc), cellOf_rowIn _ _ _ hc hf, hf, Option.getD_some]
      · rw [if_neg (mt hperm.mem_iff.2 hc), cellOf_rowIn_not_mem _ _ _ hc]

end Tables

/-! ## Scans and syncs -/

section Claim

variable [PyTrim]

/-- the view of a binding is its own and holds what the full refresh of its resource wrote: both have read the whole
chain of pages, made the same rows of its records, and kept their columns and cells -/
structure ScannedAsSynced (b : ApiBinding) (pages : List ApiExtractResult) (s : BindingScan) (out : SyncOutcome) :
    Prop where
  scanned : s.records = pages.flatMap ApiExtractResult.records
  synced : out.extraction.records = pages.flatMap ApiExtractResult.records
  rows : s.rows = out.rows
  relation : SameRelation s.table out.file
  own : s.binding = b

/-- the inputs on which a scan and a sync agree -/
structure Agreeable (duck : DuckDb) (conn : ApiConnector) (bindings : List ApiBinding) (b : ApiBinding)
    (path root : String) (resource : ApiResource) (pages : List ApiExtractResult) (maxSyncRetry : ℕ)
    (file : Option ArrowTable) : Prop where
  /-- the pages after the first hold no record -/
  onePage : ∀ page ∈ pages.drop (min 1 maxSyncRetry), page.records = []
  /-- no later binding has the name -/
  last : LastOfName duck (boundTables bindings).values b
  /-- the records make the same rows under the key of `resolve_resource` and that of the resource, the first row has
  every column, and no value is a list -/
  rows : ∃ rows,
    (materializeApiResourceRows path (pages.flatMap ApiExtractResult.records) (some (resourcePrimaryKey conn root))
      (flattenPaths b)).map MaterializedRows.rows = .ok rows ∧
    (materializeApiResourceRows path (pages.flatMap ApiExtractResult.records) resource.primaryKey
      (flattenPaths b)).map MaterializedRows.rows = .ok rows ∧
    FirstHasColumns (file.map ArrowTable.columns) rows ∧ NoLists rows

theorem fetchBindingTable_ok {V : Values} {conn : ApiConnector} {s : BindingScan} {path root : String}
    (hpath : resourcePath b = .ok path) (hroot : apiResourceRoot path = .ok root)
    (h : fetchBindingTable V conn b = .ok s) :
    ∃ page m, conn.extract root none none = .ok page ∧ s.records = page.records ∧
      materializeApiResourceRows path page.records (some (resourcePrimaryKey conn root)) (flattenPaths b) = .ok m ∧
        s.rows = m.rows ∧ recordsToArrow V s.rows = some s.table := by
  obtain ⟨path', hpath', h⟩ := of_bind_ok h
  obtain rfl : path = path' := Except.ok.inj (hpath.symm.trans hpath')
  obtain ⟨root', hroot', h⟩ := of_bind_ok h
  obtain rfl : root = root' := Except.ok.inj (hroot.symm.trans (liftPath_ok (liftSource_ok hroot')))
  obtain ⟨page, hpage, h⟩ := of_bind_ok h
  obtain ⟨m, hm, h⟩ := of_bind_ok h
  split at h
  · cases h
  · rename_i table htable
    cases h
    exact ⟨page, m, liftSource_ok hpage, rfl, liftPath_ok (liftSource_ok hm), rfl, htable⟩

theorem fullRefresh_ok {V : Values} {conn : ApiConnector} (hconn : ∀ name r, conn.resolve name = some r → r.name = name)
    {path root : String} {flatten : List String} {resource : ApiResource} {state : SyncState} {file : Option ArrowTable}
    {n : ℕ} {out : SyncOutcome} {pages : List ApiExtractResult} (hstrip : strip path = path)
    (hroot : apiResourceRoot path = .ok root) (hresource : resolveRootResource conn root = .ok resource)
    (hchain : Paging.Chain (conn.extract root none) ApiExtractResult.next none pages)
    (h : syncResource V conn ⟨path, flatten⟩ state file .fullRefresh n = .ok out) :
    out.extraction.records = (pages.take n).flatMap ApiExtractResult.records ∧
      ∃ m, materializeApiResourceRows path out.extraction.records resource.primaryKey flatten = .ok m ∧
        out.rows = m.rows ∧ rowsToTable V out.rows (file.map ArrowTable.columns) = some out.file := by
  obtain ⟨htarget, hextract, hfinish⟩ := syncResource_ok h
  have hname : resource.name = root := by
    rw [resolveRootResource] at hresource
    split at hresource
    · rename_i r hfind
      cases hresource
      simpa using find?_some hfind
    · split at hresource
      · rename_i r hresolve
        cases hresource
        exact hconn _ _ hresolve
      · cases hresource
  -- the target is the path's normal form and the resource of its root
  have hout : normalizeApiResourcePath path = .ok out.resourcePath ∧ out.resource = resource := by
    obtain ⟨normalized, hnormalized, htarget⟩ := of_bind_ok htarget
    obtain ⟨root', hroot', htarget⟩ := of_bind_ok htarget
    obtain ⟨resource', hresource', htarget⟩ := of_bind_ok htarget
    have hpair := Except.ok.inj htarget
    have hpath : normalized = out.resourcePath := congrArg Prod.fst hpair
    have hres : resource' = out.resource := congrArg Prod.snd hpair
    rw [hstrip] at hnormalized
    have hnormal := liftPath_ok hnormalized
    have hsame := liftPath_ok hroot'
    rw [apiResourceRoot_normalized hnormal, hroot] at hsame
    cases hsame
    rw [hresource] at hresource'
    cases hresource'
    exact ⟨hnormal.trans (congrArg Except.ok hpath), hres.symm⟩
  obtain ⟨hnormal, hres⟩ := hout
  have hsince : sinceOf .fullRefresh out.resource state = none := by
    simp [sinceOf, effectiveMode]
  rw [hres, hname] at hextract
  rw [hres] at hsince hfinish
  rw [hsince] at hextract
  obtain ⟨read, hread, hrecords, _⟩ := extractPages_eq V _ _ _ _ _ hextract
  rw [hchain.fetchUpTo] at hread
  cases hread
  obtain ⟨m, hm, hfile, hrows, _⟩ := finishSync_ok hfinish
  have hmode : out.state.syncMode = .fullRefresh := by
    rw [finishSync_mode hfinish]
    simp [effectiveMode]
  rw [materializeApiResourceRows_normalized _ _ _ hnormal] at hm
  refine ⟨hrecords, m, hm, hrows, ?_⟩
  rw [hrows, ← hfile, materializeExisting, hmode]
  rfl

theorem resourcePath_strip {path : String} (h : resourcePath b = .ok path) : strip path = path := by
  rw [resourcePath] at h
  split_ifs at h
  cases h
  exact PyText.strip_strip _

/-- **A live scan and a full refresh.** For a chain of pages, the scan of a binding gives what the full refresh of its
resource path and flatten list wrote exactly on the agreeable inputs: the records are all on the first page, no later
binding takes the name, both primary keys give the same rows, the first row has every column, and no value is a list. -/
theorem scannedAsSynced_iff (V : Values) (hV : InfersColumns V) (duck : DuckDb) (conn : ApiConnector)
    (hconn : ∀ name r, conn.resolve name = some r → r.name = name) (bindings : List ApiBinding) (b : ApiBinding)
    (path root : String) (hpath : resourcePath b = .ok path) (hroot : apiResourceRoot path = .ok root)
    (resource : ApiResource) (hresource : resolveRootResource conn root = .ok resource) (pages : List ApiExtractResult)
    (hchain : Paging.Chain (conn.extract root none) ApiExtractResult.next none pages) (state : SyncState)
    (file : Option ArrowTable) (maxSyncRetry : ℕ) (out : SyncOutcome)
    (hout : syncResource V conn ⟨path, flattenPaths b⟩ state file .fullRefresh maxSyncRetry = .ok out) (s : BindingScan)
    (hs : scanBinding V duck conn bindings b = .ok s) :
    ScannedAsSynced b pages s out ↔ Agreeable duck conn bindings b path root resource pages maxSyncRetry file := by
  obtain ⟨hsynced, m', hm', hrows', hfile⟩ := fullRefresh_ok hconn (resourcePath_strip hpath) hroot hresource hchain hout
  have hown := scanBinding_own_iff hs
  obtain ⟨_, _, hfetch⟩ := scanBinding_ok hs
  -- the first page of the chain is the page a scan reads
  have hfirst : ∀ page, conn.extract root none none = .ok page →
      pages.flatMap ApiExtractResult.records =
        page.records ++ (pages.drop 1).flatMap ApiExtractResult.records := by
    intro page hpage
    cases hchain with
    | last hf _ =>
      rw [hpage] at hf
      cases hf
      rfl
    | more hf _ _ =>
      rw [hpage] at hf
      cases hf
      rfl
  have hsplit : pages.flatMap ApiExtractResult.records =
      (pages.take maxSyncRetry).flatMap ApiExtractResult.records ++
        (pages.drop maxSyncRetry).flatMap ApiExtractResult.records := by
    rw [← flatMap_append, take_append_drop]
  constructor
  · intro h
    have hb := h.own
    rw [hb] at hfetch
    obtain ⟨page, m, hpage, hrecords, hm, hrows, htable⟩ := fetchBindingTable_ok hpath hroot hfetch
    refine ⟨?_, hown.1 hb, ?_⟩
    · -- neither what the scan left nor what the sync left holds a record
      have hscan : (pages.drop 1).flatMap ApiExtractResult.records = [] := by
        have hall := h.scanned
        rw [hrecords, hfirst page hpage, self_eq_append_right] at hall
        exact hall
      have hsync : (pages.drop maxSyncRetry).flatMap ApiExtractResult.records = [] := by
        have hall := h.synced
        rw [hsynced, hsplit, self_eq_append_right] at hall
        exact hall
      rcases Nat.le_total 1 maxSyncRetry with hle | hle
      · rw [Nat.min_eq_left hle]
        exact flatMap_eq_nil_iff.1 hscan
      · rw [Nat.min_eq_right hle]
        exact flatMap_eq_nil_iff.1 hsync
    · have hall : page.records = pages.flatMap ApiExtractResult.records := hrecords ▸ h.scanned
      refine ⟨s.rows, ?_, ?_, (sameRelation_iff hV htable (h.rows ▸ hfile)).1 h.relation⟩
      · rw [← hall, hm, hrows]
        rfl
      · rw [← h.synced, hm', h.rows, hrows']
        rfl
  · rintro ⟨hpages, hlast, rows, hmade, hmade', hcovers, hflat⟩
    have hb := hown.2 hlast
    rw [hb] at hfetch
    obtain ⟨page, m, hpage, hrecords, hm, hrows, htable⟩ := fetchBindingTable_ok hpath hroot hfetch
    have hnone : ∀ k, min 1 maxSyncRetry ≤ k → (pages.drop k).flatMap ApiExtractResult.records = [] := by
      intro k hk
      rw [flatMap_eq_nil_iff]
      intro p hp
      refine hpages p ?_
      have hdrop : pages.drop k = (pages.drop (min 1 maxSyncRetry)).drop (k - min 1 maxSyncRetry) := by
        rw [drop_drop, Nat.add_sub_cancel' hk]
      rw [hdrop] at hp
      exact mem_of_mem_drop hp
    have hscan : page.records = pages.flatMap ApiExtractResult.records := by
      rw [hfirst page hpage, hnone 1 (Nat.min_le_left _ _), append_nil]
    have hsync : out.extraction.records = pages.flatMap ApiExtractResult.records := by
      rw [hsynced, hsplit, hnone maxSyncRetry (Nat.min_le_right _ _), append_nil]
    rw [hscan] at hm
    rw [hsync] at hm'
    rw [hm] at hmade
    rw [hm'] at hmade'
    have hsame : s.rows = rows := hrows.trans (Except.ok.inj hmade)
    have hsame' : out.rows = rows := hrows'.trans (Except.ok.inj hmade')
    refine ⟨hrecords.trans hscan, hsync, hsame.trans hsame'.symm, ?_, hb⟩
    rw [hsame] at htable
    rw [hsame'] at hfile
    exact (sameRelation_iff hV htable hfile).2 ⟨hcovers, hflat⟩

end Claim

/-! ## Orders -/

section Orders

open scoped Ascii

def nullOr (p : Json → Bool) (v : Json) : Bool := v.isNull || p v

def isBool : Json → Bool
  | .bool _ => true
  | _ => false

def isStr : Json → Bool
  | .str _ => true
  | _ => false

def isFloat : Json → Bool
  | .float _ => true
  | _ => false

def inferColumn (values : List Json) : Option (Json → Json) :=
  if values.all isNumber then some (if values.any isFloat then asFloat plainValues else id)
  else if values.all (nullOr isBool) || values.all (nullOr isStr) || values.all (nullOr isNested) then some id
  else none

def arrowValues : Values := { plainValues with array := inferColumn }

variable {values : List Json}

theorem oneCategory_of_all {p : Json → Bool} (k : Category)
    (hp : ∀ v, p v = true → valueCategory v = some k) (h : values.all (nullOr p) = true) : OneCategory values := by
  refine ⟨k, ?_⟩
  intro v hv
  rw [all_eq_true] at h
  have hnull := h v hv
  rw [nullOr, Bool.or_eq_true] at hnull
  rcases hnull with hnull | hv
  · cases v <;> first | exact .inl rfl | cases hnull
  · exact .inr (hp v hv)

theorem inferColumn_cases {f : Json → Json} (h : inferColumn values = some f) :
    ((∀ v ∈ values, isNumber v = true) ∧ f = if values.any isFloat then asFloat plainValues else id) ∨
      (OneCategory values ∧ f = id) := by
  rw [inferColumn] at h
  by_cases hnumber : values.all isNumber = true
  · rw [if_pos hnumber] at h
    exact .inl ⟨all_eq_true.1 hnumber, (Option.some.inj h).symm⟩
  · split_ifs at h with hcategory
    refine .inr ⟨?_, (Option.some.inj h).symm⟩
    rw [Bool.or_eq_true, Bool.or_eq_true] at hcategory
    rcases hcategory with (hb | hs) | hn
    · exact oneCategory_of_all .bool (fun v hv => by cases v <;> first | rfl | cases hv) hb
    · exact oneCategory_of_all .string (fun v hv => by cases v <;> first | rfl | cases hv) hs
    · exact oneCategory_of_all .string (fun v hv => by cases v <;> first | rfl | cases hv) hn

/-- beside a float, an integer is not of the one category -/
theorem asFloat_of_oneCategory (hone : OneCategory values) (hfloat : values.any isFloat = true)
    (v : Json) (hv : v ∈ values) : asFloat plainValues v = v := by
  obtain ⟨k, hk⟩ := hone
  obtain ⟨w, hw, hwf⟩ := any_eq_true.1 hfloat
  have hkf : k = .float := by
    have hcat := hk w hw
    cases w with
    | float t => exact (Option.some.inj (hcat.resolve_left fun h => by cases h)).symm
    | _ => cases hwf
  subst hkf
  have hcat := hk v hv
  cases v with
  | int i => rcases hcat with hcat | hcat <;> cases hcat
  | _ => rfl

/-- numbers without a float are integers -/
theorem oneCategory_of_no_float (hnumbers : ∀ v ∈ values, isNumber v = true)
    (hfloat : values.any isFloat = false) : OneCategory values := by
  refine ⟨.int, ?_⟩
  intro w hw
  have hnumber := hnumbers w hw
  have hnot := any_eq_false.1 hfloat w hw
  cases w with
  | null => exact .inl rfl
  | int i => exact .inr rfl
  | float t => exact absurd rfl hnot
  | _ => cases hnumber

theorem arrowValues_infers : InfersColumns arrowValues where
  kinds := by
    intro values f h
    rcases inferColumn_cases h with ⟨hnumbers, _⟩ | ⟨hone, _⟩
    · exact .inr hnumbers
    · exact .inl hone
  plain := by
    intro values f h hone _ v hv
    rcases inferColumn_cases h with ⟨_, rfl⟩ | ⟨_, rfl⟩
    · split_ifs with hfloat
      · exact asFloat_of_oneCategory hone hfloat v hv
      · rfl
    · rfl
  numbers := by
    intro values f h hmixed hnumbers v hv
    rcases inferColumn_cases h with ⟨_, rfl⟩ | ⟨hone, _⟩
    · split_ifs with hfloat
      · rfl
      · rw [Bool.not_eq_true] at hfloat
        exact absurd (oneCategory_of_no_float hnumbers hfloat) hmixed
    · exact absurd hone hmixed
  nested := by
    intro values f h v hv hnested
    rcases inferColumn_cases h with ⟨hnumbers, _⟩ | ⟨_, rfl⟩
    · have hnumber := hnumbers v hv
      cases v with
      | arr items => cases hnumber
      | obj entries => cases hnumber
      | _ => cases hnested
    · exact hnested
  floats := by
    intro values h
    refine ⟨_, if_pos ?_⟩
    rw [all_eq_true]
    intro v hv
    rcases h v hv with rfl | hf
    · rfl
    · cases v <;> first | rfl | cases hf

/-- a database that compares identifiers without their case, and has no views without columns -/
def duckDb : DuckDb := ⟨Ascii.lower, fun t => t.columns ≠ []⟩

def ordersApi (page : Option String → ApiExtractResult) : ApiConnector where
  discovered := [⟨"orders", some "id", true⟩]
  resolve _ := none
  extract _ _ cursor := .ok (page cursor)

def ordersBinding : ApiBinding where
  tableKey := "orders"
  schemaName := none
  table := "orders"
  metadata := Dict.empty
  descriptorSource := Dict.ofList [("resource", .str "orders")]

def twoPages : Option String → ApiExtractResult
  | none => ⟨[order 1], some "2", none⟩
  | _ => ⟨[order 2], none, none⟩

/-- the sync writes both orders, the scan has the first one -/
theorem secondPage_lost : ∃ out s,
    syncResource arrowValues (ordersApi twoPages) ⟨"orders", flattenPaths ordersBinding⟩ neverSynced none .fullRefresh 3 =
      .ok out ∧
    scanBinding arrowValues duckDb (ordersApi twoPages) [ordersBinding] ordersBinding = .ok s ∧
    Paging.Chain ((ordersApi twoPages).extract "orders" none) ApiExtractResult.next none
      [twoPages none, twoPages (some "2")] ∧
    s.table.rows.length = 1 ∧ out.file.rows.length = 2 ∧
    ¬ ScannedAsSynced ordersBinding [twoPages none, twoPages (some "2")] s out := by
  refine ⟨_, _, rfl, rfl, .more rfl rfl (.last rfl rfl), rfl, rfl, ?_⟩
  intro h
  have hlength := congrArg List.length h.relation.rows
  exact absurd hlength (by decide)

def onePage : Option String → ApiExtractResult := fun _ => ⟨[order 1, order 2], none, none⟩

theorem onePage_agrees : ∃ out s,
    syncResource arrowValues (ordersApi onePage) ⟨"orders", flattenPaths ordersBinding⟩ neverSynced none .fullRefresh 3 =
      .ok out ∧
    scanBinding arrowValues duckDb (ordersApi onePage) [ordersBinding] ordersBinding = .ok s ∧
    ScannedAsSynced ordersBinding [onePage none] s out := by
  refine ⟨_, _, rfl, rfl, ?_⟩
  refine (scannedAsSynced_iff arrowValues arrowValues_infers duckDb (ordersApi onePage) ?_ [ordersBinding] ordersBinding
    "orders" "orders" rfl rfl ⟨"orders", some "id", true⟩ rfl [onePage none] (.last rfl rfl) neverSynced none 3 _ rfl _
    rfl).2 ?_
  · intro name r h
    cases h
  · refine ⟨?_, ⟨[], [], rfl, ?_⟩, ⟨_, rfl, rfl, ?_, ?_⟩⟩
    · intro page hpage
      cases hpage
    · intro b' hb'
      cases hb'
    · intro r hr c hc
      obtain rfl := mem_singleton.1 hr
      exact hc
    · intro r hr c hc
      rcases mem_cons.1 hr with rfl | hr
      · obtain rfl := mem_singleton.1 hc
        rfl
      · obtain rfl := mem_singleton.1 hr
        obtain rfl := mem_singleton.1 hc
        rfl

end Orders

end Langbridge.Federation.ApiScan
