/-
The rows a sync writes (`runtime/services/dataset_sync_service.py`): merging extracted rows into those of the dataset's
file, and making a table of them.

What pyarrow and Python's numbers do is a parameter (`Values`). A table's rows carry its columns, so that reading a file
back (`to_pylist`) gives its rows.
-/
import Langbridge.Core.Upsert
import Langbridge.Runtime.ResourcePaths

namespace Langbridge.Runtime

open Core List Dict

/-- what the syncs use of pyarrow and of Python's numbers -/
structure Values where
  /-- the conversion of the values of a column that `pa.array` infers from them; `none` raises -/
  array : List Json → Option (Json → Json)
  /-- the text of `float(i)` -/
  float : ℤ → String
  /-- `str.isdigit` -/
  isdigit : String → Bool
  /-- `int(text)`; `none` raises -/
  int : String → Option ℕ

/-- columns as they are, and decimal digits -/
def plainValues : Values where
  array _ := some id
  float i := toString i ++ ".0"
  isdigit s := s ≠ "" && s.toList.all Char.isDigit
  int s := some (s.toList.foldl (fun n c => 10 * n + (c.toNat - '0'.toNat)) 0)

/-! ## Tables -/

/-- a `pa.Table` with its rows as `to_pylist` gives them -/
structure ArrowTable where
  columns : List String
  rows : List Row
  keyed : ∀ r ∈ rows, r.keys = columns

def cellOf (row : Row) (column : String) : Json := (row.get? column).getD .null

theorem keyed_nil : ∀ r ∈ ([] : List Row), r.keys = [] := forall_mem_nil _

/-- `pa.Table.from_pylist` without a schema: the columns are those of the first row -/
def fromPylist (V : Values) : List Row → Option ArrowTable
  | [] => some ⟨[], [], keyed_nil⟩
  | first :: rest =>
    let convert := fun c => V.array ((first :: rest).map fun r => cellOf r c)
    if first.keys.all fun c => (convert c).isSome then
      some
        { columns := first.keys
          -- a table without columns has no rows
          rows := if first.keys = [] then [] else (first :: rest).map fun r =>
            Dict.tabulate first.keys first.keys_nodup fun c => ((convert c).getD id) (cellOf r c)
          keyed := by
            intro r hr
            split_ifs at hr
            · cases hr
            · obtain ⟨r', _, rfl⟩ := mem_map.1 hr
              exact keys_tabulate _ _ _ }
    else none

theorem cellOf_not_mem (r : Row) (c : String) (h : c ∉ r.keys) : cellOf r c = .null := by
  cases hget : r.get? c with
  | none =>
    rw [cellOf, hget]
    rfl
  | some v => exact absurd ((mem_keys_iff _ _).2 ⟨v, hget⟩) h

theorem cellOf_tabulate (columns : List String) (h : columns.Nodup) (f : String → Json) (c : String) (hc : c ∈ columns) :
    cellOf (Dict.tabulate columns h f) c = f c := by
  rw [cellOf, get?_tabulate, if_pos hc]
  rfl

/-- rows with one list of columns are a table's rows as they are, where `pa.array` keeps each column it takes -/
theorem fromPylist_rows (V : Values) (rows : List Row) (columns : List String) (table : ArrowTable) (hne : rows ≠ [])
    (hkeys : ∀ r ∈ rows, r.keys = columns)
    (hkept : ∀ c ∈ columns, ∀ f, V.array (rows.map fun r => cellOf r c) = some f →
      ∀ v ∈ rows.map fun r => cellOf r c, f v = v)
    (h : fromPylist V rows = some table) :
    table.columns = columns ∧ table.rows = if columns = [] then [] else rows := by
  obtain ⟨first, rest, rfl⟩ := exists_cons_of_ne_nil hne
  obtain rfl := hkeys first mem_cons_self
  have hall : (first.keys.all fun c => (V.array ((first :: rest).map fun r => cellOf r c)).isSome) = true := by
    by_contra hno
    rw [fromPylist, if_neg hno] at h
    cases h
  rw [fromPylist, if_pos hall] at h
  rw [all_eq_true] at hall
  cases h
  have hrow : ∀ r ∈ first :: rest, (Dict.tabulate first.keys first.keys_nodup fun c =>
      ((V.array ((first :: rest).map fun r => cellOf r c)).getD id) (cellOf r c)) = r := by
    intro r hr
    have hcell : (Dict.tabulate first.keys first.keys_nodup fun c =>
        ((V.array ((first :: rest).map fun r => cellOf r c)).getD id) (cellOf r c)) =
          Dict.tabulate first.keys first.keys_nodup fun c => cellOf r c := by
      refine tabulate_congr _ _ _ fun c hc => ?_
      obtain ⟨f, hf⟩ := Option.isSome_iff_exists.1 (hall c hc)
      rw [hf]
      exact hkept c hc f hf _ (mem_map.2 ⟨r, hr, rfl⟩)
    have hself := tabulate_get r Json.null
    rw [hcell]
    refine Eq.trans (Dict.ext ?_) hself
    simp only [Dict.tabulate, hkeys r hr, cellOf]
  refine ⟨rfl, ?_⟩
  split_ifs
  · rfl
  · conv_rhs => rw [← List.map_id (first :: rest)]
    exact map_congr_left hrow

/-- a table is made of rows when `pa.array` takes each column of the first one -/
theorem fromPylist_isSome (V : Values) (rows : List Row) (columns : List String) (hne : rows ≠ [])
    (hkeys : ∀ r ∈ rows, r.keys = columns)
    (htaken : ∀ c ∈ columns, (V.array (rows.map fun r => cellOf r c)).isSome = true) :
    ∃ table, fromPylist V rows = some table := by
  obtain ⟨first, rest, rfl⟩ := exists_cons_of_ne_nil hne
  obtain rfl := hkeys first mem_cons_self
  exact ⟨_, if_pos (all_eq_true.2 htaken)⟩

/-! ## Normalised rows -/

inductive Category where
  | bool
  | int
  | float
  | string
deriving DecidableEq

def valueCategory : Json → Option Category
  | .null => none
  | .bool _ => some .bool
  | .int _ => some .int
  | .float _ => some .float
  | _ => some .string

/-- `sorted(columns)` over the keys of the rows -/
def sortedColumns (rows : List Row) : List String := (rows.flatMap Dict.keys).dedup.insertionSort (· ≤ ·)

theorem sortedColumns_nodup (rows : List Row) : (sortedColumns rows).Nodup :=
  (perm_insertionSort _ _).nodup_iff.2 (nodup_dedup _)

theorem mem_sortedColumns (rows : List Row) (c : String) : c ∈ sortedColumns rows ↔ ∃ r ∈ rows, c ∈ r.keys := by
  rw [sortedColumns, (perm_insertionSort _ _).mem_iff, mem_dedup, mem_flatMap]

theorem sortedColumns_congr (rows rows' : List Row)
    (h : ∀ c, (∃ r ∈ rows, c ∈ r.keys) ↔ ∃ r ∈ rows', c ∈ r.keys) : sortedColumns rows = sortedColumns rows' := by
  have hsorted : ∀ rows : List Row, (sortedColumns rows).Pairwise (· ≤ ·) := fun _ => pairwise_insertionSort _ _
  refine Perm.eq_of_pairwise (fun a b _ _ hab hba => ?_) (hsorted rows) (hsorted rows') ?_
  · exact String.le_antisymm hab hba
  · rw [perm_ext_iff_of_nodup (sortedColumns_nodup rows) (sortedColumns_nodup rows')]
    intro c
    rw [mem_sortedColumns, mem_sortedColumns, h c]

/-- `category_map[column]` -/
def categories (rows : List Row) (column : String) : List Category :=
  (rows.map fun r => cellOf r column).filterMap valueCategory

section Text

variable [PyText]

/-- the value of a column whose values have some categories; a value's own category is among them -/
def normalizeValue (V : Values) (cats : List Category) : Json → Json
  | .null => .null
  | v =>
    if cats.all fun c => c = .int then v
    else if cats.all fun c => c = .int ∨ c = .float then
      match v with
      | .int i => .float (V.float i)
      | v => v
    else if cats.all fun c => c = .bool then v
    else .str v.text

def normalizeRowsForArrow (V : Values) (rows : List Row) : List Row :=
  rows.map fun r => Dict.tabulate (sortedColumns rows) (sortedColumns_nodup rows) fun c =>
    normalizeValue V (categories rows c) (cellOf r c)

/-- every value of a row changed -/
def mapCells (f : Json → Json) (r : Row) : Row := Dict.tabulate r.keys r.keys_nodup fun c => f (cellOf r c)

/-- `None if value is None else str(value)` -/
def stringified : Json → Json
  | .null => .null
  | v => .str v.text

/-- `_rows_to_table`; `none` raises -/
def rowsToTable (V : Values) (rows : List Row) (existingSchema : Option (List String)) : Option ArrowTable :=
  if rows = [] then some ⟨existingSchema.getD [], [], by simp⟩
  else
    match fromPylist V (normalizeRowsForArrow V rows) with
    | some table => some table
    | none =>
      fromPylist V ((normalizeRowsForArrow V rows).map (mapCells stringified))

/-! ## Columns of one category -/

/-- a value as a column of its category holds it -/
def flat (v : Json) : Json := if valueCategory v = some .string then .str v.text else v

/-- the values have at most one category, and integers that a column can hold -/
structure OneKind (values : List Json) : Prop where
  category : ∃ k, ∀ v ∈ values, valueCategory v = none ∨ valueCategory v = some k
  range : ∀ i, .int i ∈ values → -(2 ^ 63) ≤ i ∧ i < 2 ^ 63

/-- `pa.array` keeps a column of one category -/
def KeepsColumns (V : Values) : Prop :=
  ∀ values, OneKind values → (∀ v ∈ values, flat v = v) → ∃ f, V.array values = some f ∧ ∀ v ∈ values, f v = v

def flatRow (columns : List String) (h : columns.Nodup) (r : Row) : Row :=
  Dict.tabulate columns h fun c => flat (cellOf r c)

theorem valueCategory_flat (v : Json) : valueCategory (flat v) = valueCategory v := by
  unfold flat
  split_ifs with h
  · rw [h]
    rfl
  · rfl

theorem flat_flat (v : Json) : flat (flat v) = flat v := by
  by_cases h : valueCategory v = some .string
  · have hv : flat v = .str v.text := if_pos h
    rw [hv]
    exact if_pos rfl
  · have hv : flat v = v := if_neg h
    rw [hv, hv]

/-- values of a column and their flat forms have its category -/
theorem OneKind.versions {values values' : List Json} (h : OneKind values)
    (hv : ∀ v ∈ values', ∃ w ∈ values, v = w ∨ v = Runtime.flat w) : OneKind values' := by
  obtain ⟨⟨k, hk⟩, hr⟩ := h
  refine ⟨⟨k, fun v hm => ?_⟩, fun i hi => ?_⟩
  · obtain ⟨w, hw, rfl | rfl⟩ := hv v hm
    · exact hk _ hw
    · rw [valueCategory_flat]
      exact hk w hw
  · obtain ⟨w, hw, rfl | hwi⟩ := hv _ hi
    · exact hr i hw
    · cases w <;> simp [Runtime.flat, valueCategory] at hwi
      rw [hwi]
      exact hr _ hw

/-- in a column of one category a value is normalised to itself -/
theorem normalizeValue_category (V : Values) (values : List Json)
    (h : ∃ k, ∀ v ∈ values, valueCategory v = none ∨ valueCategory v = some k) (v : Json) (hv : v ∈ values) :
    normalizeValue V (values.filterMap valueCategory) v = flat v := by
  obtain ⟨k, hk⟩ := h
  cases hcat : valueCategory v with
  | none =>
    cases v <;> first | rfl | cases hcat
  | some k' =>
    obtain rfl : k' = k := by
      rcases hk v hv with h' | h'
      · rw [h'] at hcat
        cases hcat
      · rw [h'] at hcat
        exact (Option.some.inj hcat).symm
    -- every category of the column is the value's own
    have hall : ∀ c ∈ values.filterMap valueCategory, c = k' := by
      intro c hc
      obtain ⟨w, hw, hwc⟩ := mem_filterMap.1 hc
      rcases hk w hw with h' | h'
      · rw [h'] at hwc
        cases hwc
      · rw [h'] at hwc
        exact (Option.some.inj hwc).symm
    have hmem : k' ∈ values.filterMap valueCategory := mem_filterMap.2 ⟨v, hv, hcat⟩
    have hone : ∀ p : Category → Bool, (values.filterMap valueCategory).all p = p k' := by
      intro p
      cases hp : p k' with
      | true =>
        rw [all_eq_true]
        intro c hc
        rw [hall c hc, hp]
      | false =>
        rw [all_eq_false]
        exact ⟨k', hmem, by simp [hp]⟩
    cases v with
    | null => cases hcat
    | bool b =>
      cases hcat
      simp [normalizeValue, hone, flat, valueCategory]
    | int i =>
      cases hcat
      simp [normalizeValue, hone, flat, valueCategory]
    | float t =>
      cases hcat
      simp [normalizeValue, hone, flat, valueCategory]
    | str s =>
      cases hcat
      simp [normalizeValue, hone, flat, valueCategory]
    | arr l =>
      cases hcat
      simp [normalizeValue, hone, flat, valueCategory]
    | obj es =>
      cases hcat
      simp [normalizeValue, hone, flat, valueCategory]

theorem normalizeValue_flat (V : Values) (values : List Json) (h : OneKind values) (v : Json) (hv : v ∈ values) :
    normalizeValue V (values.filterMap valueCategory) v = flat v :=
  normalizeValue_category V values h.category v hv

/-- rows whose columns have one category each are written as they are -/
theorem rowsToTable_flat (V : Values) (hV : KeepsColumns V) (rows : List Row) (schema : Option (List String))
    (hne : rows ≠ []) (hkind : ∀ c ∈ sortedColumns rows, OneKind (rows.map fun r => cellOf r c)) :
    ∃ table, rowsToTable V rows schema = some table ∧ table.columns = sortedColumns rows ∧
      table.rows = if sortedColumns rows = [] then [] else
        rows.map (flatRow (sortedColumns rows) (sortedColumns_nodup rows)) := by
  set flattened := flatRow (sortedColumns rows) (sortedColumns_nodup rows)
  have hnorm : normalizeRowsForArrow V rows = rows.map flattened := by
    refine map_congr_left fun r hr => ?_
    refine tabulate_congr _ _ _ fun c hc => ?_
    exact normalizeValue_flat V _ (hkind c hc) _ (mem_map.2 ⟨r, hr, rfl⟩)
  have hkeys : ∀ r ∈ rows.map flattened, r.keys = sortedColumns rows := by
    intro r hr
    obtain ⟨r', _, rfl⟩ := mem_map.1 hr
    exact keys_tabulate _ _ _
  have hcol : ∀ c ∈ sortedColumns rows,
      (rows.map flattened).map (fun r => cellOf r c) =
        (rows.map fun r => cellOf r c).map flat := by
    intro c hc
    rw [List.map_map, List.map_map]
    exact map_congr_left fun r _ => cellOf_tabulate _ _ _ c hc
  have hkept : ∀ c ∈ sortedColumns rows, ∃ f, V.array ((rows.map flattened).map fun r => cellOf r c) = some f ∧
        ∀ v ∈ (rows.map flattened).map fun r => cellOf r c,
          f v = v := by
    intro c hc
    rw [hcol c hc]
    refine hV _ ((hkind c hc).versions fun v hv => ?_) fun v hv => ?_
    · obtain ⟨w, hw, rfl⟩ := mem_map.1 hv
      exact ⟨w, hw, .inr rfl⟩
    · obtain ⟨w, _, rfl⟩ := mem_map.1 hv
      exact flat_flat w
  have hne' : rows.map flattened ≠ [] := by
    rwa [ne_eq, map_eq_nil_iff]
  obtain ⟨table, htable⟩ := fromPylist_isSome V _ (sortedColumns rows) hne' hkeys fun c hc => by
    obtain ⟨f, hf, _⟩ := hkept c hc
    rw [hf]
    rfl
  obtain ⟨hcols, hrows⟩ := fromPylist_rows V _ (sortedColumns rows) table hne' hkeys (fun c hc f hf => by
    obtain ⟨f', hf', hkeep⟩ := hkept c hc
    rw [hf'] at hf
    cases hf
    exact hkeep) htable
  refine ⟨table, ?_, hcols, hrows⟩
  rw [rowsToTable, if_neg hne, hnorm, htable]

/-! ## Merging -/

/-- `str(value)` of a value that is neither `None` nor blank -/
def textOf : Json → Option String
  | .null => none
  | v => if PyText.strip v.text = "" then none else some v.text

def childIdentity : Json → Json → Option String
  | .null, _ => none
  | _, .null => none
  | p, i => some (p.text ++ ":" ++ i.text)

def rowIdentity (row : Row) (primaryKey : String) : Option String :=
  if primaryKey = "_parent_id" then textOf (cellOf row "_parent_id")
  else if primaryKey = "_child_identity" then childIdentity (cellOf row "_parent_id") (cellOf row "_child_index")
  else textOf (cellOf row primaryKey)

theorem textOf_flat (v : Json) : textOf (flat v) = textOf v := by
  cases v <;> rfl

theorem childIdentity_flat (v w : Json) : childIdentity (flat v) (flat w) = childIdentity v w := by
  cases v <;> cases w <;> rfl

theorem rowIdentity_flat (r r' : Row) (primaryKey : String) (h : ∀ c, cellOf r' c = flat (cellOf r c)) :
    rowIdentity r' primaryKey = rowIdentity r primaryKey := by
  simp only [rowIdentity, h, textOf_flat, childIdentity_flat]

/-- one row of a merge: the rows under their identities and the rows without one -/
def mergeRow (primaryKey : String) (acc : Dict String Row × List Row) (row : Row) : Dict String Row × List Row :=
  match rowIdentity row primaryKey with
  | none => (acc.1, acc.2 ++ [row])
  | some key => (acc.1.set key row, acc.2)

def mergeRows (existingRows newRows : List Row) (primaryKey : Option String) (fullRefresh : Bool) : List Row :=
  if fullRefresh then newRows
  else if primaryKey.getD "" = "" then existingRows ++ newRows
  else
    let merged := (existingRows ++ newRows).foldl (mergeRow (primaryKey.getD "")) (Dict.empty, [])
    merged.1.values ++ merged.2

def mergeKey (primaryKey : String) (row : Row) : String := (rowIdentity row primaryKey).getD ""

theorem foldl_mergeRow (primaryKey : String) (rows : List Row) (acc : Dict String Row × List Row) :
    rows.foldl (mergeRow primaryKey) acc =
      ((rows.filter fun r => (rowIdentity r primaryKey).isSome).foldl (fun d r => d.set (mergeKey primaryKey r) r) acc.1,
        acc.2 ++ rows.filter fun r => (rowIdentity r primaryKey).isNone) := by
  induction rows generalizing acc with
  | nil => simp
  | cons r rows ih =>
    rw [foldl_cons, ih]
    cases h : rowIdentity r primaryKey with
    | none => simp [mergeRow, h]
    | some k => simp [mergeRow, mergeKey, h]

/-- a merge under a key is an upsert of the rows that have one, before the others -/
theorem mergeRows_key (existingRows newRows : List Row) (primaryKey : String) (h : primaryKey ≠ "") :
    mergeRows existingRows newRows (some primaryKey) false =
      (upsert (mergeKey primaryKey)
        ((existingRows ++ newRows).filter fun r => (rowIdentity r primaryKey).isSome)).values ++
        (existingRows ++ newRows).filter fun r => (rowIdentity r primaryKey).isNone := by
  rw [mergeRows, if_neg (by decide), Option.getD_some, if_neg h, foldl_mergeRow]
  rfl

theorem mergeRows_of_identities (existingRows newRows : List Row) (primaryKey : String) (h : primaryKey ≠ "")
    (hid : ∀ r ∈ existingRows ++ newRows, (rowIdentity r primaryKey).isSome = true) :
    mergeRows existingRows newRows (some primaryKey) false =
      (upsert (mergeKey primaryKey) (existingRows ++ newRows)).values := by
  have hsome : (existingRows ++ newRows).filter (fun r => (rowIdentity r primaryKey).isSome) =
      existingRows ++ newRows := filter_eq_self.2 hid
  have hnone : (existingRows ++ newRows).filter (fun r => (rowIdentity r primaryKey).isNone) = [] := by
    rw [filter_eq_nil_iff]
    intro r hr
    rw [Option.isNone_iff_eq_none]
    intro hn
    have hs := hid r hr
    rw [hn] at hs
    cases hs
  rw [mergeRows_key _ _ _ h, hsome, hnone, append_nil]

/-- a merge makes no rows up -/
theorem mem_mergeRows (existingRows newRows : List Row) (primaryKey : Option String) (full : Bool) (r : Row)
    (h : r ∈ mergeRows existingRows newRows primaryKey full) : r ∈ existingRows ++ newRows := by
  cases full with
  | true =>
    exact mem_append_right _ h
  | false =>
    by_cases hkey : primaryKey.getD "" = ""
    · rwa [mergeRows, if_neg (by decide), if_pos hkey] at h
    · cases primaryKey with
      | none => exact absurd rfl hkey
      | some key =>
        have hkey' : key ≠ "" := hkey
        rw [mergeRows_key _ _ _ hkey', mem_append] at h
        rcases h with h | h
        · obtain ⟨k, hk⟩ := (mem_values _ _).1 h
          exact (mem_filter.1 (upsert_key _ _ k r hk).1).1
        · exact (mem_filter.1 h).1

/-- rows whose identities are distinct are kept by a merge into nothing -/
theorem mergeRows_nil_perm (newRows : List Row) (primaryKey : Option String)
    (h : ∀ key, primaryKey = some key → key ≠ "" → (newRows.filterMap fun r => rowIdentity r key).Nodup) :
    (mergeRows [] newRows primaryKey false).Perm newRows := by
  by_cases hkey : primaryKey.getD "" = ""
  · rw [mergeRows, if_neg (by decide), if_pos hkey, nil_append]
  · cases primaryKey with
    | none => exact absurd rfl hkey
    | some key =>
      have hkey' : key ≠ "" := hkey
      rw [mergeRows_key _ _ _ hkey', nil_append]
      have hnodup : ((newRows.filter fun r => (rowIdentity r key).isSome).map (mergeKey key)).Nodup := by
        have hmap : (newRows.filter fun r => (rowIdentity r key).isSome).map (mergeKey key) =
            newRows.filterMap fun r => rowIdentity r key := by
          clear h hkey hkey'
          induction newRows with
          | nil => rfl
          | cons r rows ih =>
            cases hr : rowIdentity r key with
            | none => simp [hr, ih]
            | some k => simp [hr, ih, mergeKey]
        rw [hmap]
        exact h key rfl hkey'
      refine ((upsert_perm_of_nodup _ hnodup).append_right _).trans ?_
      have hnot : ∀ r, (rowIdentity r key).isNone = !(rowIdentity r key).isSome := by
        intro r
        cases rowIdentity r key <;> rfl
      simp only [hnot]
      exact filter_append_perm _ _

end Text

/-! ## Cursors -/

/-- `_pick_newer_cursor`; `none` is a `ValueError` of `int` -/
def pickNewerCursor (V : Values) (current candidate : Option String) : Option (Option String) :=
  let current' := current.getD ""
  let candidate' := candidate.getD ""
  if candidate' = "" then some current
  else if current' = "" then some candidate
  else if V.isdigit current' && V.isdigit candidate' then
    match V.int current', V.int candidate' with
    | some a, some b => some (some (toString (max a b)))
    | _, _ => none
  else some (some (if current' < candidate' then candidate' else current'))

/-- digits that are the text of their number -/
def CanonicalDigits (V : Values) (t : String) : Prop := V.isdigit t = true → ∃ n, V.int t = some n ∧ toString n = t

theorem pickNewerCursor_mem (V : Values) (current candidate newer : Option String)
    (hcurrent : ∀ t, current = some t → CanonicalDigits V t) (hcandidate : ∀ t, candidate = some t → CanonicalDigits V t)
    (h : pickNewerCursor V current candidate = some newer) : newer = current ∨ newer = candidate := by
  simp only [pickNewerCursor] at h
  split_ifs at h with h₁ h₂ h₃ h₄
  · exact .inl (Option.some.inj h).symm
  · exact .inr (Option.some.inj h).symm
  · -- both are numbers, and the larger one has its own text
    obtain ⟨a, rfl⟩ : ∃ a, current = some a := Option.ne_none_iff_exists'.1 fun hn => h₂ (by rw [hn]; rfl)
    obtain ⟨b, rfl⟩ : ∃ b, candidate = some b := Option.ne_none_iff_exists'.1 fun hn => h₁ (by rw [hn]; rfl)
    rw [Bool.and_eq_true] at h₃
    obtain ⟨m, hm, hma⟩ := hcurrent a rfl h₃.1
    obtain ⟨n, hn, hnb⟩ := hcandidate b rfl h₃.2
    simp only [Option.getD_some, hm, hn, Option.some.injEq] at h
    rcases Nat.le_total m n with hle | hle
    · rw [Nat.max_eq_right hle, hnb] at h
      exact .inr h.symm
    · rw [Nat.max_eq_left hle, hma] at h
      exact .inl h.symm
  · obtain ⟨b, rfl⟩ : ∃ b, candidate = some b := Option.ne_none_iff_exists'.1 fun hn => h₁ (by rw [hn]; rfl)
    exact .inr (Option.some.inj h).symm
  · obtain ⟨a, rfl⟩ : ∃ a, current = some a := Option.ne_none_iff_exists'.1 fun hn => h₂ (by rw [hn]; rfl)
    exact .inl (Option.some.inj h).symm

end Langbridge.Runtime
