/-
The table of a SQL source's result (`federation/connectors/sql.py`): the values of all rows are collected under the
names of their columns, and each name becomes a column of the table. Which values a column takes is a parameter.
-/
import Langbridge.Core.Dict

namespace Langbridge.Federation.SourceTables

open Core List Dict

variable {α : Type}

/-- `QueryResult`: the names of the columns, and rows of any lengths; a value is `none` where it is `None` -/
structure QueryResult (α : Type) where
  columns : List String
  rows : List (List (Option α))

structure PaTable (α : Type) where
  columns : List (String × List (Option α))
  numRows : ℕ
  sized : ∀ c ∈ columns, c.2.length = numRows

/-- the columns that `pa.table` refuses: values that have no common type, and columns of different lengths -/
def Refused (accepts : List (Option α) → Bool) (entries : List (String × List (Option α))) : Prop :=
  (∃ e ∈ entries, accepts e.2 = false) ∨ ∃ e ∈ entries, ∃ e' ∈ entries, e.2.length ≠ e'.2.length

instance (accepts : List (Option α) → Bool) (entries : List (String × List (Option α))) :
    Decidable (Refused accepts entries) :=
  inferInstanceAs (Decidable ((∃ e ∈ entries, _) ∨ ∃ e ∈ entries, ∃ e' ∈ entries, _))

/-- `pa.table` of a dictionary of columns; `none` raises. A table without columns has no rows. -/
def paTable (accepts : List (Option α) → Bool) (data : Dict String (List (Option α))) : Option (PaTable α) :=
  if h : Refused accepts data.entries then none
  else
    some
      { columns := data.entries
        numRows := (data.entries.head?.map fun e => e.2.length).getD 0
        sized := by
          intro c hc
          rw [Refused, not_or] at h
          cases hentries : data.entries with
          | nil =>
            rw [hentries] at hc
            cases hc
          | cons e es =>
            by_contra hlength
            exact h.2 ⟨c, hc, e, hentries ▸ mem_cons_self, hlength⟩ }

/-- `row[index] if index < len(row) else None` -/
def valueAt (row : List (Option α)) (index : ℕ) : Option α := (row[index]?).getD none

/-- the inner loop: the values of a row are put to their columns, from an index on -/
def appendRow (row : List (Option α)) : ℕ → List String → Dict String (List (Option α)) → Dict String (List (Option α))
  | _, [], data => data
  | index, column :: columns, data =>
    appendRow row (index + 1) columns (data.set column ((data.get? column).getD [] ++ [valueAt row index]))

/-- `{column: [] for column in result.columns}` -/
def emptyColumns (columns : List String) : Dict String (List (Option α)) :=
  columns.foldl (fun data column => data.set column []) Dict.empty

/-- the values by the names of their columns -/
def collect (result : QueryResult α) : Dict String (List (Option α)) :=
  result.rows.foldl (fun data row => appendRow row 0 result.columns data) (emptyColumns result.columns)

def rowsToArrow (accepts : List (Option α) → Bool) (result : QueryResult α) : Option (PaTable α) :=
  if result.columns = [] then paTable accepts Dict.empty else paTable accepts (collect result)

/-! ## What the table should be -/

def positions (result : QueryResult α) : List (String × List (Option α)) :=
  result.columns.zipIdx.map fun c => (c.1, result.rows.map fun row => valueAt row c.2)

/-- the table, if there is one, has the result's columns and as many rows -/
def KeepsPositions (accepts : List (Option α) → Bool) (result : QueryResult α) : Prop :=
  ∀ table, rowsToArrow accepts result = some table →
    table.columns = positions result ∧ table.numRows = result.rows.length

def rowValues (row : List (Option α)) (name : String) : ℕ → List String → List (Option α)
  | _, [] => []
  | index, column :: columns =>
    if column = name then valueAt row index :: rowValues row name (index + 1) columns
    else rowValues row name (index + 1) columns

def valuesOf (result : QueryResult α) (name : String) : List (Option α) :=
  result.rows.flatMap fun row => rowValues row name 0 result.columns

/-- the names do not occur equally often, or no column takes the values of one -/
def NotTaken (accepts : List (Option α) → Bool) (result : QueryResult α) : Prop :=
  (result.rows ≠ [] ∧ ∃ a ∈ result.columns, ∃ b ∈ result.columns, result.columns.count a ≠ result.columns.count b) ∨
    ∃ a ∈ result.columns, accepts (valuesOf result a) = false

/-! ## Collecting -/

theorem get?_appendRow (row : List (Option α)) (index : ℕ) (columns : List String)
    (data : Dict String (List (Option α))) (name : String) (values : List (Option α))
    (h : data.get? name = some values) :
    (appendRow row index columns data).get? name = some (values ++ rowValues row name index columns) := by
  induction columns generalizing index data values with
  | nil => rw [appendRow, rowValues, append_nil, h]
  | cons column columns ih =>
    rw [appendRow, rowValues]
    by_cases hname : column = name
    · have hnext : (data.set column ((data.get? column).getD [] ++ [valueAt row index])).get? name =
          some (values ++ [valueAt row index]) := by
        rw [hname, get?_set_self, h, Option.getD_some]
      rw [ih _ _ _ hnext, if_pos hname, append_assoc, singleton_append]
    · have hnext : (data.set column ((data.get? column).getD [] ++ [valueAt row index])).get? name = some values := by
        rw [get?_set_of_ne _ _ (Ne.symm hname), h]
      rw [ih _ _ _ hnext, if_neg hname]

theorem get?_emptyColumns (columns : List String) (data : Dict String (List (Option α))) (name : String)
    (h : name ∈ columns ∨ data.get? name = some []) :
    (columns.foldl (fun data column => data.set column []) data).get? name = some [] := by
  induction columns generalizing data with
  | nil => exact h.resolve_left not_mem_nil
  | cons column columns ih =>
    refine ih _ ?_
    by_cases hname : name = column
    · right
      rw [hname, get?_set_self]
    · rcases h with h | h
      · exact .inl ((mem_cons.1 h).resolve_left hname)
      · right
        rw [get?_set_of_ne _ _ hname, h]

theorem get?_foldl_appendRow (rows : List (List (Option α))) (columns : List String)
    (data : Dict String (List (Option α))) (name : String) (values : List (Option α))
    (h : data.get? name = some values) :
    (rows.foldl (fun data row => appendRow row 0 columns data) data).get? name =
      some (values ++ rows.flatMap fun row => rowValues row name 0 columns) := by
  induction rows generalizing data values with
  | nil => rw [foldl_nil, flatMap_nil, append_nil, h]
  | cons row rows ih =>
    rw [foldl_cons, ih _ _ (get?_appendRow row 0 columns data name values h), flatMap_cons, append_assoc]

theorem get?_collect (result : QueryResult α) (name : String) (h : name ∈ result.columns) :
    (collect result).get? name = some (valuesOf result name) := by
  have hempty : (emptyColumns (α := α) result.columns).get? name = some [] := get?_emptyColumns _ _ _ (.inl h)
  rw [collect, get?_foldl_appendRow _ _ _ name [] hempty, nil_append, valuesOf]

/-! ## The names of the table -/

theorem keys_appendRow (row : List (Option α)) (index : ℕ) (columns : List String)
    (data : Dict String (List (Option α))) (h : ∀ c ∈ columns, c ∈ data.keys) :
    (appendRow row index columns data).keys = data.keys := by
  induction columns generalizing index data with
  | nil => rfl
  | cons column columns ih =>
    have hkeys : (data.set column ((data.get? column).getD [] ++ [valueAt row index])).keys = data.keys := by
      rw [keys_set, if_pos (h column mem_cons_self)]
    rw [appendRow, ih _ _ fun c hc => by rw [hkeys]; exact h c (mem_cons_of_mem column hc), hkeys]

theorem keys_foldl_appendRow (rows : List (List (Option α))) (columns : List String)
    (data : Dict String (List (Option α))) (h : ∀ c ∈ columns, c ∈ data.keys) :
    (rows.foldl (fun data row => appendRow row 0 columns data) data).keys = data.keys := by
  induction rows generalizing data with
  | nil => rfl
  | cons row rows ih =>
    have hkeys := keys_appendRow row 0 columns data h
    rw [foldl_cons, ih _ fun c hc => by rw [hkeys]; exact h c hc, hkeys]

theorem mem_keys_emptyColumns (columns : List String) (name : String) :
    name ∈ (emptyColumns (α := α) columns).keys ↔ name ∈ columns := by
  have hfold : ∀ data : Dict String (List (Option α)),
      name ∈ (columns.foldl (fun data column => data.set column []) data).keys ↔ name ∈ data.keys ∨ name ∈ columns := by
    induction columns with
    | nil => exact fun data => by simp
    | cons column columns ih =>
      intro data
      rw [foldl_cons, ih, mem_keys_set, mem_cons, or_assoc]
  rw [emptyColumns, hfold]
  exact or_iff_right not_mem_nil

theorem keys_emptyColumns (columns : List String) (h : columns.Nodup) :
    (emptyColumns (α := α) columns).keys = columns := by
  have hfold : ∀ data : Dict String (List (Option α)), (data.keys ++ columns).Nodup →
      (columns.foldl (fun data column => data.set column []) data).keys = data.keys ++ columns := by
    clear h
    induction columns with
    | nil => exact fun data _ => (append_nil _).symm
    | cons column columns ih =>
      intro data hnodup
      have hnew : column ∉ data.keys := fun hmem =>
        (nodup_append.1 hnodup).2.2 column hmem column mem_cons_self rfl
      have hkeys : (data.set column []).keys = data.keys ++ [column] := by rw [keys_set, if_neg hnew]
      rw [foldl_cons, ih _ (by rw [hkeys, append_assoc]; exact hnodup), hkeys, append_assoc,
        singleton_append]
  exact hfold Dict.empty h

theorem keys_collect (result : QueryResult α) : (collect result).keys = (emptyColumns (α := α) result.columns).keys :=
  keys_foldl_appendRow _ _ _ fun c hc => (mem_keys_emptyColumns _ c).2 hc

theorem mem_entries_collect (result : QueryResult α) (e : String × List (Option α)) :
    e ∈ (collect result).entries ↔ e.1 ∈ result.columns ∧ e.2 = valuesOf result e.1 := by
  have hget : e ∈ (collect result).entries ↔ (collect result).get? e.1 = some e.2 :=
    (get?_eq_some_iff (collect result) e.1 e.2).symm
  have hkeys : e.1 ∈ (collect result).keys ↔ e.1 ∈ result.columns := by
    rw [keys_collect, mem_keys_emptyColumns]
  rw [hget]
  constructor
  · intro h
    have hmem := hkeys.1 ((mem_keys_iff _ _).2 ⟨e.2, h⟩)
    rw [get?_collect result e.1 hmem] at h
    exact ⟨hmem, (Option.some.inj h).symm⟩
  · rintro ⟨hmem, heq⟩
    rw [get?_collect result e.1 hmem, heq]

/-! ## Lengths -/

theorem length_rowValues (row : List (Option α)) (name : String) (index : ℕ) (columns : List String) :
    (rowValues row name index columns).length = columns.count name := by
  induction columns generalizing index with
  | nil => rfl
  | cons column columns ih =>
    rw [rowValues, count_cons]
    by_cases hname : column = name
    · rw [if_pos hname, length_cons, ih, if_pos (beq_iff_eq.2 hname)]
    · rw [if_neg hname, ih, if_neg fun h => hname (beq_iff_eq.1 h), Nat.add_zero]

theorem length_valuesOf (result : QueryResult α) (name : String) :
    (valuesOf result name).length = result.rows.length * result.columns.count name := by
  rw [valuesOf, length_flatMap]
  simp only [length_rowValues, map_const', sum_replicate, smul_eq_mul]

/-- what `pa.table` refuses of a result -/
theorem refused_iff (accepts : List (Option α) → Bool) (result : QueryResult α) :
    Refused accepts (collect result).entries ↔ NotTaken accepts result := by
  have hlength : ∀ a b, (valuesOf result a).length ≠ (valuesOf result b).length ↔
      result.rows ≠ [] ∧ result.columns.count a ≠ result.columns.count b := by
    intro a b
    rw [length_valuesOf, length_valuesOf]
    cases hrows : result.rows with
    | nil => simp
    | cons row rows => simp
  rw [Refused, NotTaken, or_comm]
  refine or_congr ⟨?_, ?_⟩ ⟨?_, ?_⟩
  · rintro ⟨e, he, e', he', hne⟩
    obtain ⟨hmem, heq⟩ := (mem_entries_collect result e).1 he
    obtain ⟨hmem', heq'⟩ := (mem_entries_collect result e').1 he'
    rw [heq, heq', hlength] at hne
    exact ⟨hne.1, e.1, hmem, e'.1, hmem', hne.2⟩
  · rintro ⟨hrows, a, ha, b, hb, hne⟩
    exact ⟨(a, valuesOf result a), (mem_entries_collect result _).2 ⟨ha, rfl⟩, (b, valuesOf result b),
      (mem_entries_collect result _).2 ⟨hb, rfl⟩, (hlength a b).2 ⟨hrows, hne⟩⟩
  · rintro ⟨e, he, hnot⟩
    obtain ⟨hmem, heq⟩ := (mem_entries_collect result e).1 he
    exact ⟨e.1, hmem, heq ▸ hnot⟩
  · rintro ⟨a, ha, hnot⟩
    exact ⟨(a, valuesOf result a), (mem_entries_collect result _).2 ⟨ha, rfl⟩, hnot⟩

/-! ## Positions -/

theorem rowValues_of_not_mem (row : List (Option α)) (name : String) (index : ℕ) (columns : List String)
    (h : name ∉ columns) : rowValues row name index columns = [] :=
  length_eq_zero_iff.1 ((length_rowValues row name index columns).trans (count_eq_zero_of_not_mem h))

theorem rowValues_of_nodup (row : List (Option α)) (name : String) (index i : ℕ) (columns : List String)
    (h : columns.Nodup) (hi : columns[i]? = some name) :
    rowValues row name index columns = [valueAt row (index + i)] := by
  induction columns generalizing index i with
  | nil => cases hi
  | cons column columns ih =>
    rw [nodup_cons] at h
    rw [rowValues]
    cases i with
    | zero =>
      cases hi
      rw [if_pos rfl, rowValues_of_not_mem _ _ _ _ h.1, Nat.add_zero]
    | succ i =>
      have hne : column ≠ name := fun heq => h.1 (heq ▸ mem_of_getElem? hi)
      rw [if_neg hne, ih (index + 1) i h.2 hi, Nat.add_right_comm, Nat.add_assoc]

theorem entries_collect (result : QueryResult α) (h : result.columns.Nodup) :
    (collect result).entries = positions result := by
  have hkeys : (collect result).keys = result.columns := by rw [keys_collect, keys_emptyColumns _ h]
  have hself : (collect result).keys.map (fun name => (name, ((collect result).get? name).getD [])) =
      (collect result).entries := congrArg Dict.entries (tabulate_get (collect result) [])
  have hentries : (collect result).entries = result.columns.map fun name => (name, valuesOf result name) := by
    rw [← hself, hkeys]
    refine map_congr_left fun name hname => ?_
    rw [get?_collect result name hname, Option.getD_some]
  rw [hentries, positions]
  refine ext_getElem? fun i => ?_
  rw [getElem?_map, getElem?_map, getElem?_zipIdx]
  cases hi : result.columns[i]? with
  | none => rfl
  | some name =>
    have hvalues : valuesOf result name = result.rows.map fun row => valueAt row i := by
      rw [valuesOf, map_eq_flatMap]
      refine flatMap_congr fun row _ => ?_
      rw [rowValues_of_nodup row name 0 i _ h hi, Nat.zero_add]
    rw [Option.map_some, Option.map_some, Option.map_some, hvalues, Nat.zero_add]

theorem map_fst_positions (result : QueryResult α) : (positions result).map Prod.fst = result.columns := by
  rw [positions, List.map_map]
  exact zipIdx_map_fst 0 result.columns

theorem numRows_of_positions (result : QueryResult α) (hne : result.columns ≠ []) (table : PaTable α)
    (h : table.columns = positions result) : table.numRows = result.rows.length := by
  obtain ⟨name, names, hcolumns⟩ := exists_cons_of_ne_nil hne
  have hmem : (name, result.rows.map fun row => valueAt row 0) ∈ table.columns := by
    rw [h, positions, hcolumns, zipIdx_cons, map_cons]
    exact mem_cons_self
  have hlength := table.sized _ hmem
  rw [length_map] at hlength
  exact hlength.symm

/-- **Tables of results.** A table holds a result by its positions if and only if no two columns of the result have one
name and it has a column or no rows, or there is no table, because names do not occur equally often or values are not
taken. -/
theorem keepsPositions_iff (accepts : List (Option α) → Bool) (result : QueryResult α) :
    KeepsPositions accepts result ↔
      (result.columns.Nodup ∧ (result.columns ≠ [] ∨ result.rows = [])) ∨ NotTaken accepts result := by
  by_cases hempty : result.columns = []
  · have hnone : ¬Refused accepts (Dict.empty (α := String) (β := List (Option α))).entries := by
      rintro (⟨e, he, -⟩ | ⟨e, he, -⟩) <;> cases he
    have htaken : ¬NotTaken accepts result := by
      rintro (⟨-, a, ha, -⟩ | ⟨a, ha, -⟩) <;> rw [hempty] at ha <;> cases ha
    have hpositions : positions result = [] := by rw [positions, hempty, zipIdx_nil, map_nil]
    rw [or_iff_left htaken, hempty]
    have hnodup : ([] : List String).Nodup := nodup_nil
    rw [and_iff_right hnodup, or_iff_right fun h => h rfl]
    constructor
    · intro h
      have htable := h _ (by rw [rowsToArrow, if_pos hempty, paTable, dif_neg hnone])
      exact length_eq_zero_iff.1 htable.2.symm
    · intro hrows table htable
      rw [rowsToArrow, if_pos hempty, paTable, dif_neg hnone] at htable
      cases htable
      rw [hpositions, hrows]
      exact ⟨rfl, rfl⟩
  · have htable : ∀ table, rowsToArrow accepts result = some table →
        ¬NotTaken accepts result ∧ table.columns = (collect result).entries := by
      intro table h
      rw [rowsToArrow, if_neg hempty, paTable] at h
      split_ifs at h with hrefused
      rw [refused_iff] at hrefused
      cases h
      exact ⟨hrefused, rfl⟩
    by_cases htaken : NotTaken accepts result
    · exact iff_of_true (fun table h => absurd htaken (htable table h).1) (.inr htaken)
    · rw [or_iff_left htaken, and_iff_left (.inl hempty)]
      constructor
      · intro h
        have hrefused : ¬Refused accepts (collect result).entries := mt (refused_iff accepts result).1 htaken
        have hcolumns := (h _ (by rw [rowsToArrow, if_neg hempty, paTable, dif_neg hrefused])).1
        rw [← map_fst_positions result, ← hcolumns]
        exact (collect result).nodup
      · intro hnodup table h
        have hcolumns : table.columns = positions result := (htable table h).2.trans (entries_collect result hnodup)
        exact ⟨hcolumns, numRows_of_positions result hempty table hcolumns⟩

/-- the values of two columns of one name become one column of twice as many rows -/
theorem repeated_names :
    (∃ table, rowsToArrow (fun _ => true) ⟨["id", "id"], [[some 1, some 2]]⟩ = some table ∧
        table.columns = [("id", [some 1, some 2])]) ∧
      ¬KeepsPositions (fun _ => true) ⟨["id", "id"], [[some 1, some 2]]⟩ := by
  refine ⟨⟨_, rfl, rfl⟩, fun h => ?_⟩
  have hcolumns := (h _ rfl).1
  revert hcolumns
  decide

end Langbridge.Federation.SourceTables
