/-
What becomes of the rows that a sync writes, whatever their types: a cell of the file is a form of the cell it was made
of (itself, its text, or the float of an integer), also after it was read back and written again.

`rowsToTable_forms` says that a table holds a form of every row and nothing else.
-/
import Langbridge.Runtime.SyncRows

namespace Langbridge.Runtime

open Core List Dict

section Forms

variable [PyText] (V : Values)

/-- the forms in which a file holds a value -/
inductive Form : Json → Json → Prop where
  | refl (v : Json) : Form v v
  | float {v : Json} {i : ℤ} : Form v (.int i) → Form v (.float (V.float i))
  | text {v w : Json} : Form v w → w ≠ .null → Form v (.str w.text)

/-- a row of the file made of a row -/
def FormRow (r e : Row) : Prop := ∀ c, Form V (cellOf r c) (cellOf e c)

/-- the values of a column as they are written have one category -/
def Uniform (values : List Json) : Prop :=
  (∃ k, ∀ v ∈ values, valueCategory v = none ∨ valueCategory v = some k) ∧ ∀ v ∈ values, flat v = v

/-- `pa.array` keeps the values of a column of one category, where it takes them -/
def ArrayKeeps : Prop := ∀ values f, Uniform values → V.array values = some f → ∀ v ∈ values, f v = v

variable {V}

theorem Form.trans {u v w : Json} (h : Form V u v) (h' : Form V v w) : Form V u w := by
  induction h' with
  | refl => exact h
  | float _ ih => exact .float ih
  | text _ hne ih => exact .text ih hne

/-- an integer of a file is the integer it was made of -/
theorem Form.of_int {v : Json} {i : ℤ} (h : Form V v (.int i)) : v = .int i := by
  cases h
  rfl

theorem FormRow.refl (r : Row) : FormRow V r r := fun _ => .refl _

theorem FormRow.trans {r e e' : Row} (h : FormRow V r e) (h' : FormRow V e e') : FormRow V r e' :=
  fun c => (h c).trans (h' c)

/-- normalising gives a form -/
theorem normalizeValue_form (cats : List Category) (v : Json) : Form V v (normalizeValue V cats v) := by
  cases v with
  | null => exact .refl _
  | int i =>
    simp only [normalizeValue]
    split_ifs
    · exact .refl _
    · exact .float (.refl _)
    · exact .refl _
    · exact .text (.refl _) (by simp)
  | _ =>
    simp only [normalizeValue]
    split_ifs
    · exact .refl _
    · exact .refl _
    · exact .refl _
    · exact .text (.refl _) (by simp)

theorem stringified_form (v : Json) : Form V v (stringified v) := by
  cases v <;> first | exact .refl _ | exact .text (.refl _) (by simp)

/-- values that become nulls and values of one shape -/
theorem uniform_of_shape {α : Type} {values : List Json} {f : Json → Json} (shape : α → Json) (k : Category)
    (hshape : ∀ a, valueCategory (shape a) = some k ∧ flat (shape a) = shape a)
    (h : ∀ v ∈ values, f v = .null ∨ ∃ a, f v = shape a) : Uniform (values.map f) := by
  refine ⟨⟨k, fun w hw => ?_⟩, fun w hw => ?_⟩
  · obtain ⟨v, hv, rfl⟩ := mem_map.1 hw
    rcases h v hv with h | ⟨a, h⟩
    · rw [h]; exact .inl rfl
    · rw [h]; exact .inr (hshape a).1
  · obtain ⟨v, hv, rfl⟩ := mem_map.1 hw
    rcases h v hv with h | ⟨a, h⟩
    · rw [h]; rfl
    · rw [h]; exact (hshape a).2

/-- texts and nothing else -/
theorem uniform_stringified (values : List Json) : Uniform (values.map stringified) := by
  refine uniform_of_shape .str .string (fun _ => ⟨rfl, rfl⟩) fun v _ => ?_
  cases v <;> first | exact .inl rfl | exact .inr ⟨_, rfl⟩

/-- a normalised column has one category -/
theorem uniform_normalized (values : List Json) :
    Uniform (values.map (normalizeValue V (values.filterMap valueCategory))) := by
  set cats := values.filterMap valueCategory with hcats
  have hmem : ∀ v ∈ values, ∀ k, valueCategory v = some k → k ∈ cats := fun v hv k hk =>
    mem_filterMap.2 ⟨v, hv, hk⟩
  by_cases hint : (cats.all fun c => c = .int) = true
  · -- every value is an integer
    refine uniform_of_shape .int .int (fun _ => ⟨rfl, rfl⟩) fun v hv => ?_
    have hcat := fun k hk => of_decide_eq_true (all_eq_true.1 hint k (hmem v hv k hk))
    cases v with
    | null => exact .inl rfl
    | int i => exact .inr ⟨i, by simp only [normalizeValue, hint, if_true]⟩
    | _ => cases hcat _ rfl
  · by_cases hnum : (cats.all fun c => c = .int ∨ c = .float) = true
    · refine uniform_of_shape .float .float (fun _ => ⟨rfl, rfl⟩) fun v hv => ?_
      have hcat := fun k hk => of_decide_eq_true (all_eq_true.1 hnum k (hmem v hv k hk))
      cases v with
      | null => exact .inl rfl
      | int i => exact .inr ⟨V.float i, by simp only [normalizeValue, hint, hnum, if_true, Bool.false_eq_true, if_false]⟩
      | float t => exact .inr ⟨t, by simp only [normalizeValue, hint, hnum, if_true, Bool.false_eq_true, if_false]⟩
      | _ => rcases hcat _ rfl with h | h <;> cases h
    · by_cases hbool : (cats.all fun c => c = .bool) = true
      · refine uniform_of_shape .bool .bool (fun _ => ⟨rfl, rfl⟩) fun v hv => ?_
        have hcat := fun k hk => of_decide_eq_true (all_eq_true.1 hbool k (hmem v hv k hk))
        cases v with
        | null => exact .inl rfl
        | bool b =>
          exact .inr ⟨b, by simp only [normalizeValue, hint, hnum, hbool, if_true, Bool.false_eq_true, if_false]⟩
        | _ => cases hcat _ rfl
      · have hv : ∀ v, normalizeValue V cats v = stringified v := by
          intro v
          cases v <;> first | rfl | simp only [normalizeValue, hint, hnum, hbool, Bool.false_eq_true, if_false, stringified]
        rw [map_congr_left fun v _ => hv v]
        exact uniform_stringified values

theorem mapCells_form (e : Row) : FormRow V e (mapCells stringified e) := by
  intro c
  by_cases hc : c ∈ e.keys
  · rw [mapCells, cellOf_tabulate _ _ _ c hc]
    exact stringified_form _
  · have hnull : cellOf (mapCells stringified e) c = .null := by
      refine cellOf_not_mem _ c ?_
      rwa [mapCells, keys_tabulate]
    rw [hnull, cellOf_not_mem e c hc]
    exact .refl _

theorem normalizeRows_form (rows : List Row) :
    List.Forall₂ (FormRow V) rows (normalizeRowsForArrow V rows) := by
  rw [normalizeRowsForArrow, List.forall₂_map_right_iff, List.forall₂_same]
  intro r hr c
  by_cases hc : c ∈ sortedColumns rows
  · rw [cellOf_tabulate _ _ _ c hc]
    exact normalizeValue_form _ _
  · have hnull : ∀ g, cellOf (Dict.tabulate (sortedColumns rows) (sortedColumns_nodup rows) g) c = .null := by
      intro g
      refine cellOf_not_mem _ c ?_
      rwa [keys_tabulate]
    rw [hnull, cellOf_not_mem r c fun hm => hc ((mem_sortedColumns rows c).2 ⟨r, hr, hm⟩)]
    exact .refl _

theorem keys_normalized (rows : List Row) : ∀ r ∈ normalizeRowsForArrow V rows, r.keys = sortedColumns rows := by
  intro r hr
  obtain ⟨r', _, rfl⟩ := mem_map.1 hr
  exact keys_tabulate _ _ _

/-- a table that is written has the rows as they are normalised, or their texts; without columns it has none -/
theorem rowsToTable_rows (hV : ArrayKeeps V) (rows : List Row) (schema : Option (List String)) (table : ArrowTable)
    (h : rowsToTable V rows schema = some table) :
    ∃ g, (g = id ∨ g = mapCells stringified) ∧
      table.rows = if sortedColumns rows = [] then [] else (normalizeRowsForArrow V rows).map g := by
  by_cases hne : rows = []
  · rw [rowsToTable, if_pos hne] at h
    cases h
    rw [hne]
    exact ⟨id, .inl rfl, rfl⟩
  · have hkeys := keys_normalized (V := V) rows
    have hne' : normalizeRowsForArrow V rows ≠ [] := by
      rwa [ne_eq, normalizeRowsForArrow, map_eq_nil_iff]
    have hcol : ∀ c ∈ sortedColumns rows, (normalizeRowsForArrow V rows).map (fun r => cellOf r c) =
        (rows.map fun r => cellOf r c).map (normalizeValue V ((rows.map fun r => cellOf r c).filterMap valueCategory)) := by
      intro c hc
      rw [normalizeRowsForArrow, List.map_map, List.map_map]
      exact map_congr_left fun r _ => cellOf_tabulate _ _ _ c hc
    rw [rowsToTable, if_neg hne] at h
    cases hfirst : fromPylist V (normalizeRowsForArrow V rows) with
    | some table' =>
      rw [hfirst] at h
      cases h
      obtain ⟨_, hrows⟩ := fromPylist_rows V _ _ _ hne' hkeys (fun c hc f hf => by
        rw [hcol c hc] at hf ⊢
        exact hV _ f (uniform_normalized _) hf) hfirst
      exact ⟨id, .inl rfl, by rw [hrows, List.map_id]⟩
    | none =>
      rw [hfirst] at h
      -- the fallback writes texts
      have hkeys' : ∀ r ∈ (normalizeRowsForArrow V rows).map (mapCells stringified), r.keys = sortedColumns rows := by
        intro r hr
        obtain ⟨r', hr', rfl⟩ := mem_map.1 hr
        rw [mapCells, keys_tabulate, hkeys r' hr']
      have hne'' : (normalizeRowsForArrow V rows).map (mapCells stringified) ≠ [] := by
        rwa [ne_eq, map_eq_nil_iff]
      have hcol' : ∀ c ∈ sortedColumns rows,
          ((normalizeRowsForArrow V rows).map (mapCells stringified)).map (fun r => cellOf r c) =
            ((normalizeRowsForArrow V rows).map fun r => cellOf r c).map stringified := by
        intro c hc
        rw [List.map_map, List.map_map]
        refine map_congr_left fun r hr => ?_
        exact cellOf_tabulate _ _ _ c (by rwa [hkeys r hr])
      obtain ⟨_, hrows⟩ := fromPylist_rows V _ _ _ hne'' hkeys' (fun c hc f hf => by
        rw [hcol' c hc] at hf ⊢
        exact hV _ f (uniform_stringified _) hf) h
      exact ⟨_, .inr rfl, hrows⟩

/-- a table that is written holds a form of every row, in their order and with a column, unless no row has one -/
theorem rowsToTable_forms (hV : ArrayKeeps V) (rows : List Row) (schema : Option (List String)) (table : ArrowTable)
    (h : rowsToTable V rows schema = some table) :
    (sortedColumns rows = [] ∧ table.rows = []) ∨
      (List.Forall₂ (FormRow V) rows table.rows ∧ ∀ e ∈ table.rows, e.keys ≠ []) := by
  obtain ⟨g, hg, hrows⟩ := rowsToTable_rows hV rows schema table h
  split_ifs at hrows with hnil
  · exact .inl ⟨hnil, hrows⟩
  · have hform : ∀ e, FormRow V e (g e) ∧ (g e).keys = e.keys := by
      intro e
      rcases hg with rfl | rfl
      · exact ⟨.refl e, rfl⟩
      · exact ⟨mapCells_form e, keys_tabulate _ _ _⟩
    rw [hrows, List.forall₂_map_right_iff]
    refine .inr ⟨(normalizeRows_form rows).imp fun r e hre => hre.trans (hform e).1, fun e he => ?_⟩
    obtain ⟨e', he', rfl⟩ := mem_map.1 he
    rwa [(hform e').2, keys_normalized rows e' he']

end Forms

end Langbridge.Runtime
