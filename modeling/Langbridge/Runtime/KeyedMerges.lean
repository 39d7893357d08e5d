/-
Incremental merges in a row (`runtime/services/dataset_sync_service.py`): the file of a dataset is read, rows are merged
into it under a key, and it is written again.

A row's identity is a text of its key columns. A column that mixes integers and floats is written as floats, which
changes the texts of its integers.
-/
import Langbridge.Runtime.ApiSync
import Langbridge.Runtime.RowForms

namespace Langbridge.Runtime.KeyedMerges

open Core List Dict

/-- the columns that the identity of a row is read from -/
def keyColumns (key : String) : List String :=
  if key = "_child_identity" then ["_parent_id", "_child_index"] else [key]

/-- no key of the rows is an integer in a column that is written as floats, and the rows have a column -/
def KeysStay (key : String) (rows : List Row) : Prop :=
  (rows = [] ∨ sortedColumns rows ≠ []) ∧
    ∀ r ∈ rows, (∀ c ∈ keyColumns key, (cellOf r c).isNull = false) → ∀ c ∈ keyColumns key,
      valueCategory (cellOf r c) = some .int →
        (∀ k ∈ categories rows c, k = .int) ∨ ∃ k ∈ categories rows c, k ≠ .int ∧ k ≠ .float

section Merges

variable [PyText] (V : Values) (key : String)

/-- a run of merges that are all fine: the rows that were given, and the file -/
inductive Merges (Fine : List Row → Prop) : List Row → Option ArrowTable → Prop where
  | start : Merges Fine [] none
  | merge {given new : List Row} {file : Option ArrowTable} {table : ArrowTable} : Merges Fine given file →
      Fine (mergeRows ((file.map ArrowTable.rows).getD []) new (some key) false) →
      materializeExisting V file new (some key) .incremental = some table → Merges Fine (given ++ new) (some table)

/-- every key once, with a form of the last row given for it, and the rows without a key -/
structure Holds (given stored : List Row) : Prop where
  once : (stored.filterMap (rowIdentity · key)).Nodup
  last : ∀ k, Option.Rel (FormRow V) (given.reverse.find? (rowIdentity · key = some k))
    (stored.find? (rowIdentity · key = some k))
  keyless : Forall₂ (FormRow V) (given.filter fun r => (rowIdentity r key).isNone)
    (stored.filter fun r => (rowIdentity r key).isNone)

variable {V key} {r e : Row} {rows given merged stored new : List Row}

/-! ## Writing a file -/

/-- a form of null is null -/
theorem null_of_form {w : Json} (h : Form V .null w) : w = .null := by
  induction h with
  | refl => rfl
  | float _ ih => cases ih
  | text _ hne ih => exact absurd ih hne

/-- a row with the values of the key columns, or with their texts, has the same identity -/
theorem rowIdentity_congr (hform : FormRow V r e)
    (h : (∀ c ∈ keyColumns key, (cellOf r c).isNull = false) →
      ∀ c ∈ keyColumns key, cellOf e c = cellOf r c ∨ cellOf e c = stringified (cellOf r c)) :
    rowIdentity e key = rowIdentity r key := by
  have hnull : ∀ c, cellOf r c = .null → cellOf e c = .null := by
    intro c hc
    have hcell := hform c
    rw [hc] at hcell
    exact null_of_form hcell
  by_cases hchild : key = "_child_identity"
  · rw [keyColumns, if_pos hchild] at h
    subst hchild
    simp only [rowIdentity, if_true, if_neg (by decide : "_child_identity" ≠ "_parent_id")]
    cases hp : cellOf r "_parent_id" with
    | null =>
      rw [hnull _ hp]
      rfl
    | _ =>
      cases hi : cellOf r "_child_index" with
      | null =>
        rw [hnull _ hi]
        cases cellOf e "_parent_id" <;> rfl
      | _ =>
        have hcells := h (by simp [hp, hi, Json.isNull])
        rcases hcells "_parent_id" (by simp) with hp' | hp' <;>
          rcases hcells "_child_index" (by simp) with hi' | hi' <;> rw [hp', hi', hp, hi] <;> rfl
  · rw [keyColumns, if_neg hchild] at h
    have htext : textOf (cellOf e key) = textOf (cellOf r key) := by
      cases hc : cellOf r key with
      | null => rw [hnull _ hc]
      | _ =>
        rcases h (by simp [hc, Json.isNull]) key mem_cons_self with h | h <;> rw [h, hc]
        rfl
    simp only [rowIdentity, if_neg hchild]
    split_ifs with hparent
    · rwa [hparent] at htext
    · exact htext

/-- a value of a column of which no key is written as a float -/
theorem normalizeValue_kept {cats : List Category} {v : Json}
    (h : valueCategory v = some .int → (∀ k ∈ cats, k = .int) ∨ ∃ k ∈ cats, k ≠ .int ∧ k ≠ .float) :
    normalizeValue V cats v = v ∨ normalizeValue V cats v = stringified v := by
  cases v with
  | null => exact .inl rfl
  | int i =>
    simp only [normalizeValue]
    split_ifs with hint hnum
    · exact .inl rfl
    · rw [all_eq_true] at hint hnum
      rcases h rfl with h | ⟨k, hk, hnot⟩
      · exact absurd (fun k hk => decide_eq_true (h k hk)) hint
      · exact absurd (of_decide_eq_true (hnum k hk)) (not_or.2 hnot)
    · exact .inl rfl
    · exact .inr rfl
  | _ =>
    simp only [normalizeValue]
    split_ifs <;> first | exact .inl rfl | exact .inr rfl

/-- the rows of a file that is written are forms of the rows, with their identities -/
theorem rowsToTable_identities (hV : ArrayKeeps V) {schema : Option (List String)} {table : ArrowTable}
    (h : rowsToTable V rows schema = some table) (hstay : KeysStay key rows) :
    Forall₂ (fun r e => FormRow V r e ∧ rowIdentity e key = rowIdentity r key) rows table.rows := by
  obtain ⟨g, hg, hrows⟩ := rowsToTable_rows hV rows schema table h
  by_cases hnil : sortedColumns rows = []
  · rw [hrows, if_pos hnil, hstay.1.resolve_right (not_not.2 hnil)]
    exact .nil
  have hforms := ((rowsToTable_forms hV rows schema table h).resolve_left fun hno => hnil hno.1).1
  rw [hrows, if_neg hnil, normalizeRowsForArrow, List.map_map, forall₂_map_right_iff, forall₂_same] at hforms ⊢
  intro r hr
  refine ⟨hforms r hr, rowIdentity_congr (hforms r hr) fun hcells c hc => ?_⟩
  have hmem : c ∈ sortedColumns rows := by
    refine (mem_sortedColumns rows c).2 ⟨r, hr, by_contra fun hno => ?_⟩
    have hcell := hcells c hc
    rw [cellOf_not_mem r c hno] at hcell
    cases hcell
  have hcell := normalizeValue_kept (V := V) (hstay.2 r hr hcells c hc)
  rcases hg with rfl | rfl
  · rwa [Function.comp, id, cellOf_tabulate _ _ _ c hmem]
  · right
    rw [Function.comp, mapCells, cellOf_tabulate _ _ _ c (by rwa [keys_tabulate]), cellOf_tabulate _ _ _ c hmem]
    rcases hcell with h | h <;> rw [h]
    cases cellOf r c <;> rfl

theorem forms_trans {rows' rows'' : List Row} (h : Forall₂ (FormRow V) rows rows')
    (h' : Forall₂ (FormRow V) rows' rows'') : Forall₂ (FormRow V) rows rows'' := by
  induction h generalizing rows'' with
  | nil => exact h'
  | cons hr _ ih =>
    cases h' with
    | cons hr' htail => exact .cons (hr.trans hr') (ih htail)

theorem found_trans {a b c : Option Row} (h : Option.Rel (FormRow V) a b) (h' : Option.Rel (FormRow V) b c) :
    Option.Rel (FormRow V) a c := by
  cases h with
  | none => exact h'
  | some h =>
    cases h' with
    | some h' => exact .some (h.trans h')

/-- what is read of rows and of the rows of their file -/
theorem kept_parts (hkept : Forall₂ (fun r e => FormRow V r e ∧ rowIdentity e key = rowIdentity r key) merged stored) :
    stored.filterMap (rowIdentity · key) = merged.filterMap (rowIdentity · key) ∧
      (∀ k, Option.Rel (FormRow V) (merged.find? (rowIdentity · key = some k))
        (stored.find? (rowIdentity · key = some k))) ∧
      Forall₂ (FormRow V) (merged.filter fun r => (rowIdentity r key).isNone)
        (stored.filter fun r => (rowIdentity r key).isNone) := by
  induction hkept with
  | nil => exact ⟨rfl, fun _ => .none, .nil⟩
  | cons hr _ ih =>
    simp only [filterMap_cons, find?_cons, filter_cons, hr.2]
    refine ⟨by rw [ih.1], fun k => ?_, ?_⟩
    · split
      · exact .some hr.1
      · exact ih.2.1 k
    · split_ifs
      · exact .cons hr.1 ih.2.2
      · exact ih.2.2

/-- a file that is written holds what its rows do -/
theorem Holds.written (h : Holds V key given merged)
    (hkept : Forall₂ (fun r e => FormRow V r e ∧ rowIdentity e key = rowIdentity r key) merged stored) :
    Holds V key given stored := by
  obtain ⟨hkeys, hfound, hkeyless⟩ := kept_parts hkept
  exact ⟨hkeys ▸ h.once, fun k => found_trans (h.last k) (hfound k), forms_trans h.keyless hkeyless⟩

/-! ## Merging -/

/-- the rows that are upserted stand under their identities -/
theorem identity_of_entry (rows : List Row) :
    ∀ e ∈ (upsert (mergeKey key) (rows.filter fun r => (rowIdentity r key).isSome)).entries,
      rowIdentity e.2 key = some e.1 := by
  intro e he
  obtain ⟨hmem, hkey⟩ := upsert_key _ _ e.1 e.2 ((get?_eq_some_iff _ _ _).2 he)
  obtain ⟨k, hk⟩ := Option.isSome_iff_exists.1 (mem_filter.1 hmem).2
  rw [mergeKey, hk] at hkey
  rw [hk, ← hkey]
  rfl

theorem find?_entries (k : String) {l : List (String × Row)} (h : ∀ e ∈ l, rowIdentity e.2 key = some e.1) :
    (l.map Prod.snd).find? (rowIdentity · key = some k) = l.lookup k := by
  induction l with
  | nil => rfl
  | cons e l ih =>
    obtain ⟨a, r⟩ := e
    rw [map_cons, find?_cons, h _ mem_cons_self, ih fun e he => h e (mem_cons_of_mem _ he)]
    by_cases hk : k = a
    · simp [hk]
    · simp [lookup_cons_ne hk, Ne.symm hk]

/-- a row of a merge is the last one of its key -/
theorem find?_mergeRows (hkey : key ≠ "") (rows new : List Row) (k : String) :
    (mergeRows rows new (some key) false).find? (rowIdentity · key = some k) =
      (rows ++ new).reverse.find? (rowIdentity · key = some k) := by
  have hnone :
      ((rows ++ new).filter fun r => (rowIdentity r key).isNone).find? (rowIdentity · key = some k) = none := by
    rw [find?_eq_none]
    intro r hr
    simp [Option.isNone_iff_eq_none.1 (mem_filter.1 hr).2]
  rw [mergeRows_key _ _ _ hkey, find?_append, hnone, Option.or_none, values, find?_entries k (identity_of_entry _)]
  change (upsert _ _).get? k = _
  rw [get?_upsert, ← filter_reverse, find?_filter]
  congr 1
  funext r
  cases hr : rowIdentity r key <;> simp [mergeKey, hr]

/-- where every key stands once, its last row is the first one -/
theorem find?_reverse (h : (stored.filterMap (rowIdentity · key)).Nodup) (k : String) :
    stored.reverse.find? (rowIdentity · key = some k) = stored.find? (rowIdentity · key = some k) := by
  induction stored with
  | nil => rfl
  | cons r rows ih =>
    rw [reverse_cons, find?_append, find?_cons]
    by_cases hr : rowIdentity r key = some k
    · have hnone : rows.reverse.find? (rowIdentity · key = some k) = none := by
        simp only [filterMap_cons, hr, nodup_cons] at h
        rw [find?_eq_none]
        intro r' hr' hk
        exact h.1 (mem_filterMap.2 ⟨r', mem_reverse.1 hr', of_decide_eq_true hk⟩)
      simp [hnone, hr]
    · have hrows : (rows.filterMap (rowIdentity · key)).Nodup := h.sublist ((sublist_cons_self r rows).filterMap _)
      simp [ih hrows, hr]

/-- what a file holds of the rows given, it holds after a merge -/
theorem Holds.merge (hkey : key ≠ "") (h : Holds V key given stored) (new : List Row) :
    Holds V key (given ++ new) (mergeRows stored new (some key) false) where
  once := by
    have hnone : ((stored ++ new).filter fun r => (rowIdentity r key).isNone).filterMap (rowIdentity · key) = [] :=
      filterMap_eq_nil_iff.2 fun r hr => Option.isNone_iff_eq_none.1 (mem_filter.1 hr).2
    rw [mergeRows_key _ _ _ hkey, filterMap_append, hnone, append_nil, values, filterMap_map]
    have hkeys := filterMap_congr (@identity_of_entry _ key (stored ++ new))
    rw [Function.comp_def, hkeys, filterMap_eq_map']
    exact keys_nodup _
  last k := by
    rw [find?_mergeRows hkey, reverse_append, reverse_append, find?_append, find?_append, find?_reverse h.once]
    cases new.reverse.find? _ with
    | none => exact h.last k
    | some r => exact .some (.refl r)
  keyless := by
    have hnil : (upsert (mergeKey key) ((stored ++ new).filter fun r => (rowIdentity r key).isSome)).values.filter
        (fun r => (rowIdentity r key).isNone) = [] := by
      rw [filter_eq_nil_iff]
      intro r hr
      obtain ⟨e, he, rfl⟩ := mem_map.1 hr
      simp [identity_of_entry _ e he]
    rw [filter_append, mergeRows_key _ _ _ hkey, filter_append, hnil, nil_append, filter_filter, filter_append]
    simp only [Bool.and_self]
    exact rel_append h.keyless (forall₂_same.2 fun r _ => .refl r)

theorem Merges.holds (hV : ArrayKeeps V) (hkey : key ≠ "") {file : Option ArrowTable}
    (h : Merges V key (KeysStay key) given file) : Holds V key given ((file.map ArrowTable.rows).getD []) := by
  induction h with
  | start => exact ⟨nodup_nil, fun _ => .none, .nil⟩
  | merge _ hstay hmade ih => exact (ih.merge hkey _).written (rowsToTable_identities hV hmade hstay)

/-- **Merges in a row.** In every run of merges none of which writes a key as a float, the file holds the last row given
for every key, once, and the rows without a key. -/
theorem merges_hold (V : Values) (hV : ArrayKeeps V) (key : String) (hkey : key ≠ "") (given : List Row)
    (file : Option ArrowTable) (h : Merges V key (KeysStay key) given file) :
    Holds V key given ((file.map ArrowTable.rows).getD []) := h.holds hV hkey

/-- **Rows given again.** When such a run ends with rows that it was given just before, as by a sync that is repeated,
the file holds what it held if and only if each of them has a key. -/
theorem redelivery_iff (V : Values) (hV : ArrayKeeps V) (key : String) (hkey : key ≠ "") (given again : List Row)
    (file : Option ArrowTable) (h : Merges V key (KeysStay key) (given ++ again ++ again) file) :
    Holds V key (given ++ again) ((file.map ArrowTable.rows).getD []) ↔ ∀ r ∈ again, (rowIdentity r key).isSome := by
  have hheld := h.holds hV hkey
  constructor
  · intro hsame r hr
    have hlength := hsame.keyless.length_eq.trans hheld.keyless.length_eq.symm
    simp only [filter_append, length_append] at hlength
    have hnone : again.filter (fun r => (rowIdentity r key).isNone) = [] := by
      apply length_eq_zero_iff.1
      omega
    simpa [← Option.isSome_iff_ne_none] using filter_eq_nil_iff.1 hnone r hr
  · intro hkeyed
    have hnone : again.filter (fun r => (rowIdentity r key).isNone) = [] := by
      simpa [filter_eq_nil_iff, ← Option.isSome_iff_ne_none] using hkeyed
    refine ⟨hheld.once, fun k => ?_, ?_⟩
    · have hlast := hheld.last k
      simp only [reverse_append, find?_append] at hlast ⊢
      cases hfound : again.reverse.find? (rowIdentity · key = some k) <;> simpa [hfound] using hlast
    · simpa [filter_append, hnone] using hheld.keyless

end Merges

section Mixed

open scoped Ascii

def keyed (id : Json) : Row := Dict.empty.set "id" id

/-- a merge into a file -/
def mergedInto (file : Option ArrowTable) (ids : List Json) : Option ArrowTable :=
  materializeExisting plainValues file (ids.map keyed) (some "id") .incremental

/-- two merges, of integers and texts as keys and of a row without one -/
theorem merges_hold_mixed : ∃ first second, mergedInto none [.int 1, .null] = some first ∧
    mergedInto (some first) [.str "a", .int 1] = some second ∧
    Holds plainValues "id" ([.int 1, .null, .str "a", .int 1].map keyed) second.rows := by
  obtain ⟨first, second, hfirst, hsecond, hstay, hstay'⟩ : ∃ first second,
      mergedInto none [.int 1, .null] = some first ∧ mergedInto (some first) [.str "a", .int 1] = some second ∧
        KeysStay "id" (mergeRows [] ([.int 1, .null].map keyed) (some "id") false) ∧
        KeysStay "id" (mergeRows first.rows ([.str "a", .int 1].map keyed) (some "id") false) := by
    refine ⟨_, _, rfl, rfl, ?_, ?_⟩ <;> unfold KeysStay <;> decide +kernel
  exact ⟨first, second, hfirst, hsecond, merges_hold plainValues (fun _ _ _ hf _ _ => by cases hf; rfl) "id" (by decide)
    _ _ (.merge (.merge .start hstay hfirst) hstay' hsecond)⟩

/-- a row is merged twice -/
theorem redelivery_iff_twice : ∃ table,
    Merges plainValues "id" (KeysStay "id") [keyed (.int 1), keyed (.int 1)] (some table) ∧
      Holds plainValues "id" [keyed (.int 1)] table.rows := by
  obtain ⟨table, h⟩ : ∃ table, Merges plainValues "id" (KeysStay "id") ([] ++ [keyed (.int 1)] ++ [keyed (.int 1)])
      (some table) := by
    refine ⟨_, .merge (.merge .start ?_ rfl) ?_ rfl⟩ <;> unfold KeysStay <;> decide +kernel
  exact ⟨table, h, (redelivery_iff plainValues (fun _ _ _ hf _ _ => by cases hf; rfl) "id" (by decide) []
    [keyed (.int 1)] _ h).2 (by decide +kernel)⟩

/-- **A key is stored twice.** The key 1 is written as 1.0 beside 2.5, and comes again. -/
theorem key_stored_twice : ¬∀ given table, Merges plainValues "id" (fun _ => True) given (some table) →
    Holds plainValues "id" given table.rows := by
  intro h
  obtain ⟨first, second, third, hfirst, hsecond, hthird, hkeys⟩ : ∃ first second third,
      mergedInto none [.int 1] = some first ∧ mergedInto (some first) [.float "2.5"] = some second ∧
        mergedInto (some second) [.int 1] = some third ∧
        third.rows.filterMap (rowIdentity · "id") = ["1.0", "2.5", "1.0"] := ⟨_, _, _, rfl, rfl, rfl, by decide +kernel⟩
  have honce := (h _ _ (.merge (.merge (.merge .start trivial hfirst) trivial hsecond) trivial hthird)).once
  rw [hkeys] at honce
  revert honce
  decide

end Mixed

end Langbridge.Runtime.KeyedMerges
