/-
Upserts: rows stored under their keys, a later row replacing an earlier one of its key.

`upsert_perm` is the law of incremental loads: a store whose keys are those of the source, brought up to date with some
rows of the source, is the source as soon as every row that was not brought is already stored as it is.
-/
import Langbridge.Core.Dict

namespace Langbridge.Core

open List Dict

variable {K R : Type} [DecidableEq K] (key : R → K)

def upsert (rows : List R) : Dict K R := rows.foldl (fun d r => d.set (key r) r) Dict.empty

theorem foldl_set_get? (rows : List R) (d : Dict K R) (k : K) :
    (rows.foldl (fun d r => d.set (key r) r) d).get? k =
      (rows.reverse.find? fun r => key r = k).or (d.get? k) := by
  induction rows generalizing d with
  | nil => simp
  | cons r rows ih =>
    rw [foldl_cons, ih, reverse_cons, find?_append, get?_set, Option.or_assoc]
    by_cases h : k = key r
    · subst h
      simp
    · simp [h, Ne.symm h]

theorem get?_upsert (rows : List R) (k : K) :
    (upsert key rows).get? k = rows.reverse.find? fun r => key r = k := by
  rw [upsert, foldl_set_get?, get?_empty, Option.or_none]

theorem upsert_key (rows : List R) (k : K) (r : R) (h : (upsert key rows).get? k = some r) : r ∈ rows ∧ key r = k := by
  rw [get?_upsert] at h
  refine ⟨mem_reverse.1 (mem_of_find?_eq_some h), ?_⟩
  simpa using find?_some h

/-- rows with keys of their own are found under them -/
theorem find?_key_iff {rows : List R} (h : (rows.map key).Nodup) (k : K) (r : R) :
    (rows.find? fun r' => key r' = k) = some r ↔ r ∈ rows ∧ key r = k := by
  constructor
  · intro hfind
    exact ⟨mem_of_find?_eq_some hfind, by simpa using find?_some hfind⟩
  · rintro ⟨hr, rfl⟩
    obtain ⟨r', hfind⟩ := Option.isSome_iff_exists.1 (find?_isSome.2 ⟨r, hr, decide_eq_true rfl⟩ :
      (rows.find? fun r' => key r' = key r).isSome = true)
    have hkey : key r' = key r := by simpa using find?_some hfind
    rw [hfind, inj_on_of_nodup_map h (mem_of_find?_eq_some hfind) hr hkey]

theorem get?_upsert_iff {rows : List R} (h : (rows.map key).Nodup) (k : K) (r : R) :
    (upsert key rows).get? k = some r ↔ r ∈ rows ∧ key r = k := by
  rw [get?_upsert, find?_key_iff key (by rwa [map_reverse, nodup_reverse]), mem_reverse]

/-- the rows of a store have its keys -/
theorem map_key_upsert (rows : List R) : (upsert key rows).values.map key = (upsert key rows).keys := by
  rw [Dict.values, Dict.keys, List.map_map]
  refine map_congr_left fun e he => ?_
  exact (upsert_key key rows e.1 e.2 ((get?_eq_some_iff _ _ _).2 he)).2

theorem mem_values_upsert (rows : List R) (r : R) :
    r ∈ (upsert key rows).values ↔ (rows.reverse.find? fun r' => key r' = key r) = some r := by
  rw [mem_values]
  constructor
  · rintro ⟨k, hk⟩
    obtain rfl := (upsert_key key rows k r hk).2
    rwa [get?_upsert] at hk
  · intro h
    exact ⟨key r, by rwa [get?_upsert]⟩

def merged (rows : List R) (table : Dict K R) : Dict K R := rows.foldl (fun d r => d.set (key r) r) table

theorem get?_merged (rows : List R) (table : Dict K R) (k : K) :
    (merged key rows table).get? k = (rows.reverse.find? fun r => key r = k).or (table.get? k) :=
  foldl_set_get? key rows table k

/-- the last row of a key, when there is one -/
theorem find?_key_isSome (rows : List R) (k : K) :
    (rows.reverse.find? fun r => key r = k).isSome = true ↔ k ∈ rows.map key := by
  simp [find?_isSome]

theorem get?_merged_of_not_mem (rows : List R) (table : Dict K R) {k : K} (h : k ∉ rows.map key) :
    (merged key rows table).get? k = table.get? k := by
  have hnone : (rows.reverse.find? fun r => key r = k) = none := by
    rw [← Option.not_isSome_iff_eq_none, find?_key_isSome]
    exact h
  rw [get?_merged, hnone, Option.none_or]

theorem get?_merged_of_mem (rows : List R) (table : Dict K R) {k : K} (h : k ∈ rows.map key) :
    ∃ r ∈ rows, key r = k ∧ (merged key rows table).get? k = some r := by
  obtain ⟨r, hr⟩ := Option.isSome_iff_exists.1 ((find?_key_isSome key rows k).2 h)
  refine ⟨r, mem_reverse.1 (mem_of_find?_eq_some hr), by simpa using find?_some hr, ?_⟩
  rw [get?_merged, hr, Option.some_or]

/-- a row of the table after a merge is a merged one, or one that was there and has a key of its own -/
theorem merged_cases (rows : List R) (table : Dict K R) {k : K} {r : R} (h : (merged key rows table).get? k = some r) :
    (r ∈ rows ∧ key r = k) ∨ (k ∉ rows.map key ∧ table.get? k = some r) := by
  by_cases hk : k ∈ rows.map key
  · obtain ⟨r', hr', hkey, hget⟩ := get?_merged_of_mem key rows table hk
    rw [hget] at h
    cases h
    exact .inl ⟨hr', hkey⟩
  · rw [get?_merged_of_not_mem key rows table hk] at h
    exact .inr ⟨hk, h⟩

/-- a second merge over the same keys undoes the first -/
theorem get?_merged_merged (rows rows' : List R) (table : Dict K R) (hkeys : rows.map key = rows'.map key) (k : K) :
    (merged key rows' (merged key rows table)).get? k = (merged key rows' table).get? k := by
  by_cases hk : k ∈ rows'.map key
  · obtain ⟨r, hr⟩ := Option.isSome_iff_exists.1 ((find?_key_isSome key rows' k).2 hk)
    rw [get?_merged, get?_merged key rows' table, hr, Option.some_or, Option.some_or]
  · rw [get?_merged_of_not_mem key rows' _ hk, get?_merged_of_not_mem key rows' _ hk,
      get?_merged_of_not_mem key rows _ (hkeys ▸ hk)]

section Replaced

variable {O : Type} [DecidableEq O] (owner : R → O) (owners : List O)

/-- the rows of some owners, deleted and written anew -/
def replaced (rows : List R) (table : Dict K R) : Dict K R :=
  merged key rows (table.filter fun r => owner r ∉ owners)

variable {key owner owners} {rows rows' : List R} {table : Dict K R} {k : K} {r : R}

theorem replaced_cases (h : (replaced key owner owners rows table).get? k = some r) :
    (r ∈ rows ∧ key r = k) ∨ (k ∉ rows.map key ∧ table.get? k = some r ∧ owner r ∉ owners) := by
  rcases merged_cases key rows _ h with h | ⟨hk, h⟩
  · exact .inl h
  · rw [get?_filter_iff] at h
    exact .inr ⟨hk, h.1, of_decide_eq_true h.2⟩

theorem get?_replaced_other_iff (hrows : ∀ r ∈ rows, owner r ∈ owners) (howner : owner r ∉ owners)
    (hk : table.get? k = some r → k ∉ rows.map key) :
    (replaced key owner owners rows table).get? k = some r ↔ table.get? k = some r := by
  constructor
  · intro h
    rcases replaced_cases h with ⟨hr, _⟩ | ⟨_, h, _⟩
    · exact absurd (hrows r hr) howner
    · exact h
  · intro h
    rw [replaced, get?_merged_of_not_mem key rows _ (hk h), get?_filter_iff]
    exact ⟨h, decide_eq_true howner⟩

/-- a second replacement undoes the first -/
theorem get?_replaced_replaced (hrows : ∀ r ∈ rows, owner r ∈ owners)
    (hfresh : ∀ k r, table.get? k = some r → owner r ∉ owners → k ∉ rows.map key) (k : K) :
    (replaced key owner owners rows' (replaced key owner owners rows table)).get? k =
      (replaced key owner owners rows' table).get? k := by
  by_cases hk : k ∈ rows'.map key
  · obtain ⟨r, hr⟩ := Option.isSome_iff_exists.1 ((find?_key_isSome key rows' k).2 hk)
    have hlast : ∀ table : Dict K R, (replaced key owner owners rows' table).get? k = some r := by
      intro table
      rw [replaced, get?_merged, hr, Option.some_or]
    rw [hlast, hlast]
  · have hkept : ∀ (table : Dict K R) (r : R), (replaced key owner owners rows' table).get? k = some r ↔
        table.get? k = some r ∧ owner r ∉ owners := by
      intro table r
      rw [replaced, get?_merged_of_not_mem key rows' _ hk, get?_filter_iff, decide_eq_true_eq]
    refine Option.ext fun r => ?_
    rw [hkept, hkept]
    constructor
    · rintro ⟨h, howner⟩
      exact ⟨(get?_replaced_other_iff hrows howner fun h => hfresh k r h howner).1 h, howner⟩
    · rintro ⟨h, howner⟩
      exact ⟨(get?_replaced_other_iff hrows howner fun h => hfresh k r h howner).2 h, howner⟩

end Replaced

variable {key}

theorem mem_values_upsert_of_nodup (rows : List R) (h : (rows.map key).Nodup) (r : R) :
    r ∈ (upsert key rows).values ↔ r ∈ rows := by
  rw [mem_values_upsert]
  constructor
  · intro hr
    exact mem_reverse.1 (mem_of_find?_eq_some hr)
  · intro hr
    cases hf : rows.reverse.find? fun r' => key r' = key r with
    | none =>
      have hnone := find?_eq_none.1 hf r (mem_reverse.2 hr)
      simp at hnone
    | some r' =>
      have hmem : r' ∈ rows := mem_reverse.1 (mem_of_find?_eq_some hf)
      have hkey : key r' = key r := by simpa using find?_some hf
      rw [inj_on_of_nodup_map h hmem hr hkey]

theorem upsert_perm_of_nodup (rows : List R) (h : (rows.map key).Nodup) : (upsert key rows).values.Perm rows := by
  have hvalues : (upsert key rows).values.Nodup := by
    refine Nodup.of_map key ?_
    rw [map_key_upsert]
    exact (upsert key rows).nodup
  rw [perm_ext_iff_of_nodup hvalues h.of_map]
  exact mem_values_upsert_of_nodup rows h

/-- **Upserts.** A store with keys of the source, brought up to date with rows of the source, is the source when every
row that was not brought is stored; `f` is the form in which rows are stored. -/
theorem upsert_perm (stored new source : List R) (f : R → R) (hkey : ∀ r ∈ stored ++ source, key (f r) = key r)
    (hsource : (source.map key).Nodup) (hnew : ∀ r ∈ new, r ∈ source) (hstored : (stored.map key).Nodup)
    (hkeys : ∀ e ∈ stored, ∃ s ∈ source, key e = key s) (hform : ∀ e ∈ stored, f e = e)
    (hall : ∀ s ∈ source, s ∈ new ∨ f s ∈ stored) :
    ((upsert key (stored ++ new)).values.map f).Perm (source.map f) := by
  have hmem : ∀ r ∈ (upsert key (stored ++ new)).values, r ∈ stored ++ source := by
    intro r hr
    obtain ⟨k, hk⟩ := (mem_values _ _).1 hr
    rcases mem_append.1 (upsert_key key _ k r hk).1 with h | h
    · exact mem_append_left _ h
    · exact mem_append_right _ (hnew r h)
  have hnodup : ((upsert key (stored ++ new)).values.map f).Nodup := by
    refine Nodup.of_map key ?_
    have hmap : ((upsert key (stored ++ new)).values.map f).map key = (upsert key (stored ++ new)).keys := by
      rw [← map_key_upsert, List.map_map]
      exact map_congr_left fun r hr => hkey r (hmem r hr)
    rw [hmap]
    exact (upsert key (stored ++ new)).nodup
  have hnodup' : (source.map f).Nodup := by
    refine Nodup.of_map key ?_
    have hmap : (source.map f).map key = source.map key := by
      rw [List.map_map]
      exact map_congr_left fun r hr => hkey r (mem_append_right _ hr)
    rwa [hmap]
  rw [perm_ext_iff_of_nodup hnodup hnodup']
  intro x
  rw [mem_map, mem_map]
  constructor
  · rintro ⟨r, hr, rfl⟩
    rw [mem_values_upsert, reverse_append, find?_append] at hr
    cases hn : new.reverse.find? fun r' => key r' = key r with
    | some n =>
      rw [hn, Option.some_or] at hr
      obtain rfl := Option.some.inj hr
      exact ⟨n, hnew n (mem_reverse.1 (mem_of_find?_eq_some hn)), rfl⟩
    | none =>
      rw [hn, Option.none_or] at hr
      have hr : r ∈ stored := mem_reverse.1 (mem_of_find?_eq_some hr)
      obtain ⟨s, hs, hrs⟩ := hkeys r hr
      rcases hall s hs with h | h
      · have hne := find?_eq_none.1 hn s (mem_reverse.2 h)
        simp [hrs] at hne
      · -- the stored row of this key is the source's
        have hfs : key (f s) = key r := by rw [hkey s (mem_append_right _ hs), hrs]
        have heq : f s = r := inj_on_of_nodup_map hstored h hr hfs
        exact ⟨s, hs, by rw [heq, hform r hr]⟩
  · rintro ⟨s, hs, rfl⟩
    cases hn : new.reverse.find? fun r' => key r' = key s with
    | some n =>
      have hmem : n ∈ source := hnew n (mem_reverse.1 (mem_of_find?_eq_some hn))
      have hns : n = s := inj_on_of_nodup_map hsource hmem hs (by simpa using find?_some hn)
      refine ⟨s, ?_, rfl⟩
      rw [mem_values_upsert, reverse_append, find?_append, hn, hns]
      rfl
    | none =>
      have hst : f s ∈ stored := by
        refine (hall s hs).resolve_left fun h => ?_
        have hne := find?_eq_none.1 hn s (mem_reverse.2 h)
        simp at hne
      have hfs : key (f s) = key s := hkey s (mem_append_right _ hs)
      refine ⟨f s, ?_, hform _ hst⟩
      have hst' := (mem_values_upsert_of_nodup stored hstored (f s)).2 hst
      rw [mem_values_upsert] at hst' ⊢
      rw [reverse_append, find?_append, hfs, hn, Option.none_or]
      rwa [hfs] at hst'

end Langbridge.Core
