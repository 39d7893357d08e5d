/-
SQL aliases of a workspace's datasets (`runtime/services/sql_query_service.py`): the datasets are put in the order of
their names, and one after another gets its normalised alias or, where that is used, the first numbered one that is
free.
-/
import Langbridge.Core.Numbering
import Langbridge.Runtime.MetadataStore

namespace Langbridge.Runtime.FederatedAliases

open Core List

/-- what the aliases are made of -/
structure FederatedDataset where
  id : String
  name : String
  sqlAlias : String
  deriving DecidableEq

/-- `f"{base_alias}_{suffix}"`, where the suffixes begin with 2 -/
def numbered (baseAlias : String) : ℕ → String
  | 0 => baseAlias
  | k + 1 => baseAlias ++ "_" ++ toString (k + 2)

section Aliases

variable [PyText]

/-- `_normalize_dataset_sql_alias` of the alias or else the name -/
def normalizeDatasetSqlAlias (d : FederatedDataset) : String :=
  Metadata.datasetSqlAlias (if d.sqlAlias = "" then d.name else d.sqlAlias)

def deriveFederatedSqlAliases (aliases : Dict String String) (usedAliases : List String) :
    List FederatedDataset → Dict String String
  | [] => aliases
  | d :: ds =>
    let alias' := Numbering.next numbered usedAliases (normalizeDatasetSqlAlias d)
    deriveFederatedSqlAliases (aliases.set d.id alias') (usedAliases ++ [alias']) ds

def sortKey (d : FederatedDataset) : String := PyText.lower (PyText.strip d.name)

def Before (a b : FederatedDataset) : Prop := sortKey a ≤ sortKey b ∧ (sortKey a = sortKey b → a.id ≤ b.id)

instance (a b : FederatedDataset) : Decidable (Before a b) := inferInstanceAs (Decidable (_ ∧ _))

def orderedDatasets (datasets : List FederatedDataset) : List FederatedDataset := datasets.insertionSort Before

/-- the aliases of `_resolve_federated_datasets` -/
def sqlAliases (datasets : List FederatedDataset) : Dict String String :=
  deriveFederatedSqlAliases Dict.empty [] (orderedDatasets datasets)

/-- the datasets of a workspace that can be federated, in some order -/
structure Eligible where
  datasets : List FederatedDataset
  ids : (datasets.map FederatedDataset.id).Nodup

def aliasOf (w : Eligible) (d : FederatedDataset) : Option String := (sqlAliases w.datasets).get? d.id

/-- no other dataset has the normalised alias -/
def Unshared (datasets : List FederatedDataset) (d : FederatedDataset) : Prop :=
  ∀ d' ∈ datasets, normalizeDatasetSqlAlias d' = normalizeDatasetSqlAlias d → d' = d

instance (datasets : List FederatedDataset) (d : FederatedDataset) : Decidable (Unshared datasets d) :=
  inferInstanceAs (Decidable (∀ d' ∈ datasets, _))

/-- what the aliases should be -/
structure WellBound (w : Eligible) : Prop where
  bound : ∀ d ∈ w.datasets, (aliasOf w d).isSome = true
  different : ∀ d ∈ w.datasets, ∀ d' ∈ w.datasets, aliasOf w d = aliasOf w d' → d = d'
  own : ∀ d ∈ w.datasets, Unshared w.datasets d → aliasOf w d = some (normalizeDatasetSqlAlias d)
  stable : ∀ w' : Eligible, w'.datasets.Perm w.datasets → ∀ d ∈ w.datasets, aliasOf w' d = aliasOf w d

def aliasesBefore (before : List FederatedDataset) : List String :=
  Numbering.names numbered [] (before.map normalizeDatasetSqlAlias)

/-- the datasets before one that shares its alias with none have not been given its alias -/
def OwnFree (w : Eligible) : Prop :=
  ∀ before d after, orderedDatasets w.datasets = before ++ d :: after → Unshared w.datasets d →
    normalizeDatasetSqlAlias d ∉ aliasesBefore before

end Aliases

/-! ## Numbered aliases -/

theorem numbered_injective (baseAlias : String) : Function.Injective (numbered baseAlias) := by
  have hne : ∀ k, numbered baseAlias (k + 1) ≠ baseAlias := by
    intro k h
    have hlength := congrArg String.length h
    rw [numbered, String.length_append, String.length_append] at hlength
    have hone : "_".length = 1 := rfl
    omega
  intro j k h
  rcases j with _ | j <;> rcases k with _ | k
  · rfl
  · exact absurd h.symm (hne k)
  · exact absurd h (hne j)
  · have htext : toString (j + 2) = toString (k + 2) := (String.append_right_inj _).1 h
    have hnumber := toString_nat_injective htext
    omega

section Aliases

variable [PyText]

/-! ## The order -/

theorem ordered_perm (datasets : List FederatedDataset) : (orderedDatasets datasets).Perm datasets :=
  perm_insertionSort Before datasets

theorem before_total (a b : FederatedDataset) : Before a b ∨ Before b a := by
  by_cases hkey : sortKey a = sortKey b
  · rcases String.le_total a.id b.id with hid | hid
    · exact .inl ⟨hkey ▸ String.le_refl _, fun _ => hid⟩
    · exact .inr ⟨hkey ▸ String.le_refl _, fun _ => hid⟩
  · rcases String.le_total (sortKey a) (sortKey b) with h | h
    · exact .inl ⟨h, fun heq => absurd heq hkey⟩
    · exact .inr ⟨h, fun heq => absurd heq.symm hkey⟩

theorem before_trans {a b c : FederatedDataset} (hab : Before a b) (hbc : Before b c) : Before a c := by
  refine ⟨String.le_trans hab.1 hbc.1, fun heq => ?_⟩
  -- the key between equal ones is equal to them
  have hba : sortKey a = sortKey b := String.le_antisymm hab.1 (heq ▸ hbc.1)
  exact String.le_trans (hab.2 hba) (hbc.2 (hba.symm.trans heq))

theorem before_antisymm {a b : FederatedDataset} (hab : Before a b) (hba : Before b a) : a.id = b.id := by
  have hkey := String.le_antisymm hab.1 hba.1
  exact String.le_antisymm (hab.2 hkey) (hba.2 hkey.symm)

/-- datasets with different ids have one order -/
theorem ordered_eq_of_perm {w w' : Eligible} (h : w'.datasets.Perm w.datasets) :
    orderedDatasets w'.datasets = orderedDatasets w.datasets := by
  have : Std.Total (Before) := ⟨before_total⟩
  have : IsTrans FederatedDataset Before := ⟨fun _ _ _ => before_trans⟩
  have hsorted : ∀ datasets : List FederatedDataset, (orderedDatasets datasets).Pairwise Before :=
    fun datasets => pairwise_insertionSort Before datasets
  have hperm : (orderedDatasets w'.datasets).Perm (orderedDatasets w.datasets) :=
    (ordered_perm w'.datasets).trans (h.trans (ordered_perm w.datasets).symm)
  refine Perm.eq_of_pairwise (fun a b ha hb hab hba => ?_) (hsorted _) (hsorted _) hperm
  have ha' : a ∈ w.datasets := h.mem_iff.1 ((ordered_perm _).mem_iff.1 ha)
  have hb' : b ∈ w.datasets := (ordered_perm _).mem_iff.1 hb
  exact inj_on_of_nodup_map w.ids ha' hb' (before_antisymm hab hba)

/-! ## The aliases -/

/-- what is derived for others leaves an alias -/
theorem get?_derive_of_not_mem (aliases : Dict String String) (usedAliases : List String) (ds : List FederatedDataset)
    (id : String) (h : id ∉ ds.map FederatedDataset.id) :
    (deriveFederatedSqlAliases aliases usedAliases ds).get? id = aliases.get? id := by
  induction ds generalizing aliases usedAliases with
  | nil => rfl
  | cons d ds ih =>
    rw [map_cons, mem_cons, not_or] at h
    rw [deriveFederatedSqlAliases, ih _ _ h.2, Dict.get?_set_of_ne _ _ h.1]

theorem get?_derive (aliases : Dict String String) (usedAliases : List String) (before after : List FederatedDataset)
    (d : FederatedDataset) (h : ((before ++ d :: after).map FederatedDataset.id).Nodup) :
    (deriveFederatedSqlAliases aliases usedAliases (before ++ d :: after)).get? d.id =
      some (Numbering.next numbered
        (usedAliases ++ Numbering.names numbered usedAliases (before.map normalizeDatasetSqlAlias))
        (normalizeDatasetSqlAlias d)) := by
  induction before generalizing aliases usedAliases with
  | nil =>
    rw [nil_append, map_cons, nodup_cons] at h
    rw [nil_append, deriveFederatedSqlAliases, get?_derive_of_not_mem _ _ _ _ h.1, Dict.get?_set_self,
      map_nil, Numbering.names, append_nil]
  | cons c before ih =>
    rw [cons_append, map_cons, nodup_cons] at h
    rw [cons_append, deriveFederatedSqlAliases, ih _ _ h.2, map_cons, Numbering.names, append_assoc,
      singleton_append]

theorem ordered_ids (w : Eligible) : ((orderedDatasets w.datasets).map FederatedDataset.id).Nodup :=
  ((ordered_perm w.datasets).map _).nodup_iff.2 w.ids

theorem aliasOf_eq (w : Eligible) {before after : List FederatedDataset} {d : FederatedDataset}
    (h : orderedDatasets w.datasets = before ++ d :: after) :
    aliasOf w d = some (Numbering.next numbered (aliasesBefore before) (normalizeDatasetSqlAlias d)) := by
  have hids := ordered_ids w
  rw [h] at hids
  rw [aliasOf, sqlAliases, h, get?_derive _ _ _ _ _ hids, nil_append, aliasesBefore]

theorem aliases_eq (w : Eligible) :
    (orderedDatasets w.datasets).map (aliasOf w) = (aliasesBefore (orderedDatasets w.datasets)).map some := by
  have hprefix : ∀ before after, orderedDatasets w.datasets = before ++ after →
      before.map (aliasOf w) = (aliasesBefore before).map some := by
    intro before
    induction before using List.reverseRecOn with
    | nil => exact fun _ _ => rfl
    | append_singleton before d ih =>
      intro after h
      rw [append_assoc, singleton_append] at h
      rw [map_append, ih _ h, map_singleton, aliasOf_eq w h, aliasesBefore, aliasesBefore, map_append,
        Numbering.names_append, map_append]
      rfl
  exact hprefix _ [] (append_nil _).symm

/-- **Aliases.** The aliases of a workspace are as they should be if and only if no dataset that shares its alias with
none comes after one that was given it as a numbered alias. -/
theorem wellBound_iff (w : Eligible) : WellBound w ↔ OwnFree w := by
  have hsplit : ∀ d ∈ w.datasets, ∃ before after, orderedDatasets w.datasets = before ++ d :: after :=
    fun d hd => append_of_mem ((ordered_perm w.datasets).mem_iff.2 hd)
  have hplain : ∀ before d after, orderedDatasets w.datasets = before ++ d :: after →
      (aliasOf w d = some (normalizeDatasetSqlAlias d) ↔ normalizeDatasetSqlAlias d ∉ aliasesBefore before) := by
    intro before d after h
    rw [aliasOf_eq w h, Option.some.injEq]
    exact Numbering.next_eq_iff numbered_injective _ _
  constructor
  · intro h before d after hordered hunshared
    have hmem : d ∈ orderedDatasets w.datasets := hordered ▸ mem_append_right _ mem_cons_self
    have hd : d ∈ w.datasets := (ordered_perm w.datasets).mem_iff.1 hmem
    exact (hplain before d after hordered).1 (h.own d hd hunshared)
  · intro h
    refine ⟨?_, ?_, ?_, ?_⟩
    · intro d hd
      obtain ⟨before, after, hordered⟩ := hsplit d hd
      rw [aliasOf_eq w hordered]
      rfl
    · intro d hd d' hd' heq
      have hnodup : ((orderedDatasets w.datasets).map (aliasOf w)).Nodup := by
        rw [aliases_eq]
        exact (Numbering.names_nodup numbered_injective _ _).map (Option.some_injective _)
      exact inj_on_of_nodup_map hnodup ((ordered_perm _).mem_iff.2 hd) ((ordered_perm _).mem_iff.2 hd') heq
    · intro d hd hunshared
      obtain ⟨before, after, hordered⟩ := hsplit d hd
      exact (hplain before d after hordered).2 (h before d after hordered hunshared)
    · intro w' hperm d _
      rw [aliasOf, aliasOf, sqlAliases, sqlAliases, ordered_eq_of_perm hperm]

end Aliases

/-! ## A workspace -/

section Workspace

open scoped Ascii

def threeDatasets : Eligible where
  datasets := [⟨"1", "a b", ""⟩, ⟨"2", "a-b", ""⟩, ⟨"3", "a_b_2", ""⟩]
  ids := by decide

/-- the second dataset's number takes the alias that the third one shares with none -/
theorem own_alias_taken :
    aliasOf threeDatasets ⟨"2", "a-b", ""⟩ = some "a_b_2" ∧ aliasOf threeDatasets ⟨"3", "a_b_2", ""⟩ = some "a_b_2_2" ∧
      ¬WellBound threeDatasets := by
  have hthird : aliasOf threeDatasets ⟨"3", "a_b_2", ""⟩ = some "a_b_2_2" := by rfl
  refine ⟨by rfl, hthird, fun h => ?_⟩
  have hown := h.own ⟨"3", "a_b_2", ""⟩ (by decide) (by decide +kernel)
  revert hown
  decide +kernel

end Workspace

end Langbridge.Runtime.FederatedAliases
