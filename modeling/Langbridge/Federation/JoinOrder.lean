/-
The order of joins (`federation/planner/optimizer._choose_join_order`): the smallest table first, and then the smallest
of those that are joined to one before, or of all where none is. Estimates are finite.
-/
import Langbridge.Federation.Parser
import Mathlib.Data.List.MinMax

namespace Langbridge.Federation.JoinOrder

open Core List

/-- the order in which a set is gone through -/
structure SetOrder where
  elements : List String → List String
  mem_elements : ∀ l a, a ∈ elements l ↔ a ∈ l

structure TableStatistics where
  rowCountEstimate : Option ℚ

variable (set : SetOrder) (plan : LogicalPlan) (statsByTable : Dict String TableStatistics)

/-- `alias_rows`, with what `get` gives for other names -/
def aliasRows (aliasName : String) : ℚ :=
  (((plan.tables.get? aliasName).bind fun ref => statsByTable.get? ref.tableKey).bind
    TableStatistics.rowCountEstimate).getD 1000000

def candidate (ordered remaining : List String) (join : JoinRef) : Option String :=
  if join.leftAlias ∈ ordered ∧ join.rightAlias ∈ remaining then some join.rightAlias
  else if join.rightAlias ∈ ordered ∧ join.leftAlias ∈ remaining then some join.leftAlias
  else none

/-- the alias that a round of the loop appends; none when none remains -/
def nextAlias (ordered remaining : List String) : Option String :=
  ((plan.joins.filterMap (candidate ordered remaining)).argmin (aliasRows plan statsByTable)).or
    ((set.elements remaining).argmin (aliasRows plan statsByTable))

variable {ordered remaining : List String} {a b : String}

/-- an alias is joined directly to one of some others -/
def Joined (ordered : List String) (b : String) : Prop :=
  ∃ join ∈ plan.joins, join.leftAlias ∈ ordered ∧ join.rightAlias = b ∨ join.rightAlias ∈ ordered ∧ join.leftAlias = b

variable {set plan statsByTable}

theorem candidate_mem {join : JoinRef} (h : candidate ordered remaining join = some b) : b ∈ remaining := by
  unfold candidate at h
  split_ifs at h with hleft hright
  · exact Option.some.inj h ▸ hleft.2
  · exact Option.some.inj h ▸ hright.2

theorem nextAlias_mem (h : nextAlias set plan statsByTable ordered remaining = some a) : a ∈ remaining := by
  rcases Option.or_eq_some_iff.1 h with h | ⟨-, h⟩
  · obtain ⟨join, -, hjoin⟩ := mem_filterMap.1 (argmin_mem h)
    exact candidate_mem hjoin
  · exact (set.mem_elements _ _).1 (argmin_mem h)

variable (set plan statsByTable)

/-- the loop; a round takes one alias from those that remain -/
def extend (ordered remaining : List String) : List String :=
  match _h : nextAlias set plan statsByTable ordered remaining with
  | none => ordered
  | some a => extend (ordered ++ [a]) (remaining.erase a)
termination_by remaining.length
decreasing_by
  have hmem := nextAlias_mem ‹_›
  rw [length_erase_of_mem hmem]
  exact Nat.sub_lt (length_pos_of_mem hmem) Nat.one_pos

def chooseJoinOrder : List String :=
  match plan.tables.keys.argmin (aliasRows plan statsByTable) with
  | none => []
  | some first => extend set plan statsByTable [first] (plan.tables.keys.filter (· != first))

/-- what is chosen after some aliases is joined to one of them if any that remains is, and is the smallest such -/
def Chosen (ordered : List String) (a : String) (rest : List String) : Prop :=
  (∃ b ∈ a :: rest, Joined plan ordered b) → Joined plan ordered a ∧
    ∀ b ∈ rest, Joined plan ordered b → aliasRows plan statsByTable a ≤ aliasRows plan statsByTable b

structure GreedyOrder (order : List String) : Prop where
  perm : order.Perm plan.tables.keys
  greedy : ∀ before a rest, order = before ++ a :: rest → before ≠ [] → Chosen plan statsByTable before a rest

variable {set plan statsByTable}

theorem mem_candidates (hapart : ∀ b ∈ remaining, b ∉ ordered) :
    b ∈ plan.joins.filterMap (candidate ordered remaining) ↔ b ∈ remaining ∧ Joined plan ordered b := by
  simp only [mem_filterMap, Joined, candidate]
  grind

theorem nextAlias_none (h : nextAlias set plan statsByTable ordered remaining = none) : remaining = [] := by
  have hnone := argmin_eq_none.1 (Option.or_eq_none_iff.1 h).2
  refine eq_nil_iff_forall_not_mem.2 fun b hb => ?_
  have hmem := (set.mem_elements remaining b).2 hb
  rw [hnone] at hmem
  cases hmem

/-- one round -/
theorem nextAlias_chosen (hapart : ∀ b ∈ remaining, b ∉ ordered) {rest : List String}
    (hperm : (a :: rest).Perm remaining) (h : nextAlias set plan statsByTable ordered remaining = some a) :
    Chosen plan statsByTable ordered a rest := by
  rintro ⟨b, hb, hjoined⟩
  have hcandidate := (mem_candidates hapart).2 ⟨hperm.mem_iff.1 hb, hjoined⟩
  rcases Option.or_eq_some_iff.1 h with h | ⟨hnone, -⟩
  · refine ⟨((mem_candidates hapart).1 (argmin_mem h)).2, fun b hb hjoined => ?_⟩
    exact le_of_mem_argmin ((mem_candidates hapart).2 ⟨hperm.mem_iff.1 (mem_cons_of_mem a hb), hjoined⟩) h
  · rw [argmin_eq_none.1 hnone] at hcandidate
    cases hcandidate

/-- **The loop** appends what remains, and chooses each alias as a round does. -/
theorem extend_spec (ordered remaining : List String) (hapart : ∀ b ∈ remaining, b ∉ ordered)
    (hnodup : remaining.Nodup) :
    ∃ tail, extend set plan statsByTable ordered remaining = ordered ++ tail ∧ tail.Perm remaining ∧
      ∀ before a rest, tail = before ++ a :: rest → Chosen plan statsByTable (ordered ++ before) a rest := by
  fun_induction extend set plan statsByTable ordered remaining with
  | case1 ordered remaining hnext =>
    obtain rfl := nextAlias_none hnext
    exact ⟨[], (append_nil ordered).symm, List.Perm.refl _, fun before a rest h => by simp at h⟩
  | case2 ordered remaining a hnext ih =>
    have hapart' : ∀ b ∈ remaining.erase a, b ∉ ordered ++ [a] := by
      intro b hb
      obtain ⟨hne, hb⟩ := hnodup.mem_erase_iff.1 hb
      simp [hapart b hb, hne]
    obtain ⟨tail, htail, hperm, hchosen⟩ := ih hapart' (hnodup.erase a)
    have hperm : (a :: tail).Perm remaining := (hperm.cons a).trans (perm_cons_erase (nextAlias_mem hnext)).symm
    refine ⟨a :: tail, by simp [htail], hperm, fun before b rest h => ?_⟩
    cases before with
    | nil =>
      obtain ⟨rfl, rfl⟩ := List.cons.inj h
      rw [append_nil]
      exact nextAlias_chosen hapart hperm hnext
    | cons c before =>
      obtain ⟨rfl, hrest⟩ := List.cons.inj h
      rw [append_cons]
      exact hchosen before b rest hrest

end Langbridge.Federation.JoinOrder
