/-
The join planner of the semantic query compiler (`semantic/query/join_planner.py`): a breadth-first search over the
relationships of the model finds a path to each required dataset, and the paths are merged into one list of join steps.
-/
import Langbridge.Core.BreadthFirst
import Langbridge.Core.Dict
import Langbridge.Core.Text

namespace Langbridge.Semantic

open Core Core.BreadthFirst List

instance isTrans_string_le : IsTrans String (· ≤ ·) := ⟨fun _ _ _ => String.le_trans⟩

instance antisymm_string_le : @Std.Antisymm String (· ≤ ·) := ⟨fun _ _ => String.le_antisymm⟩

instance total_string_le : @Std.Total String (· ≤ ·) := ⟨String.le_total⟩

inductive RelationshipType
  | oneToMany | manyToOne | oneToOne | manyToMany | inner | left | right | full
deriving DecidableEq, Repr

structure Relationship where
  name : String
  sourceDataset : String
  sourceField : String
  targetDataset : String
  targetField : String
  operator : String := "="
  type : RelationshipType
deriving DecidableEq, Repr

/-- one of the relationship's datasets is the one, the other is the other -/
def Relationship.Joins (r : Relationship) (a b : String) : Prop :=
  r.sourceDataset = a ∧ r.targetDataset = b ∨ r.targetDataset = a ∧ r.sourceDataset = b

instance (r : Relationship) (a b : String) : Decidable (r.Joins a b) := inferInstanceAs (Decidable (_ ∨ _))

structure JoinStep where
  relationship : Relationship
  leftDataset : String
  rightDataset : String
deriving DecidableEq, Repr

structure JoinPathError where
  message : String
deriving DecidableEq, Repr

/-! ## The graph -/

abbrev Adjacency := Dict String (List (String × Relationship))

/-- `adjacency.get(dataset, [])` -/
def neighbours (adjacency : Adjacency) (dataset : String) : List (String × Relationship) :=
  (adjacency.get? dataset).getD []

/-- `adjacency.setdefault(dataset, []).append(edge)` -/
def addNeighbour (adjacency : Adjacency) (dataset : String) (edge : String × Relationship) : Adjacency :=
  adjacency.set dataset (neighbours adjacency dataset ++ [edge])

/-- a relationship is an edge in both directions -/
def addEdges (adjacency : Adjacency) (r : Relationship) : Adjacency :=
  addNeighbour (addNeighbour adjacency r.sourceDataset (r.targetDataset, r)) r.targetDataset (r.sourceDataset, r)

def buildGraph (relationships : List Relationship) : Adjacency := relationships.foldl addEdges Dict.empty

structure JoinPlanner where
  relationships : List Relationship
  adjacency : Adjacency
  built : adjacency = buildGraph relationships

/-- `JoinPlanner(relationships)` -/
def JoinPlanner.init (relationships : Option (List Relationship)) : JoinPlanner :=
  ⟨relationships.getD [], buildGraph (relationships.getD []), rfl⟩

/-! ## The plan -/

/-- `_find_path`; a relationship adds at most two datasets, and each of them is expanded at most once -/
def JoinPlanner.findPath (planner : JoinPlanner) (start target : String) : Except JoinPathError (List Relationship) :=
  match search (neighbours planner.adjacency) target (2 * planner.relationships.length + 2) start with
  | some path => .ok path
  | none => .error ⟨"No join path between '" ++ start ++ "' and '" ++ target ++ "'."⟩

/-- the datasets joined so far and the steps that joined them -/
structure Joined where
  joined : Finset String
  steps : List JoinStep

/-- a dataset that is not joined yet is joined to one that is -/
def Joined.join (s : Joined) (relationship : Relationship) (left right : String) : Joined :=
  ⟨insert right s.joined, s.steps ++ [⟨relationship, left, right⟩]⟩

def pathSteps (target : String) : List Relationship → Joined → Except JoinPathError Joined
  | [], s => .ok s
  | r :: path, s =>
    if r.sourceDataset ∈ s.joined ∧ r.targetDataset ∈ s.joined then pathSteps target path s
    else if r.sourceDataset ∈ s.joined then pathSteps target path (s.join r r.sourceDataset r.targetDataset)
    else if r.targetDataset ∈ s.joined then pathSteps target path (s.join r r.targetDataset r.sourceDataset)
    else .error ⟨"Join path for '" ++ target ++ "' does not connect to joined tables."⟩

/-- the loop over the targets -/
def JoinPlanner.joinTargets (planner : JoinPlanner) (baseDataset : String) :
    List String → Joined → Except JoinPathError Joined
  | [], s => .ok s
  | target :: rest, s => do
    let path ← planner.findPath baseDataset target
    let s ← pathSteps target path s
    planner.joinTargets baseDataset rest s

def JoinPlanner.plan (planner : JoinPlanner) (baseDataset : String) (requiredDatasets : Finset String) :
    Except JoinPathError (List JoinStep) :=
  if requiredDatasets = ∅ then .ok []
  else do
    let s ← planner.joinTargets baseDataset ((requiredDatasets.erase baseDataset).sort (· ≤ ·)) ⟨{baseDataset}, []⟩
    pure s.steps

/-! ## What the graph holds -/

theorem neighbours_addNeighbour (adjacency : Adjacency) (a b : String) (edge : String × Relationship) :
    neighbours (addNeighbour adjacency a edge) b =
      if b = a then neighbours adjacency b ++ [edge] else neighbours adjacency b := by
  by_cases h : b = a
  · subst h
    simp [addNeighbour, neighbours]
  · simp [addNeighbour, neighbours, Dict.get?_set_of_ne, h]

theorem mem_neighbours_addNeighbour (adjacency : Adjacency) (a b : String) (edge e : String × Relationship) :
    e ∈ neighbours (addNeighbour adjacency a edge) b ↔ e ∈ neighbours adjacency b ∨ b = a ∧ e = edge := by
  rw [neighbours_addNeighbour]
  by_cases h : b = a
  · simp [h]
  · simp [h]

theorem mem_neighbours_addEdges (adjacency : Adjacency) (r r' : Relationship) (a b : String) :
    (b, r') ∈ neighbours (addEdges adjacency r) a ↔ (b, r') ∈ neighbours adjacency a ∨ r' = r ∧ r.Joins a b := by
  simp only [addEdges, mem_neighbours_addNeighbour, Prod.mk.injEq, Relationship.Joins]
  apply Iff.intro
  · rintro ((h | ⟨rfl, rfl, rfl⟩) | ⟨rfl, rfl, rfl⟩)
    · exact .inl h
    · exact .inr ⟨rfl, .inl ⟨rfl, rfl⟩⟩
    · exact .inr ⟨rfl, .inr ⟨rfl, rfl⟩⟩
  · rintro (h | ⟨rfl, ⟨rfl, rfl⟩ | ⟨rfl, rfl⟩⟩)
    · exact .inl (.inl h)
    · exact .inl (.inr ⟨rfl, rfl, rfl⟩)
    · exact .inr ⟨rfl, rfl, rfl⟩

theorem mem_neighbours_buildGraph (relationships : List Relationship) (a b : String) (r : Relationship) :
    (b, r) ∈ neighbours (buildGraph relationships) a ↔ r ∈ relationships ∧ r.Joins a b := by
  have hfold : ∀ (l : List Relationship) (adjacency : Adjacency),
      (b, r) ∈ neighbours (l.foldl addEdges adjacency) a ↔
        (b, r) ∈ neighbours adjacency a ∨ r ∈ l ∧ r.Joins a b := by
    intro l
    induction l with
    | nil => simp
    | cons x l ih =>
      intro adjacency
      rw [foldl_cons, ih, mem_neighbours_addEdges, mem_cons]
      apply Iff.intro
      · rintro ((h | ⟨rfl, h⟩) | ⟨hmem, h⟩)
        · exact .inl h
        · exact .inr ⟨.inl rfl, h⟩
        · exact .inr ⟨.inr hmem, h⟩
      · rintro (h | ⟨rfl | hmem, h⟩)
        · exact .inl (.inl h)
        · exact .inl (.inr ⟨rfl, h⟩)
        · exact .inr ⟨hmem, h⟩
  rw [buildGraph, hfold]
  simp [neighbours]

/-- some relationship joins the two datasets -/
def Adjacent (relationships : List Relationship) (a b : String) : Prop := ∃ r ∈ relationships, r.Joins a b

/-- a chain of relationships leads from one dataset to the other -/
def Reaches (relationships : List Relationship) (a b : String) : Prop :=
  Relation.ReflTransGen (Adjacent relationships) a b

theorem reachable_iff (relationships : List Relationship) (a b : String) :
    Reachable (neighbours (buildGraph relationships)) a b ↔ Reaches relationships a b := by
  have hedge : Edge (neighbours (buildGraph relationships)) = Adjacent relationships := by
    funext a b
    simp only [Edge, Adjacent, mem_neighbours_buildGraph]
  rw [Reachable, Reaches, hedge]

def datasetsOf (relationships : List Relationship) : Finset String :=
  (relationships.flatMap fun r => [r.sourceDataset, r.targetDataset]).toFinset

theorem card_datasetsOf_le (relationships : List Relationship) :
    (datasetsOf relationships).card ≤ 2 * relationships.length := by
  apply le_trans (toFinset_card_le _)
  simp [Nat.mul_comm]

theorem neighbour_mem_datasetsOf (relationships : List Relationship) (a : String) (x : String × Relationship)
    (hx : x ∈ neighbours (buildGraph relationships) a) : x.1 ∈ datasetsOf relationships := by
  obtain ⟨b, r⟩ := x
  obtain ⟨hr, hjoins⟩ := (mem_neighbours_buildGraph relationships a b r).1 hx
  simp only [datasetsOf, mem_toFinset, mem_flatMap, mem_cons, not_mem_nil, or_false]
  refine ⟨r, hr, ?_⟩
  rcases hjoins with ⟨-, h⟩ | ⟨-, h⟩
  · exact .inr h.symm
  · exact .inl h.symm

/-! ## One path -/

namespace JoinPlanner

variable (planner : JoinPlanner)

theorem findPath_trail {start target : String} {path : List Relationship} (h : planner.findPath start target = .ok path) :
    Trail (neighbours (buildGraph planner.relationships)) start path target := by
  rw [findPath, planner.built] at h
  split at h
  · rename_i found hfound
    rw [← Except.ok.inj h]
    exact search_trail _ target _ start found hfound
  · cases h

theorem findPath_error_iff (start target : String) :
    (∃ e, planner.findPath start target = .error e) ↔ ¬Reaches planner.relationships start target := by
  have hfuel := card_datasetsOf_le planner.relationships
  rw [← reachable_iff, ← search_eq_none_iff _ target (datasetsOf planner.relationships)
    (neighbour_mem_datasetsOf planner.relationships) (2 * planner.relationships.length + 2) start (by omega),
    findPath, planner.built]
  split
  · rename_i found hfound
    simp [hfound]
  · rename_i hnone
    simp [hnone]

end JoinPlanner

/-- the datasets that are joined once the steps have been made -/
def joinedDatasets (baseDataset : String) (steps : List JoinStep) : Finset String :=
  insert baseDataset (steps.map JoinStep.rightDataset).toFinset

theorem joinedDatasets_append (baseDataset : String) (steps : List JoinStep) (step : JoinStep) :
    joinedDatasets baseDataset (steps ++ [step]) = insert step.rightDataset (joinedDatasets baseDataset steps) := by
  ext d
  simp only [joinedDatasets, map_append, map_cons, map_nil, toFinset_append, Finset.mem_insert,
    Finset.mem_union, mem_toFinset, mem_singleton]
  tauto

/-- the steps form a tree rooted at the base: each of them joins a new dataset to one that is joined already, by a
relationship of the two -/
structure JoinTree (relationships : List Relationship) (baseDataset : String) (steps : List JoinStep) : Prop where
  leftJoined : ∀ before step after, steps = before ++ step :: after →
    step.leftDataset ∈ joinedDatasets baseDataset before
  rightNew : ∀ before step after, steps = before ++ step :: after →
    step.rightDataset ∉ joinedDatasets baseDataset before
  related : ∀ step ∈ steps, step.relationship ∈ relationships ∧
    step.relationship.Joins step.leftDataset step.rightDataset

/-- a list with one more element is cut either behind that element's place or before it -/
theorem split_snoc {α : Type} {l before after : List α} {x y : α} (h : l ++ [x] = before ++ y :: after) :
    before = l ∧ y = x ∨ ∃ after', l = before ++ y :: after' := by
  rcases append_eq_append_iff.1 h with ⟨rest, hbefore, hrest⟩ | ⟨rest, hl, hrest⟩
  · cases rest with
    | nil =>
      rw [nil_append, List.cons.injEq] at hrest
      exact .inl ⟨by simpa using hbefore, hrest.1.symm⟩
    | cons z rest => simp at hrest
  · cases rest with
    | nil =>
      rw [nil_append, List.cons.injEq] at hrest
      exact .inl ⟨by simpa using hl.symm, hrest.1⟩
    | cons z rest =>
      rw [cons_append, List.cons.injEq] at hrest
      exact .inr ⟨rest, hrest.1 ▸ hl⟩

namespace JoinTree

variable {relationships : List Relationship} {baseDataset : String} {steps : List JoinStep}

theorem nil : JoinTree relationships baseDataset [] := by
  refine ⟨?_, ?_, ?_⟩
  · intro before step after h
    simp at h
  · intro before step after h
    simp at h
  · intro step h
    simp at h

theorem snoc (h : JoinTree relationships baseDataset steps) {step : JoinStep} (hrel : step.relationship ∈ relationships)
    (hjoins : step.relationship.Joins step.leftDataset step.rightDataset)
    (hleft : step.leftDataset ∈ joinedDatasets baseDataset steps)
    (hright : step.rightDataset ∉ joinedDatasets baseDataset steps) :
    JoinTree relationships baseDataset (steps ++ [step]) := by
  refine ⟨?_, ?_, ?_⟩
  · intro before step' after hsplit
    rcases split_snoc hsplit with ⟨rfl, rfl⟩ | ⟨after', hl⟩
    · exact hleft
    · exact h.leftJoined before step' after' hl
  · intro before step' after hsplit
    rcases split_snoc hsplit with ⟨rfl, rfl⟩ | ⟨after', hl⟩
    · exact hright
    · exact h.rightNew before step' after' hl
  · intro step' hmem
    rcases mem_append.1 hmem with hmem | hmem
    · exact h.related step' hmem
    · rw [mem_singleton] at hmem
      exact hmem ▸ ⟨hrel, hjoins⟩

/-- the steps before the last one -/
theorem init {step : JoinStep} (h : JoinTree relationships baseDataset (steps ++ [step])) :
    JoinTree relationships baseDataset steps := by
  refine ⟨?_, ?_, ?_⟩
  · intro before step' after hl
    exact h.leftJoined before step' (after ++ [step]) (by simp [hl])
  · intro before step' after hl
    exact h.rightNew before step' (after ++ [step]) (by simp [hl])
  · exact fun step' hstep' => h.related step' (mem_append_left _ hstep')

/-- a step's datasets are joined by the plan, and differ -/
theorem mem_joined (h : JoinTree relationships baseDataset steps) {step : JoinStep} (hstep : step ∈ steps) :
    step.leftDataset ∈ joinedDatasets baseDataset steps ∧ step.rightDataset ∈ joinedDatasets baseDataset steps ∧
      step.rightDataset ≠ step.leftDataset := by
  obtain ⟨before, after, hsplit⟩ := append_of_mem hstep
  have hleft := h.leftJoined before step after hsplit
  have hright := h.rightNew before step after hsplit
  refine ⟨?_, ?_, ?_⟩
  · rw [hsplit, joinedDatasets, map_append, toFinset_append]
    apply Finset.insert_subset_insert _ Finset.subset_union_left
    exact hleft
  · apply Finset.mem_insert_of_mem
    rw [mem_toFinset]
    exact mem_map_of_mem hstep
  · exact fun heq => hright (heq ▸ hleft)

theorem nodup (h : JoinTree relationships baseDataset steps) :
    (baseDataset :: steps.map JoinStep.rightDataset).Nodup := by
  rw [nodup_cons]
  apply And.intro
  · intro hmem
    obtain ⟨step, hstep, hright⟩ := mem_map.1 hmem
    obtain ⟨before, after, hsplit⟩ := append_of_mem hstep
    apply h.rightNew before step after hsplit
    rw [hright]
    exact Finset.mem_insert_self _ _
  · rw [List.Nodup, pairwise_map, pairwise_iff_getElem]
    intro i j hi hj hij heq
    apply h.rightNew (steps.take j) steps[j] (steps.drop (j + 1))
    · rw [← drop_eq_getElem_cons hj, take_append_drop]
    · rw [← heq]
      apply Finset.mem_insert_of_mem
      rw [mem_toFinset]
      apply mem_map_of_mem
      rw [mem_take_iff_getElem]
      exact ⟨i, by omega, rfl⟩

theorem card (h : JoinTree relationships baseDataset steps) :
    (joinedDatasets baseDataset steps).card = steps.length + 1 := by
  have hlist : joinedDatasets baseDataset steps = (baseDataset :: steps.map JoinStep.rightDataset).toFinset := by
    rw [joinedDatasets, toFinset_cons]
  rw [hlist, toFinset_card_of_nodup h.nodup, length_cons, length_map]

theorem existsUnique (h : JoinTree relationships baseDataset steps) (d : String)
    (hd : d ∈ joinedDatasets baseDataset steps) (hne : d ≠ baseDataset) :
    ∃! step, step ∈ steps ∧ step.rightDataset = d := by
  rcases Finset.mem_insert.1 hd with heq | hmem
  · exact absurd heq hne
  · rw [mem_toFinset] at hmem
    obtain ⟨step, hstep, hright⟩ := mem_map.1 hmem
    refine ⟨step, ⟨hstep, hright⟩, ?_⟩
    rintro step' ⟨hstep', hright'⟩
    exact inj_on_of_nodup_map (nodup_cons.1 h.nodup).2 hstep' hstep (hright'.trans hright.symm)

end JoinTree

/-- the state of the planner's loop: the steps are a tree, and the datasets joined are its own -/
structure Grown (relationships : List Relationship) (baseDataset : String) (s : Joined) : Prop where
  tree : JoinTree relationships baseDataset s.steps
  joined : s.joined = joinedDatasets baseDataset s.steps

theorem Grown.join {relationships : List Relationship} {baseDataset : String} {s : Joined}
    (h : Grown relationships baseDataset s) {r : Relationship} {left right : String} (hr : r ∈ relationships)
    (hjoins : r.Joins left right) (hleft : left ∈ s.joined) (hright : right ∉ s.joined) :
    Grown relationships baseDataset (s.join r left right) := by
  rw [h.joined] at hleft hright
  refine ⟨h.tree.snoc hr hjoins hleft hright, ?_⟩
  rw [Joined.join, joinedDatasets_append, h.joined]

/-- **One path.** From a joined dataset the merge never fails; what was joined stays, and the path's end is joined. -/
theorem pathSteps_ok {relationships : List Relationship} {baseDataset : String} (target : String) {a b : String}
    {path : List Relationship} (s : Joined) (hgrown : Grown relationships baseDataset s) (ha : a ∈ s.joined)
    (htrail : Trail (neighbours (buildGraph relationships)) a path b) :
    ∃ s', pathSteps target path s = .ok s' ∧ Grown relationships baseDataset s' ∧ s.joined ⊆ s'.joined ∧
      b ∈ s'.joined := by
  induction path generalizing a s with
  | nil => exact ⟨s, rfl, hgrown, fun _ hd => hd, (show a = b from htrail) ▸ ha⟩
  | cons r path ih =>
    obtain ⟨c, hc, htrail⟩ := htrail
    obtain ⟨hr, hjoins⟩ := (mem_neighbours_buildGraph relationships a c r).1 hc
    by_cases hcjoined : c ∈ s.joined
    · -- both ends are joined: the relationship is skipped
      have hboth : r.sourceDataset ∈ s.joined ∧ r.targetDataset ∈ s.joined := by
        rcases hjoins with ⟨rfl, rfl⟩ | ⟨rfl, rfl⟩
        · exact ⟨ha, hcjoined⟩
        · exact ⟨hcjoined, ha⟩
      obtain ⟨s', hok, hgrown', hsub, hb⟩ := ih s hgrown hcjoined htrail
      exact ⟨s', by rw [pathSteps, if_pos hboth, hok], hgrown', hsub, hb⟩
    · have hnew : Grown relationships baseDataset (s.join r a c) := hgrown.join hr hjoins ha hcjoined
      obtain ⟨s', hok, hgrown', hsub, hb⟩ := ih _ hnew (Finset.mem_insert_self c s.joined) htrail
      refine ⟨s', ?_, hgrown', (Finset.subset_insert c s.joined).trans hsub, hb⟩
      rw [pathSteps, ← hok]
      rcases hjoins with ⟨rfl, rfl⟩ | ⟨rfl, rfl⟩
      · rw [if_neg fun h => hcjoined h.2, if_pos ha]
      · rw [if_neg fun h => hcjoined h.1, if_neg hcjoined, if_pos ha]

/-! ## The whole plan -/

namespace JoinPlanner

variable (planner : JoinPlanner)

theorem joinTargets_ok (baseDataset : String) (targets : List String) (s : Joined)
    (hgrown : Grown planner.relationships baseDataset s)
    (hreach : ∀ d ∈ targets, Reaches planner.relationships baseDataset d) :
    ∃ s', planner.joinTargets baseDataset targets s = .ok s' ∧ Grown planner.relationships baseDataset s' ∧
      s.joined ⊆ s'.joined ∧ ∀ d ∈ targets, d ∈ s'.joined := by
  induction targets generalizing s with
  | nil => exact ⟨s, rfl, hgrown, fun _ hd => hd, by simp⟩
  | cons target targets ih =>
    have hbase : baseDataset ∈ s.joined := by
      rw [hgrown.joined]
      exact Finset.mem_insert_self _ _
    cases hpath : planner.findPath baseDataset target with
    | error e =>
      exact absurd (hreach target mem_cons_self) ((planner.findPath_error_iff baseDataset target).1 ⟨e, hpath⟩)
    | ok path =>
      obtain ⟨s₁, hok₁, hgrown₁, hsub₁, htarget⟩ :=
        pathSteps_ok target s hgrown hbase (planner.findPath_trail hpath)
      obtain ⟨s₂, hok₂, hgrown₂, hsub₂, hrest⟩ := ih s₁ hgrown₁ fun d hd => hreach d (mem_cons_of_mem _ hd)
      refine ⟨s₂, ?_, hgrown₂, hsub₁.trans hsub₂, ?_⟩
      · rw [joinTargets, hpath]
        change (pathSteps target path s).bind _ = _
        rw [hok₁]
        exact hok₂
      · intro d hd
        rcases mem_cons.1 hd with rfl | hd
        · exact hsub₂ htarget
        · exact hrest d hd

theorem joinTargets_error (baseDataset : String) (targets : List String) (s : Joined)
    (hgrown : Grown planner.relationships baseDataset s) (d : String) (hd : d ∈ targets)
    (hreach : ¬Reaches planner.relationships baseDataset d) :
    ∃ e, planner.joinTargets baseDataset targets s = .error e := by
  induction targets generalizing s with
  | nil => simp at hd
  | cons target targets ih =>
    have hbase : baseDataset ∈ s.joined := by
      rw [hgrown.joined]
      exact Finset.mem_insert_self _ _
    cases hpath : planner.findPath baseDataset target with
    | error e => exact ⟨e, by rw [joinTargets, hpath]; rfl⟩
    | ok path =>
      obtain ⟨s₁, hok₁, hgrown₁, -, -⟩ := pathSteps_ok target s hgrown hbase (planner.findPath_trail hpath)
      have hne : d ≠ target := by
        rintro rfl
        obtain ⟨e, he⟩ := (planner.findPath_error_iff baseDataset d).2 hreach
        rw [hpath] at he
        cases he
      obtain ⟨e, he⟩ := ih s₁ hgrown₁ (mem_of_ne_of_mem hne hd)
      refine ⟨e, ?_⟩
      rw [joinTargets, hpath]
      change (pathSteps target path s).bind _ = _
      rw [hok₁]
      exact he

theorem grown_init (baseDataset : String) :
    Grown planner.relationships baseDataset ⟨{baseDataset}, []⟩ := ⟨JoinTree.nil, rfl⟩

/-- either every required dataset can be reached, and the plan is a tree that joins them all, or the plan fails -/
theorem plan_cases (baseDataset : String) (requiredDatasets : Finset String) :
    (∃ steps, planner.plan baseDataset requiredDatasets = .ok steps ∧
      JoinTree planner.relationships baseDataset steps ∧
      (∀ d ∈ requiredDatasets, d ∈ joinedDatasets baseDataset steps) ∧
      ∀ d ∈ requiredDatasets, Reaches planner.relationships baseDataset d) ∨
    (∃ e, planner.plan baseDataset requiredDatasets = .error e) ∧
      ∃ d ∈ requiredDatasets, ¬Reaches planner.relationships baseDataset d := by
  have hinit := planner.grown_init baseDataset
  have htargets : ∀ d, d ∈ (requiredDatasets.erase baseDataset).sort (· ≤ ·) ↔
      d ≠ baseDataset ∧ d ∈ requiredDatasets := by
    intro d
    rw [Finset.mem_sort, Finset.mem_erase]
  by_cases hempty : requiredDatasets = ∅
  · refine .inl ⟨[], by rw [plan, if_pos hempty], JoinTree.nil, ?_, ?_⟩
    · simp [hempty]
    · simp [hempty]
  · by_cases hreach : ∃ d ∈ requiredDatasets, ¬Reaches planner.relationships baseDataset d
    · obtain ⟨d, hd, hnot⟩ := hreach
      have hne : d ≠ baseDataset := by
        rintro rfl
        exact hnot Relation.ReflTransGen.refl
      obtain ⟨e, he⟩ := planner.joinTargets_error baseDataset _ _ hinit d ((htargets d).2 ⟨hne, hd⟩) hnot
      refine .inr ⟨⟨e, ?_⟩, d, hd, hnot⟩
      rw [plan, if_neg hempty, he]
      rfl
    · push Not at hreach
      obtain ⟨s, hok, hgrown, -, hjoined⟩ := planner.joinTargets_ok baseDataset _ _ hinit
        fun d hd => hreach d ((htargets d).1 hd).2
      refine .inl ⟨s.steps, ?_, hgrown.tree, ?_, hreach⟩
      · rw [plan, if_neg hempty, hok]
        rfl
      · intro d hd
        by_cases hne : d = baseDataset
        · rw [hne]
          exact Finset.mem_insert_self _ _
        · rw [← hgrown.joined]
          exact hjoined d ((htargets d).2 ⟨hne, hd⟩)

theorem plan_ok {baseDataset : String} {requiredDatasets : Finset String} {steps : List JoinStep}
    (h : planner.plan baseDataset requiredDatasets = .ok steps) :
    JoinTree planner.relationships baseDataset steps ∧
      ∀ d ∈ requiredDatasets, d ∈ joinedDatasets baseDataset steps := by
  rcases planner.plan_cases baseDataset requiredDatasets with ⟨steps', hok, htree, hjoined, -⟩ | ⟨⟨e, he⟩, -⟩
  · rw [h] at hok
    exact Except.ok.inj hok ▸ ⟨htree, hjoined⟩
  · rw [h] at he
    cases he

/-- **The plan is a tree rooted at the base**: its steps join a new dataset each, one for every joined dataset other
than the base, and every required dataset is joined; there is no plan exactly when some required dataset cannot be
reached from the base. -/
theorem plan_tree (baseDataset : String) (requiredDatasets : Finset String) :
    (∀ steps, planner.plan baseDataset requiredDatasets = .ok steps →
      JoinTree planner.relationships baseDataset steps ∧
      (∀ d ∈ requiredDatasets, d ∈ joinedDatasets baseDataset steps) ∧
      (∀ d ∈ joinedDatasets baseDataset steps, d ≠ baseDataset → ∃! step, step ∈ steps ∧ step.rightDataset = d) ∧
      (joinedDatasets baseDataset steps).card = steps.length + 1) ∧
    ((∃ e, planner.plan baseDataset requiredDatasets = .error e) ↔
      ∃ d ∈ requiredDatasets, ¬Reaches planner.relationships baseDataset d) := by
  apply And.intro
  · intro steps hsteps
    obtain ⟨htree, hjoined⟩ := planner.plan_ok hsteps
    exact ⟨htree, hjoined, htree.existsUnique, htree.card⟩
  · rcases planner.plan_cases baseDataset requiredDatasets with ⟨steps, hok, -, -, hreach⟩ | ⟨herror, hnot⟩
    · apply Iff.intro
      · rintro ⟨e, he⟩
        rw [hok] at he
        cases he
      · rintro ⟨d, hd, hnot⟩
        exact absurd (hreach d hd) hnot
    · exact ⟨fun _ => hnot, fun _ => herror⟩

/-! ## What is joined -/

def pathDatasets (baseDataset d : String) : Finset String :=
  match planner.findPath baseDataset d with
  | .ok path => datasetsOf path
  | .error _ => ∅

def reached (baseDataset : String) (datasets : Finset String) : Finset String :=
  insert baseDataset (datasets ∪ datasets.biUnion (planner.pathDatasets baseDataset))

theorem datasetsOf_cons (r : Relationship) (path : List Relationship) :
    datasetsOf (r :: path) = {r.sourceDataset, r.targetDataset} ∪ datasetsOf path := by
  rw [datasetsOf, flatMap_cons, toFinset_append, toFinset_cons, toFinset_cons, toFinset_nil]
  rfl

theorem pathSteps_joined {baseDataset target : String} {path : List Relationship} {s s' : Joined}
    (h : pathSteps target path s = .ok s') (hs : s.joined = joinedDatasets baseDataset s.steps) :
    s'.joined = joinedDatasets baseDataset s'.steps ∧ s'.joined = s.joined ∪ datasetsOf path := by
  induction path generalizing s with
  | nil =>
    cases h
    exact ⟨hs, (Finset.union_empty _).symm⟩
  | cons r path ih =>
    have hjoin : ∀ left right, left ∈ s.joined → ({r.sourceDataset, r.targetDataset} : Finset String) = {left, right} →
        pathSteps target path (s.join r left right) = .ok s' →
        s'.joined = joinedDatasets baseDataset s'.steps ∧ s'.joined = s.joined ∪ datasetsOf (r :: path) := by
      intro left right hleft hends h
      have hsteps : (s.join r left right).joined = joinedDatasets baseDataset (s.join r left right).steps := by
        rw [Joined.join, joinedDatasets_append, hs]
      obtain ⟨hjoined, hunion⟩ := ih h hsteps
      refine ⟨hjoined, ?_⟩
      rw [hunion, datasetsOf_cons, hends, Joined.join, ← Finset.union_assoc]
      congr 1
      ext d
      simp only [Finset.mem_insert, Finset.mem_union, Finset.mem_singleton]
      constructor
      · tauto
      · rintro (hd | rfl | rfl)
        · exact .inr hd
        · exact .inr hleft
        · exact .inl rfl
    rw [pathSteps] at h
    split_ifs at h with hboth hsource htarget
    · obtain ⟨hjoined, hunion⟩ := ih h hs
      refine ⟨hjoined, ?_⟩
      rw [hunion, datasetsOf_cons, ← Finset.union_assoc]
      congr 1
      refine (Finset.union_eq_left.2 ?_).symm
      intro d hd
      rcases Finset.mem_insert.1 hd with rfl | hd
      · exact hboth.1
      · exact Finset.mem_singleton.1 hd ▸ hboth.2
    · exact hjoin _ _ hsource rfl h
    · exact hjoin _ _ htarget (Finset.pair_comm _ _) h

theorem joinTargets_joined {baseDataset : String} {targets : List String} {s s' : Joined}
    (h : planner.joinTargets baseDataset targets s = .ok s') (hs : s.joined = joinedDatasets baseDataset s.steps) :
    s'.joined = joinedDatasets baseDataset s'.steps ∧
      s'.joined = s.joined ∪ targets.toFinset.biUnion (planner.pathDatasets baseDataset) := by
  induction targets generalizing s with
  | nil =>
    cases h
    exact ⟨hs, by simp⟩
  | cons target targets ih =>
    obtain ⟨path, hpath, h⟩ := of_bind_ok h
    obtain ⟨s₁, hsteps, h⟩ := of_bind_ok h
    obtain ⟨hs₁, hunion₁⟩ := pathSteps_joined hsteps hs
    obtain ⟨hs', hunion⟩ := ih h hs₁
    refine ⟨hs', ?_⟩
    rw [hunion, hunion₁, toFinset_cons, Finset.biUnion_insert, pathDatasets, hpath, Finset.union_assoc]

/-- **What a plan joins**: the base, the required datasets, and those on the paths to them. -/
theorem plan_reached {baseDataset : String} {requiredDatasets : Finset String} {steps : List JoinStep}
    (h : planner.plan baseDataset requiredDatasets = .ok steps) :
    joinedDatasets baseDataset steps = planner.reached baseDataset requiredDatasets := by
  have hrequired := (planner.plan_ok h).2
  have hself : planner.pathDatasets baseDataset baseDataset = ∅ := by
    have hpath : planner.findPath baseDataset baseDataset = .ok [] := by
      rw [findPath, search, if_pos rfl]
    rw [pathDatasets, hpath]
    rfl
  rw [plan] at h
  split_ifs at h with hempty
  · cases h
    rw [hempty]
    rfl
  · obtain ⟨s, hrun, h⟩ := of_bind_ok h
    cases h
    obtain ⟨hjoined, hunion⟩ := planner.joinTargets_joined hrun rfl
    rw [Finset.sort_toFinset] at hunion
    have hpaths : (requiredDatasets.erase baseDataset).biUnion (planner.pathDatasets baseDataset) =
        requiredDatasets.biUnion (planner.pathDatasets baseDataset) := by
      ext d
      simp only [Finset.mem_biUnion, Finset.mem_erase]
      constructor
      · rintro ⟨target, ⟨-, htarget⟩, hd⟩
        exact ⟨target, htarget, hd⟩
      · rintro ⟨target, htarget, hd⟩
        refine ⟨target, ⟨?_, htarget⟩, hd⟩
        rintro rfl
        rw [hself] at hd
        exact absurd hd (Finset.notMem_empty d)
    apply Finset.Subset.antisymm
    · rw [← hjoined, hunion, hpaths, reached]
      intro d hd
      simp only [Finset.mem_union, Finset.mem_singleton, Finset.mem_insert] at hd ⊢
      tauto
    · intro d hd
      rw [reached, Finset.mem_insert, Finset.mem_union] at hd
      rcases hd with rfl | hd | hd
      · exact Finset.mem_insert_self _ _
      · exact hrequired d hd
      · rw [← hjoined, hunion, hpaths]
        exact Finset.mem_union_right _ hd

end JoinPlanner

end Langbridge.Semantic
