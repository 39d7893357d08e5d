/-
What a translated semantic query computes, and how often a row of a measure's dataset is counted: the statement joins
every dataset of the query before it groups, so a row is counted once for each joined row that it occurs in.
-/
import Langbridge.Core.Multiplicity
import Langbridge.Federation.Semantics
import Langbridge.Semantic.Translator

namespace Langbridge.Semantic

open Core Core.Joins Federation.Sql List

/-! ## Running a statement -/

/-- a row of a dataset with its place there -/
abbrev Record := Dict String Val × ℕ

def Record.get (r : Record) (column : String) : Val := (r.1.get? column).getD .null

abbrev Database := String → List (Dict String Val)

/-- the rows of a dataset, each with its place -/
def Database.records (db : Database) (dataset : String) : List Record := (db dataset).zipIdx

/-- the engine that runs a statement: its operators, its comparisons (no comparison with a null holds), the source it
reads an unqualified column from, the numbers its values stand for and its further aggregate functions -/
structure Engine extends Interp where
  compare : String → Val → Val → Bool
  compare_null_left : ∀ operator v, compare operator .null v = false
  compare_null_right : ∀ operator v, compare operator v .null = false
  bareColumn : String → String
  number : Val → ℚ
  aggregate : AggregateFn → List Val → Option ℚ

section Running

variable (engine : Engine) (db : Database)

/-- the value of a column in a joined row; a null-extended source has only nulls -/
def columnValue (e : Env String Record) (r : ColumnRef) : Val :=
  match e (if r.table = "" then engine.bareColumn r.name else r.table) with
  | some record => record.get r.name
  | none => .null

/-- the value of an expression in a joined row -/
def evaluate (e : Env String Record) (expr : Expr) : Val :=
  (evalExpr engine.toInterp (columnValue engine e) (fun _ => []) expr).toVal

def Comparison.holds (c : Comparison) (e : Env String Record) : Bool :=
  engine.compare c.operator (columnValue engine e c.left) (columnValue engine e c.right)

def JoinClause.step (j : JoinClause) : Step String Record :=
  ⟨j.asName, db.records j.dataset, j.kind, j.on.holds engine⟩

def Statement.joinedRows (s : Statement) : List (Env String Record) :=
  join (⟨s.baseAlias, db.records s.baseDataset, .inner, fun _ => true⟩ :: s.joins.map (JoinClause.step engine db))

/-- `WHERE` -/
def Statement.keptRows (s : Statement) : List (Env String Record) :=
  (s.joinedRows engine db).filter fun e => s.conditions.all fun c => (evaluate engine e c).truth = some true

/-- the values a row is grouped by -/
def Statement.groupKey (s : Statement) (e : Env String Record) : List Val := s.groupBy.map (evaluate engine e)

/-- the rows of one group; without `GROUP BY` all rows are in one -/
def Statement.groupRows (s : Statement) (key : List Val) : List (Env String Record) :=
  (s.keptRows engine db).filter fun e => s.groupKey engine e = key

def aggregateValue (fn : AggregateFn) (values : List Val) : Option ℚ :=
  let present := values.filter fun v => v ≠ .null
  match fn with
  | .count => some present.length
  | .sum => if present = [] then none else some (present.map engine.number).sum
  | .avg => if present = [] then none else some ((present.map engine.number).sum / present.length)
  | fn => engine.aggregate fn present

def Aggregate.value (a : Aggregate) (rows : List (Env String Record)) : Option ℚ :=
  aggregateValue engine a.fn (rows.map fun e => evaluate engine e a.this)

end Running

/-! ## What the model declares -/

/-- the type declares at most one target row for a source row -/
def RelationshipType.oneTarget : RelationshipType → Bool
  | .manyToOne | .oneToOne => true
  | _ => false

/-- the type declares at most one source row for a target row -/
def RelationshipType.oneSource : RelationshipType → Bool
  | .oneToMany | .oneToOne => true
  | _ => false

def Relationship.relates (engine : Engine) (r : Relationship) (source target : Record) : Bool :=
  engine.compare r.operator (source.get r.sourceField) (target.get r.targetField)

structure Relationship.CardinalityHolds (engine : Engine) (db : Database) (r : Relationship) : Prop where
  target : r.type.oneTarget = true → ∀ a ∈ db.records r.sourceDataset, ∀ b ∈ db.records r.targetDataset,
    ∀ b' ∈ db.records r.targetDataset, r.relates engine a b → r.relates engine a b' → b = b'
  source : r.type.oneSource = true → ∀ b ∈ db.records r.targetDataset, ∀ a ∈ db.records r.sourceDataset,
    ∀ a' ∈ db.records r.sourceDataset, r.relates engine a b → r.relates engine a' b → a = a'

/-- some step relates each row of the one dataset to at most one of the other, as its relationship declares -/
def DeclaresOne (steps : List JoinStep) (a b : String) : Prop :=
  ∃ step ∈ steps,
    (step.relationship.sourceDataset = a ∧ step.relationship.targetDataset = b ∧
      step.relationship.type.oneTarget = true) ∨
    step.relationship.targetDataset = a ∧ step.relationship.sourceDataset = b ∧
      step.relationship.type.oneSource = true

/-- from the dataset the plan leads to every other one along declarations of one match -/
def FansIn (baseDataset : String) (steps : List JoinStep) (dataset : String) : Prop :=
  ∀ d ∈ joinedDatasets baseDataset steps, Relation.ReflTransGen (DeclaresOne steps) dataset d

/-! ## The plan as a tree of joins -/

section Plan

variable (engine : Engine) (db : Database) (baseDataset : String) (steps : List JoinStep)

def planAlias (dataset : String) : String := aliasOf (buildAliasMap baseDataset steps) dataset

/-- the relation between the rows of a step's left dataset and those of its right one -/
def JoinStep.relates (step : JoinStep) (left right : Record) : Bool :=
  if step.relationship.sourceDataset = step.leftDataset then step.relationship.relates engine left right
  else step.relationship.relates engine right left

/-- a step, as a link between aliases -/
def JoinStep.link (step : JoinStep) : Link String Record :=
  ⟨planAlias baseDataset steps step.leftDataset, planAlias baseDataset steps step.rightDataset,
    joinType step.relationship.type, step.relates engine⟩

def rowsUnder (table : String) : List Record :=
  match (baseDataset :: steps.map JoinStep.rightDataset).find? fun d => planAlias baseDataset steps d = table with
  | some d => db.records d
  | none => []

theorem mem_joinedDatasets (d : String) :
    d ∈ joinedDatasets baseDataset steps ↔ d ∈ baseDataset :: steps.map JoinStep.rightDataset := by
  rw [joinedDatasets, Finset.mem_insert, mem_toFinset, mem_cons]

theorem rowsUnder_alias (d : String) (hd : d ∈ joinedDatasets baseDataset steps) :
    rowsUnder db baseDataset steps (planAlias baseDataset steps d) = db.records d := by
  rw [rowsUnder]
  split
  · rename_i d' hfind
    have halias := find?_some hfind
    have hmem := (mem_joinedDatasets baseDataset steps d').2 (mem_of_find?_eq_some hfind)
    rw [decide_eq_true_eq] at halias
    rw [aliasMap_injective baseDataset steps d' d hmem hd halias]
  · rename_i hnone
    have h := find?_eq_none.1 hnone d ((mem_joinedDatasets baseDataset steps d).1 hd)
    simp at h

theorem rowsUnder_nodup (table : String) : (rowsUnder db baseDataset steps table).Nodup := by
  rw [rowsUnder]
  split
  · apply Nodup.of_map Prod.snd
    rw [Database.records, zipIdx_map_snd]
    exact nodup_range'
  · exact nodup_nil

theorem mem_inputs_iff (before : List JoinStep) (table : String) :
    table ∈ inputs (planAlias baseDataset steps baseDataset) (before.map (JoinStep.link engine baseDataset steps)) ↔
      ∃ d ∈ joinedDatasets baseDataset before, planAlias baseDataset steps d = table := by
  have hmap : (before.map (Link.child ∘ JoinStep.link engine baseDataset steps)) =
      (before.map JoinStep.rightDataset).map (planAlias baseDataset steps) := by
    rw [List.map_map]
    rfl
  simp only [mem_joinedDatasets]
  rw [inputs, List.map_map, hmap, ← map_cons, mem_map]

variable {relationships : List Relationship}

theorem tree_of_joinTree (before : List JoinStep) (h : JoinTree relationships baseDataset before)
    (hsub : ∀ d ∈ joinedDatasets baseDataset before, d ∈ joinedDatasets baseDataset steps) :
    Tree (planAlias baseDataset steps baseDataset) (before.map (JoinStep.link engine baseDataset steps)) := by
  induction before using List.reverseRecOn with
  | nil => exact Tree.root
  | append_singleton before step ih =>
    have hinit : ∀ d ∈ joinedDatasets baseDataset before, d ∈ joinedDatasets baseDataset steps := by
      intro d hd
      apply hsub
      rw [joinedDatasets_append]
      exact Finset.mem_insert_of_mem hd
    have hinputs := mem_inputs_iff engine baseDataset steps before
    have hleft := h.leftJoined before step [] rfl
    have hright := h.rightNew before step [] rfl
    rw [map_append, map_cons, map_nil]
    apply Tree.attach (ih h.init hinit)
    · exact (hinputs _).2 ⟨step.leftDataset, hleft, rfl⟩
    · intro hmem
      obtain ⟨d, hd, halias⟩ := (hinputs _).1 hmem
      have hnew : step.rightDataset ∈ joinedDatasets baseDataset steps := by
        apply hsub
        rw [joinedDatasets_append]
        exact Finset.mem_insert_self _ _
      exact hright (aliasMap_injective baseDataset steps d step.rightDataset (hinit d hd) hnew halias ▸ hd)

variable {engine db baseDataset steps}

theorem columnValue_replaceColumn (e : Env String Record) (column d : String)
    (hd : d ∈ joinedDatasets baseDataset steps) :
    columnValue engine e (replaceColumn (buildAliasMap baseDataset steps) ⟨column, d, "", ""⟩) =
      match e (planAlias baseDataset steps d) with
      | some record => record.get column
      | none => .null := by
  rw [replaceColumn, aliasMap_of_tree baseDataset steps d hd]
  simp only [columnValue, if_neg (aliasOf_ne_empty baseDataset steps d hd)]
  rfl

/-- the condition of a join relates the rows of the two datasets of its step -/
theorem holds_joinCondition (h : JoinTree relationships baseDataset steps)
    {step : JoinStep} (hstep : step ∈ steps) (e : Env String Record) :
    (joinCondition (buildAliasMap baseDataset steps) step.relationship).holds engine e =
      (step.link engine baseDataset steps).on e := by
  obtain ⟨hleft, hright, hne⟩ := h.mem_joined hstep
  rw [Comparison.holds, joinCondition, Link.on, JoinStep.link]
  rcases (h.related step hstep).2 with ⟨hsource, htarget⟩ | ⟨htarget, hsource⟩
  · -- the step goes from the source to the target
    simp only [hsource, htarget, columnValue_replaceColumn e _ _ hleft, columnValue_replaceColumn e _ _ hright,
      JoinStep.relates, if_true, Relationship.relates]
    cases e (planAlias baseDataset steps step.leftDataset) with
    | none => exact engine.compare_null_left _ _
    | some a =>
      cases e (planAlias baseDataset steps step.rightDataset) with
      | none => exact engine.compare_null_right _ _
      | some b => rfl
  · -- the step goes from the target to the source
    simp only [hsource, htarget, columnValue_replaceColumn e _ _ hleft, columnValue_replaceColumn e _ _ hright,
      JoinStep.relates, if_neg hne, Relationship.relates]
    cases e (planAlias baseDataset steps step.leftDataset) with
    | none => exact engine.compare_null_right _ _
    | some a =>
      cases e (planAlias baseDataset steps step.rightDataset) with
      | none => exact engine.compare_null_left _ _
      | some b => rfl

theorem joinedRows_eq (h : JoinTree relationships baseDataset steps)
    (s : Statement) (hbase : s.baseDataset = baseDataset) (halias : s.baseAlias = planAlias baseDataset steps baseDataset)
    (hjoins : s.joins = steps.map (joinClause (buildAliasMap baseDataset steps))) :
    s.joinedRows engine db =
      linked (rowsUnder db baseDataset steps) (planAlias baseDataset steps baseDataset)
        (steps.map (JoinStep.link engine baseDataset steps)) := by
  have hroot := rowsUnder_alias db baseDataset steps baseDataset (Finset.mem_insert_self _ _)
  rw [Statement.joinedRows, linked, hbase, halias, hjoins, hroot, List.map_map, List.map_map]
  apply congrArg fun l => join (_ :: l)
  apply map_congr_left
  intro step hstep
  have hrows := rowsUnder_alias db baseDataset steps step.rightDataset (h.mem_joined hstep).2.1
  have hon : (joinCondition (buildAliasMap baseDataset steps) step.relationship).holds engine =
      (step.link engine baseDataset steps).on := funext fun e => holds_joinCondition h hstep e
  simp only [Function.comp_apply, JoinClause.step, joinClause, Link.step, hon]
  rw [show (step.link engine baseDataset steps).child = planAlias baseDataset steps step.rightDataset from rfl, hrows]
  rfl

theorem singleStep_of_declared (h : JoinTree relationships baseDataset steps)
    (hcard : ∀ r ∈ relationships, r.CardinalityHolds engine db) {a b : String} (hdeclared : DeclaresOne steps a b) :
    SingleStep (rowsUnder db baseDataset steps) (steps.map (JoinStep.link engine baseDataset steps))
      (planAlias baseDataset steps a) (planAlias baseDataset steps b) := by
  obtain ⟨step, hstep, hdirection⟩ := hdeclared
  obtain ⟨hleft, hright, hne⟩ := h.mem_joined hstep
  obtain ⟨hrel, hjoins⟩ := h.related step hstep
  have hholds := hcard step.relationship hrel
  have hrowsLeft := rowsUnder_alias db baseDataset steps step.leftDataset hleft
  have hrowsRight := rowsUnder_alias db baseDataset steps step.rightDataset hright
  refine ⟨step.link engine baseDataset steps, mem_map_of_mem hstep, ?_⟩
  rcases hjoins with ⟨hsource, htarget⟩ | ⟨htarget, hsource⟩
  · have hrelates : ∀ x y, step.relates engine x y = step.relationship.relates engine x y := fun x y => by
      rw [JoinStep.relates, if_pos hsource]
    rcases hdirection with ⟨rfl, rfl, hone⟩ | ⟨rfl, rfl, hone⟩
    · have htargetOnce := hholds.target hone
      rw [hsource, htarget] at htargetOnce ⊢
      left
      simp only [JoinStep.link, hrowsLeft, hrowsRight, hrelates, true_and]
      exact htargetOnce
    · have hsourceOnce := hholds.source hone
      rw [hsource, htarget] at hsourceOnce ⊢
      right
      simp only [JoinStep.link, hrowsLeft, hrowsRight, hrelates, true_and]
      exact hsourceOnce
  · have hrelates : ∀ x y, step.relates engine x y = step.relationship.relates engine y x := fun x y => by
      rw [JoinStep.relates, if_neg (hsource ▸ hne)]
    rcases hdirection with ⟨rfl, rfl, hone⟩ | ⟨rfl, rfl, hone⟩
    · have htargetOnce := hholds.target hone
      rw [hsource, htarget] at htargetOnce ⊢
      right
      simp only [JoinStep.link, hrowsLeft, hrowsRight, hrelates, true_and]
      exact htargetOnce
    · have hsourceOnce := hholds.source hone
      rw [hsource, htarget] at hsourceOnce ⊢
      left
      simp only [JoinStep.link, hrowsLeft, hrowsRight, hrelates, true_and]
      exact hsourceOnce

/-- **Each row at most once**: where the plan fans in to a dataset and the declared cardinalities hold, a row of that
dataset occurs in at most one joined row. -/
theorem occurrences_le_one (h : JoinTree relationships baseDataset steps)
    (hcard : ∀ r ∈ relationships, r.CardinalityHolds engine db) (dataset : String)
    (hjoined : dataset ∈ joinedDatasets baseDataset steps) (hfan : FansIn baseDataset steps dataset) (r : Record) :
    occurrences (planAlias baseDataset steps dataset) r
      (linked (rowsUnder db baseDataset steps) (planAlias baseDataset steps baseDataset)
        (steps.map (JoinStep.link engine baseDataset steps))) ≤ 1 := by
  have htree := tree_of_joinTree engine baseDataset steps steps h fun _ hd => hd
  have hinputs : ∀ table, table ∈ inputs (planAlias baseDataset steps baseDataset)
      (steps.map (JoinStep.link engine baseDataset steps)) ↔
        ∃ d ∈ joinedDatasets baseDataset steps, planAlias baseDataset steps d = table :=
    mem_inputs_iff engine baseDataset steps steps
  apply count_le_one _ htree (rowsUnder_nodup db baseDataset steps)
  · exact (hinputs _).2 ⟨dataset, hjoined, rfl⟩
  · intro table htable
    obtain ⟨d, hd, rfl⟩ := (hinputs table).1 htable
    exact (hfan d hd).lift (planAlias baseDataset steps) fun a b => singleStep_of_declared h hcard

end Plan

/-! ## A measure and the rows of its dataset -/

section Measures

variable (engine : Engine)

/-- the distinct rows of a source among some joined rows -/
def groupRecords (table : String) (rows : List (Env String Record)) : List Record :=
  (rows.filterMap fun e => e table).dedup

/-- a joined row in which one source alone has a row -/
def only (table : String) (r : Record) : Env String Record := Function.update blank table (some r)

/-- the expression is one of the source's row, and null where the source has none -/
def ReadsOwnRow (table : String) (expr : Expr) : Prop :=
  ∀ e : Env String Record, evaluate engine e expr =
    match e table with
    | some r => evaluate engine (only table r) expr
    | none => .null

/-- a plain column does so -/
theorem column_readsOwnRow (table column : String) (htable : table ≠ "") :
    ReadsOwnRow engine table (Expr.column ⟨column, table, "", ""⟩) := by
  intro e
  have hvalue : ∀ e : Env String Record, evaluate engine e (Expr.column ⟨column, table, "", ""⟩) =
      match e table with
      | some r => r.get column
      | none => .null := by
    intro e
    simp only [evaluate, evalExpr, Expr.column, Rose.fold_node, nodeValue, Cell.toVal, columnValue, if_neg htable]
  rw [hvalue]
  cases he : e table with
  | none => rfl
  | some r => simp only [hvalue, only, Function.update_self]

/-- values that are null where a source has no row are the values of the source's rows -/
theorem filter_map_eq (table : String) (rows : List (Env String Record)) (expr : Expr)
    (hown : ReadsOwnRow engine table expr) :
    (rows.map fun e => evaluate engine e expr).filter (fun v => v ≠ .null) =
      ((rows.filterMap fun e => e table).map fun r => evaluate engine (only table r) expr).filter
        fun v => v ≠ .null := by
  induction rows with
  | nil => rfl
  | cons e rows ih =>
    have he := hown e
    cases htable : e table with
    | none =>
      rw [htable] at he
      simp only [map_cons, filterMap_cons, htable]
      rw [filter_cons_of_neg (by simp [he]), ih]
    | some r =>
      rw [htable] at he
      simp only [filterMap_cons, htable, map_cons]
      rw [he, filter_cons, filter_cons, ih]

/-- rows of a source that occur at most once are distinct -/
theorem groupRecords_eq (table : String) (rows : List (Env String Record))
    (honce : ∀ r, occurrences table r rows ≤ 1) : groupRecords table rows = rows.filterMap fun e => e table := by
  apply List.Nodup.dedup
  rw [nodup_iff_count_le_one]
  intro r
  rw [List.count, countP_filterMap]
  apply le_trans (le_of_eq _) (honce r)
  apply countP_congr
  intro e _
  cases e table <;> simp

end Measures

/-- a translation is made from a plan that joins what the query needs -/
theorem translate_ok [PyText] {datasets : List String} {planner : JoinPlanner} {q : ResolvedQuery} {t : Translation}
    (h : translate datasets planner q = .ok t) :
    JoinTree planner.relationships t.baseDataset t.steps ∧
      (∀ d ∈ collectRequiredDatasets q, d ∈ joinedDatasets t.baseDataset t.steps) ∧
      t = buildTranslation t.baseDataset t.steps q := by
  rw [translate] at h
  cases hbase : chooseBaseDataset q with
  | error e =>
    rw [hbase] at h
    cases h
  | ok baseDataset =>
    rw [hbase] at h
    change Except.bind ((planner.plan baseDataset (insert baseDataset (collectRequiredDatasets q))).mapError _) _ =
      _ at h
    cases hplan : planner.plan baseDataset (insert baseDataset (collectRequiredDatasets q)) with
    | error e =>
      rw [hplan] at h
      cases h
    | ok steps =>
      rw [hplan] at h
      obtain ⟨htree, hjoined⟩ := planner.plan_ok hplan
      simp only [Except.mapError, Except.bind] at h
      split_ifs at h
      split at h
      · cases h
      · rw [← Except.ok.inj h]
        exact ⟨htree, fun d hd => hjoined d (Finset.mem_insert_of_mem hd), rfl⟩

/-- **A measure counts each row of its dataset at most once**, in any group, where the plan leads from its dataset to
every other one along declarations of one match; a measure that reads the rows of its dataset is then the aggregate
over the distinct ones of the group. -/
theorem measure_counts_once [PyText] (engine : Engine) (db : Database) (datasets : List String) (planner : JoinPlanner)
    (q : ResolvedQuery) (t : Translation) (htranslate : translate datasets planner q = .ok t)
    (hcard : ∀ r ∈ planner.relationships, r.CardinalityHolds engine db) (m : MeasureRef) (hm : m ∈ q.measures)
    (hfan : FansIn t.baseDataset t.steps m.dataset) (key : List Val) :
    (∃ name, SelectClause.aggregate (measureExpression t.aliasMap m) name ∈ t.statement.select) ∧
    (∀ r, occurrences (aliasOf t.aliasMap m.dataset) r (t.statement.groupRows engine db key) ≤ 1) ∧
    (ReadsOwnRow engine (aliasOf t.aliasMap m.dataset) (measureExpression t.aliasMap m).this →
      (measureExpression t.aliasMap m).value engine (t.statement.groupRows engine db key) =
        aggregateValue engine (aggregationOf m)
          ((groupRecords (aliasOf t.aliasMap m.dataset) (t.statement.groupRows engine db key)).map fun r =>
            evaluate engine (only (aliasOf t.aliasMap m.dataset) r) (measureExpression t.aliasMap m).this)) := by
  obtain ⟨htree, hrequired, hbuilt⟩ := translate_ok htranslate
  have halias : t.aliasMap = buildAliasMap t.baseDataset t.steps := congrArg Translation.aliasMap hbuilt
  have hstatement : t.statement = (buildTranslation t.baseDataset t.steps q).statement :=
    congrArg Translation.statement hbuilt
  have hjoined : m.dataset ∈ joinedDatasets t.baseDataset t.steps := by
    apply hrequired
    simp only [collectRequiredDatasets, Finset.mem_union, mem_toFinset]
    exact .inl (.inl (.inl (.inr (mem_map_of_mem hm))))
  have honce : ∀ r, occurrences (aliasOf t.aliasMap m.dataset) r (t.statement.groupRows engine db key) ≤ 1 := by
    intro r
    have hall := occurrences_le_one htree hcard m.dataset hjoined hfan r
    rw [← joinedRows_eq htree t.statement (by rw [hstatement]; rfl) (by rw [hstatement]; rfl)
      (by rw [hstatement]; rfl)] at hall
    rw [halias]
    apply le_trans _ hall
    apply Sublist.countP_le
    exact filter_sublist.trans filter_sublist
  refine ⟨?_, honce, ?_⟩
  · refine ⟨aliasForMember (m.dataset ++ "." ++ m.column), ?_⟩
    rw [hstatement, halias]
    simp only [buildTranslation, buildSelects, mem_append, mem_map]
    exact .inl (.inr ⟨m, hm, rfl⟩)
  · intro hown
    rw [Aggregate.value, groupRecords_eq _ _ honce]
    simp only [aggregateValue]
    rw [filter_map_eq engine _ _ _ hown]
    rfl

/-! ## Orders and their items -/

section Orders

open scoped Ascii

def orderItems : Relationship :=
  { name := "order_items", sourceDataset := "orders", sourceField := "id", targetDataset := "items",
    targetField := "order_id", type := .oneToMany }

def ordersPlanner : JoinPlanner := JoinPlanner.init (some [orderItems])

def ordersDatabase : Database := fun dataset =>
  if dataset = "orders" then [Dict.ofList [("id", .int 1), ("amount", .int 100)]]
  else if dataset = "items" then
    [Dict.ofList [("order_id", .int 1), ("kind", .text "book"), ("quantity", .int 2)],
      Dict.ofList [("order_id", .int 1), ("kind", .text "book"), ("quantity", .int 3)]]
  else []

def equalityEngine : Engine where
  op _ _ := .null
  finish _ _ := []
  setOp _ _ _ _ := []
  compare _ l r := l ≠ .null && r ≠ .null && l = r
  compare_null_left _ _ := by simp
  compare_null_right _ _ := by simp
  bareColumn c := c
  number v :=
    match v with
    | .int i => i
    | _ => 0
  aggregate _ _ := none

theorem orders_cardinality : ∀ r ∈ ordersPlanner.relationships, r.CardinalityHolds equalityEngine ordersDatabase := by
  intro r hr
  rw [mem_singleton.1 hr]
  refine ⟨?_, ?_⟩
  · intro h
    cases h
  · decide +kernel

def itemKind : DimensionRef := ⟨"items", "kind", none, none⟩

def orderAmount : MeasureRef := ⟨"orders", "amount", none, some "integer", none⟩

def amountByKind : ResolvedQuery := ⟨[itemKind], [], [orderAmount], [], [], []⟩

def ordersTranslation : Translation := buildTranslation "orders" [⟨orderItems, "orders", "items"⟩] amountByKind

/-- a query over the two datasets is planned by their one relationship -/
theorem orders_translate (base other : String) (q : ResolvedQuery) (t : Translation)
    (hbase : chooseBaseDataset q = .ok base)
    (hrequired : (insert base (collectRequiredDatasets q)).erase base = {other})
    (hjoin : ordersPlanner.joinTargets base [other] ⟨{base}, []⟩ = .ok ⟨{other, base}, t.steps⟩)
    (hbuilt : t = buildTranslation base t.steps q) (hselect : t.statement.select.isEmpty = false)
    (hknown : (base :: t.steps.map JoinStep.rightDataset).find? (· ∉ ["orders", "items"]) = none) :
    translate ["orders", "items"] ordersPlanner q = .ok t := by
  have hplan : ordersPlanner.plan base (insert base (collectRequiredDatasets q)) = .ok t.steps := by
    rw [JoinPlanner.plan, if_neg (Finset.insert_ne_empty _ _), hrequired, Finset.sort_singleton, hjoin]
    rfl
  rw [translate, hbase]
  change Except.bind ((ordersPlanner.plan base (insert base (collectRequiredDatasets q))).mapError _) _ = _
  rw [hplan]
  simp only [Except.mapError, Except.bind]
  rw [← hbuilt, hselect, hknown]
  rfl

/-- **Along a relationship of many matches rows are counted more than once**: the order of 100 has two items of one
kind, so that it occurs twice and the amount for the kind is 200. -/
theorem orders_counted_twice :
    translate ["orders", "items"] ordersPlanner amountByKind = .ok ordersTranslation ∧
      (∀ r ∈ ordersPlanner.relationships, r.CardinalityHolds equalityEngine ordersDatabase) ∧
      occurrences (aliasOf ordersTranslation.aliasMap "orders")
        (Dict.ofList [("id", .int 1), ("amount", .int 100)], 0)
        (ordersTranslation.statement.groupRows equalityEngine ordersDatabase [.text "book"]) = 2 ∧
      (measureExpression ordersTranslation.aliasMap orderAmount).value equalityEngine
        (ordersTranslation.statement.groupRows equalityEngine ordersDatabase [.text "book"]) = some 200 ∧
      aggregateValue equalityEngine (aggregationOf orderAmount)
        ((groupRecords (aliasOf ordersTranslation.aliasMap "orders")
          (ordersTranslation.statement.groupRows equalityEngine ordersDatabase [.text "book"])).map fun r =>
            evaluate equalityEngine (only (aliasOf ordersTranslation.aliasMap "orders") r)
              (measureExpression ordersTranslation.aliasMap orderAmount).this) = some 100 := by
  refine ⟨?_, orders_cardinality, ?_, ?_, ?_⟩
  · apply orders_translate "orders" "items" amountByKind ordersTranslation rfl <;> rfl
  · decide +kernel
  · decide +kernel
  · decide +kernel

def itemQuantity : MeasureRef := ⟨"items", "quantity", none, some "integer", none⟩

def orderAmountDimension : DimensionRef := ⟨"orders", "amount", none, none⟩

def quantityByAmount : ResolvedQuery := ⟨[orderAmountDimension], [], [itemQuantity], [], [], []⟩

def itemsTranslation : Translation := buildTranslation "items" [⟨orderItems, "items", "orders"⟩] quantityByAmount

/-- the other way each item is counted once -/
theorem items_counted_once :
    (measureExpression itemsTranslation.aliasMap itemQuantity).value equalityEngine
        (itemsTranslation.statement.groupRows equalityEngine ordersDatabase [.int 100]) = some 5 ∧
      ∀ r, occurrences (aliasOf itemsTranslation.aliasMap "items") r
        (itemsTranslation.statement.groupRows equalityEngine ordersDatabase [.int 100]) ≤ 1 := by
  have htranslate : translate ["orders", "items"] ordersPlanner quantityByAmount = .ok itemsTranslation := by
    apply orders_translate "items" "orders" quantityByAmount itemsTranslation rfl <;> rfl
  have hfan : FansIn itemsTranslation.baseDataset itemsTranslation.steps "items" := by
    intro d hd
    rcases (by simpa [joinedDatasets, itemsTranslation, buildTranslation] using hd : d = "items" ∨ d = "orders") with
      rfl | rfl
    · exact Relation.ReflTransGen.refl
    · exact Relation.ReflTransGen.single ⟨_, mem_singleton_self _, .inr ⟨rfl, rfl, rfl⟩⟩
  have honce := measure_counts_once equalityEngine ordersDatabase ["orders", "items"] ordersPlanner quantityByAmount
    itemsTranslation htranslate orders_cardinality itemQuantity (mem_singleton_self _) hfan [.int 100]
  refine ⟨?_, honce.2.1⟩
  decide +kernel

end Orders

end Langbridge.Semantic
