/-
The semantic query compiler (`semantic/query/translator.py`): a query whose members have been resolved becomes one
`SELECT` over the base dataset and the datasets that the join planner adds, each under an alias `t0`, `t1`, ... The
expressions of the model arrive parsed; time truncation and date ranges are what `date_trunc` and
`build_date_range_condition` build over a column. `ORDER BY` and `LIMIT` are left out.

Main results:
- `aliasMap_injective`: different datasets have different aliases.
- `aliasMap_of_tree`: every joined dataset has one.
-/
import Langbridge.Federation.Sql
import Langbridge.Semantic.JoinPlanner

namespace Langbridge.Semantic

open Core Federation.Sql List Dict PyText

/-! ## Resolved queries -/

structure DimensionRef where
  dataset : String
  column : String
  expression : Option Expr
  dataType : Option String

structure TimeDimensionRef where
  dimension : DimensionRef
  /-- the granularity, as the truncation it stands for -/
  truncate : Option (Expr → Expr)
  /-- the suffix of the alias that names the granularity -/
  granularity : Option String
  dateRange : Option (Expr → Expr)

structure MeasureRef where
  dataset : String
  column : String
  expression : Option Expr
  dataType : Option String
  aggregation : Option String

/-- a metric with the datasets its expression mentions and the names before a dot in its key -/
structure MetricRef where
  key : String
  expression : Expr
  datasets : Finset String
  keyDatasets : List String

inductive FilterKind
  | dimension | measure | metric
deriving DecidableEq

/-- a filter's condition, with dataset names for tables, and the datasets it mentions in the order of their set -/
structure FilterTarget where
  kind : FilterKind
  expression : Expr
  datasets : List String

structure SegmentRef where
  dataset : String
  key : String
  condition : Expr

/-- a semantic query as the resolver hands it on -/
structure ResolvedQuery where
  dimensions : List DimensionRef
  timeDimensions : List TimeDimensionRef
  measures : List MeasureRef
  metrics : List MetricRef
  filters : List FilterTarget
  segments : List SegmentRef

structure SemanticQueryError where
  message : String
deriving DecidableEq, Repr

/-! ## Datasets and aliases -/

def collectRequiredDatasets (q : ResolvedQuery) : Finset String :=
  (q.dimensions.map DimensionRef.dataset).toFinset ∪ (q.timeDimensions.map fun t => t.dimension.dataset).toFinset ∪
    (q.measures.map MeasureRef.dataset).toFinset ∪ (q.metrics.map MetricRef.datasets).foldr (· ∪ ·) ∅ ∪
    (q.filters.flatMap FilterTarget.datasets).toFinset ∪ (q.segments.map SegmentRef.dataset).toFinset

def chooseBaseDataset (q : ResolvedQuery) : Except SemanticQueryError String :=
  match q.measures.head?, q.metrics.head?.bind fun m => m.keyDatasets.head?, q.timeDimensions.head?,
    q.dimensions.head?, q.filters.head?, q.segments.head? with
  | some measure, _, _, _, _, _ => .ok measure.dataset
  | none, some dataset, _, _, _, _ => .ok dataset
  | none, none, some timeDimension, _, _, _ => .ok timeDimension.dimension.dataset
  | none, none, none, some dimension, _, _ => .ok dimension.dataset
  | none, none, none, none, some target, _ =>
    match target.datasets with
    | dataset :: _ => .ok dataset
    | [] => .error ⟨"StopIteration"⟩
  | none, none, none, none, none, some segment => .ok segment.dataset
  | none, none, none, none, none, none => .error ⟨"Semantic query did not reference any tables."⟩

def tableAlias (counter : ℕ) : String := "t" ++ Nat.repr counter

/-- the alias map while it is built, with the number of the next alias -/
structure Aliasing where
  aliasMap : Dict String String
  counter : ℕ

/-- a dataset without an alias gets the next one -/
def Aliasing.add (a : Aliasing) (dataset : String) : Aliasing :=
  if a.aliasMap.has dataset then a else ⟨a.aliasMap.set dataset (tableAlias a.counter), a.counter + 1⟩

def Aliasing.addStep (a : Aliasing) (step : JoinStep) : Aliasing := (a.add step.rightDataset).add step.leftDataset

def buildAliasMap (baseDataset : String) (steps : List JoinStep) : Dict String String :=
  (steps.foldl Aliasing.addStep ⟨Dict.empty.set baseDataset (tableAlias 0), 1⟩).aliasMap

def aliasOf (aliasMap : Dict String String) (dataset : String) : String := (aliasMap.get? dataset).getD dataset

/-! ## Expressions -/

section Expressions

variable [PyText] (aliasMap : Dict String String)

def replaceColumn (r : ColumnRef) : ColumnRef :=
  match aliasMap.get? r.table with
  | some table => ⟨r.name, table, "", ""⟩
  | none => r

def replaceTableRefs (e : Expr) : Expr := e.mapColumns (replaceColumn aliasMap)

def dateTypes : List String := ["date", "datetime", "timestamp", "time"]

def coerceColumnType (e : Expr) (dataType : Option String) : Expr :=
  let normalizedType := norm (dataType.getD "")
  if normalizedType ∉ dateTypes then e
  else if normalizedType ∈ ["datetime", "timestamp", "time"] then Expr.op "Cast" [e, Expr.lit (.text "TIMESTAMP")]
  else Expr.op "Cast" [e, Expr.lit (.text "DATE")]

/-- a column of the dataset: the name an expression gives it, or its own -/
def sourceColumn (name column : String) : String :=
  let given := strip (if name = "" then column else name)
  if given = "" then column else given

def columnExpression (dataset column : String) (expression : Option Expr) (dataType : Option String) : Expr :=
  let base : Expr :=
    match expression with
    | none => Expr.column ⟨column, aliasOf aliasMap dataset, "", ""⟩
    | some e =>
      match e.label with
      | .column r =>
        if r.table = "" then Expr.column ⟨sourceColumn r.name column, aliasOf aliasMap dataset, "", ""⟩
        else replaceTableRefs aliasMap e
      | _ => replaceTableRefs aliasMap e
  coerceColumnType base dataType

end Expressions

/-- the aggregate functions of a measure -/
inductive AggregateFn
  | sum | count | countDistinct | avg | min | max
  | func (name : String)
deriving DecidableEq

structure Aggregate where
  fn : AggregateFn
  this : Expr

section Measures

variable [PyText]

def aggregationOf (measure : MeasureRef) : AggregateFn :=
  let declared := norm (measure.aggregation.getD "")
  let numeric := lower (measure.dataType.getD "") ∈ ["integer", "decimal", "float", "number"]
  let aggregation := if declared = "" then (if numeric then "sum" else "count") else declared
  if aggregation = "count_distinct" ∨ aggregation = "countdistinct" then .countDistinct
  else if aggregation = "count" then .count
  else if aggregation = "sum" then .sum
  else if aggregation = "avg" then .avg
  else if aggregation = "min" then .min
  else if aggregation = "max" then .max
  else .func aggregation

def measureExpression (aliasMap : Dict String String) (measure : MeasureRef) : Aggregate :=
  ⟨aggregationOf measure, columnExpression aliasMap measure.dataset measure.column measure.expression none⟩

end Measures

/-! ## The statement -/

/-- an element of the select list, with its alias -/
inductive SelectClause
  | expression (e : Expr) (asName : String)
  | aggregate (a : Aggregate) (asName : String)

structure Comparison where
  left : ColumnRef
  operator : String
  right : ColumnRef
deriving DecidableEq

structure JoinClause where
  dataset : String
  asName : String
  on : Comparison
  kind : Joins.Kind

structure Statement where
  baseDataset : String
  baseAlias : String
  joins : List JoinClause
  select : List SelectClause
  conditions : List Expr
  groupBy : List Expr
  having : List Expr

/-- `re.sub(r"[^A-Za-z0-9_]+", "_", text)`; the flag says whether the last character was replaced -/
def replaceRuns : Bool → List Char → List Char
  | _, [] => []
  | inRun, c :: cs =>
    if ( 'A' ≤ c ∧ c ≤ 'Z') ∨ ( 'a' ≤ c ∧ c ≤ 'z') ∨ ( '0' ≤ c ∧ c ≤ '9') ∨ c = '_' then
      c :: replaceRuns false cs
    else if inRun then replaceRuns true cs
    else '_' :: replaceRuns true cs

def aliasForMember (text : String) : String :=
  let spaced := text.toList.flatMap fun c => if c = '.' then ['_', '_'] else if c = ' ' then ['_'] else [c]
  String.ofList (replaceRuns false spaced)

def aliasForTimeDimension (dataset column : String) (granularity : Option String) : String :=
  let base := aliasForMember (dataset ++ "." ++ column)
  match granularity with
  | none => base
  | some g => base ++ "_" ++ g

/-- `join_condition`, with the table names replaced -/
def joinCondition (aliasMap : Dict String String) (r : Relationship) : Comparison :=
  ⟨replaceColumn aliasMap ⟨r.sourceField, r.sourceDataset, "", ""⟩, r.operator,
    replaceColumn aliasMap ⟨r.targetField, r.targetDataset, "", ""⟩⟩

def joinType : RelationshipType → Joins.Kind
  | .left => .left
  | .right => .right
  | .full => .full
  | .inner => .inner
  | .oneToMany => .left
  | .manyToOne => .left
  | .oneToOne => .left
  | .manyToMany => .inner

/-- one join of `_apply_from` -/
def joinClause (aliasMap : Dict String String) (step : JoinStep) : JoinClause :=
  ⟨step.rightDataset, aliasOf aliasMap step.rightDataset, joinCondition aliasMap step.relationship,
    joinType step.relationship.type⟩

section Statements

variable [PyText] (aliasMap : Dict String String)

/-- a dimension is selected and grouped by -/
def dimensionExpression (d : DimensionRef) : Expr :=
  columnExpression aliasMap d.dataset d.column d.expression d.dataType

/-- a time dimension is its truncated column, whatever the expression of its dimension -/
def timeDimensionExpression (t : TimeDimensionRef) : Expr :=
  let base := columnExpression aliasMap t.dimension.dataset t.dimension.column none t.dimension.dataType
  match t.truncate with
  | none => base
  | some truncate => truncate base

def buildSelects (q : ResolvedQuery) : List SelectClause :=
  q.dimensions.map (fun d => .expression (dimensionExpression aliasMap d) (aliasForMember (d.dataset ++ "." ++ d.column)))
    ++ q.timeDimensions.map (fun t => .expression (timeDimensionExpression aliasMap t)
      (aliasForTimeDimension t.dimension.dataset t.dimension.column t.granularity))
    ++ q.measures.map (fun m => .aggregate (measureExpression aliasMap m) (aliasForMember (m.dataset ++ "." ++ m.column)))
    ++ q.metrics.map (fun m => .expression (replaceTableRefs aliasMap m.expression) (aliasForMember m.key))

/-- the grouping of `_build_selects` -/
def buildGroupBy (q : ResolvedQuery) : List Expr :=
  q.dimensions.map (dimensionExpression aliasMap) ++ q.timeDimensions.map (timeDimensionExpression aliasMap)

/-- the column that a date range restricts: an expression that is the name of the column is left out -/
def rangeColumn (t : TimeDimensionRef) : Expr :=
  let expression := t.dimension.expression.filter fun e =>
    e.label ≠ .column ⟨t.dimension.column, "", "", ""⟩
  columnExpression aliasMap t.dimension.dataset t.dimension.column expression t.dimension.dataType

def buildWhereConditions (q : ResolvedQuery) : List Expr :=
  (q.filters.filter fun f => f.kind = .dimension).map (fun f => replaceTableRefs aliasMap f.expression)
    ++ q.timeDimensions.filterMap (fun t => t.dateRange.map fun range => range (rangeColumn aliasMap t))
    ++ q.segments.map (fun s => replaceTableRefs aliasMap s.condition)

def buildHavingConditions (q : ResolvedQuery) : List Expr :=
  (q.filters.filter fun f => f.kind ≠ .dimension).map fun f => replaceTableRefs aliasMap f.expression

end Statements

/-- a statement with the plan it was made from -/
structure Translation where
  baseDataset : String
  steps : List JoinStep
  aliasMap : Dict String String
  statement : Statement

/-- the statement over a plan -/
def buildTranslation [PyText] (baseDataset : String) (steps : List JoinStep) (q : ResolvedQuery) : Translation :=
  let aliasMap := buildAliasMap baseDataset steps
  ⟨baseDataset, steps, aliasMap,
    ⟨baseDataset, aliasOf aliasMap baseDataset, steps.map (joinClause aliasMap), buildSelects aliasMap q,
      buildWhereConditions aliasMap q, buildGroupBy aliasMap q, buildHavingConditions aliasMap q⟩⟩

/-- `translate`; `datasets` are the keys of the model -/
def translate [PyText] (datasets : List String) (planner : JoinPlanner) (q : ResolvedQuery) :
    Except SemanticQueryError Translation := do
  let baseDataset ← chooseBaseDataset q
  let requiredDatasets := insert baseDataset (collectRequiredDatasets q)
  let steps ← (planner.plan baseDataset requiredDatasets).mapError fun e => ⟨e.message⟩
  let translation := buildTranslation baseDataset steps q
  if translation.statement.select.isEmpty then
    .error ⟨"Semantic query did not include any dimensions, measures, or metrics."⟩
  else
    match (baseDataset :: steps.map JoinStep.rightDataset).find? (· ∉ datasets) with
    | some dataset => .error ⟨"Unknown dataset '" ++ dataset ++ "'."⟩
    | none => .ok translation

/-! ## Aliases -/

theorem tableAlias_injective {m n : ℕ} (h : tableAlias m = tableAlias n) : m = n := by
  have hdigits : Nat.toDigits 10 m = Nat.toDigits 10 n := by
    have hlist := congrArg String.toList h
    rw [tableAlias, tableAlias, String.toList_append, String.toList_append, Nat.toList_repr, Nat.toList_repr] at hlist
    exact append_cancel_left hlist
  rw [← Nat.ofDigitChars_toDigits (n := m) (by decide : 1 < 10) (le_refl 10), hdigits,
    Nat.ofDigitChars_toDigits (by decide) (le_refl 10)]

/-- the aliases given so far have smaller numbers, and no two datasets share one -/
structure Aliasing.Distinct (a : Aliasing) : Prop where
  below : ∀ d t, a.aliasMap.get? d = some t → ∃ n < a.counter, t = tableAlias n
  injective : ∀ d d' t, a.aliasMap.get? d = some t → a.aliasMap.get? d' = some t → d = d'

theorem Aliasing.Distinct.add {a : Aliasing} (h : a.Distinct) (dataset : String) : (a.add dataset).Distinct := by
  rw [Aliasing.add]
  split_ifs with hhas
  · exact h
  · have hfresh : ∀ d, a.aliasMap.get? d ≠ some (tableAlias a.counter) := by
      intro d hd
      obtain ⟨n, hn, heq⟩ := h.below d _ hd
      have := tableAlias_injective heq
      omega
    refine ⟨?_, ?_⟩
    · intro d t ht
      rw [get?_set] at ht
      split_ifs at ht with hd
      · exact ⟨a.counter, Nat.lt_succ_self _, (Option.some.inj ht).symm⟩
      · obtain ⟨n, hn, heq⟩ := h.below d t ht
        exact ⟨n, Nat.lt_succ_of_lt hn, heq⟩
    · intro d d' t ht ht'
      rw [get?_set] at ht ht'
      split_ifs at ht ht' with hd hd' hd'
      · rw [hd, hd']
      · exact absurd (ht'.trans ht.symm) (hfresh d')
      · exact absurd (ht.trans ht'.symm) (hfresh d)
      · exact h.injective d d' t ht ht'

/-- what has an alias keeps it -/
theorem Aliasing.get?_add {a : Aliasing} (dataset : String) {d t : String} (h : a.aliasMap.get? d = some t) :
    (a.add dataset).aliasMap.get? d = some t := by
  rw [Aliasing.add]
  split_ifs with hhas
  · exact h
  · have hne : d ≠ dataset := by
      rintro rfl
      exact hhas (by rw [Dict.has, h]; rfl)
    rw [get?_set_of_ne _ _ hne, h]

theorem Aliasing.get?_add_self (a : Aliasing) (dataset : String) :
    ∃ t, (a.add dataset).aliasMap.get? dataset = some t := by
  rw [Aliasing.add]
  split_ifs with hhas
  · exact Option.isSome_iff_exists.1 hhas
  · exact ⟨_, get?_set_self _ _ _⟩

theorem foldl_addStep (steps : List JoinStep) (a : Aliasing) (h : a.Distinct) :
    (steps.foldl Aliasing.addStep a).Distinct ∧
      (∀ d t, a.aliasMap.get? d = some t → (steps.foldl Aliasing.addStep a).aliasMap.get? d = some t) ∧
      ∀ step ∈ steps, ∃ t, (steps.foldl Aliasing.addStep a).aliasMap.get? step.rightDataset = some t := by
  induction steps generalizing a with
  | nil => exact ⟨h, fun _ _ ht => ht, by simp⟩
  | cons step steps ih =>
    obtain ⟨hdistinct, hkeeps, hrest⟩ := ih (a.addStep step) ((h.add _).add _)
    refine ⟨hdistinct, ?_, ?_⟩
    · exact fun d t ht => hkeeps d t (Aliasing.get?_add _ (Aliasing.get?_add _ ht))
    · intro step' hstep'
      rcases mem_cons.1 hstep' with rfl | hstep'
      · obtain ⟨t, ht⟩ := a.get?_add_self step'.rightDataset
        exact ⟨t, hkeeps _ t (Aliasing.get?_add _ ht)⟩
      · exact hrest step' hstep'

theorem distinct_init (baseDataset : String) :
    Aliasing.Distinct ⟨Dict.empty.set baseDataset (tableAlias 0), 1⟩ := by
  have hget : ∀ d t, ((Dict.empty : Dict String String).set baseDataset (tableAlias 0)).get? d = some t →
      d = baseDataset ∧ t = tableAlias 0 := by
    intro d t h
    rw [get?_set] at h
    split_ifs at h with hd
    · exact ⟨hd, (Option.some.inj h).symm⟩
    · simp at h
  refine ⟨?_, ?_⟩
  · exact fun d t h => ⟨0, Nat.zero_lt_one, (hget d t h).2⟩
  · exact fun d d' t h h' => (hget d t h).1.trans (hget d' t h').1.symm

theorem aliasMap_of_tree (baseDataset : String) (steps : List JoinStep) (d : String)
    (hd : d ∈ joinedDatasets baseDataset steps) :
    (buildAliasMap baseDataset steps).get? d = some (aliasOf (buildAliasMap baseDataset steps) d) := by
  obtain ⟨-, hkeeps, hsteps⟩ := foldl_addStep steps _ (distinct_init baseDataset)
  have hsome : ∃ t, (buildAliasMap baseDataset steps).get? d = some t := by
    rcases Finset.mem_insert.1 hd with rfl | hd
    · exact ⟨_, hkeeps d _ (get?_set_self _ _ _)⟩
    · rw [mem_toFinset] at hd
      obtain ⟨step, hstep, rfl⟩ := mem_map.1 hd
      exact hsteps step hstep
  obtain ⟨t, ht⟩ := hsome
  rw [aliasOf, ht]
  rfl

/-- **Different datasets have different aliases.** -/
theorem aliasMap_injective (baseDataset : String) (steps : List JoinStep) (d d' : String)
    (hd : d ∈ joinedDatasets baseDataset steps) (hd' : d' ∈ joinedDatasets baseDataset steps)
    (h : aliasOf (buildAliasMap baseDataset steps) d = aliasOf (buildAliasMap baseDataset steps) d') : d = d' := by
  obtain ⟨hdistinct, -, -⟩ := foldl_addStep steps _ (distinct_init baseDataset)
  have hget := aliasMap_of_tree baseDataset steps d hd
  have hget' := aliasMap_of_tree baseDataset steps d' hd'
  rw [← h] at hget'
  exact hdistinct.injective d d' _ hget hget'

/-- an alias is not the empty text that an unqualified column has for a table -/
theorem aliasOf_ne_empty (baseDataset : String) (steps : List JoinStep) (d : String)
    (hd : d ∈ joinedDatasets baseDataset steps) : aliasOf (buildAliasMap baseDataset steps) d ≠ "" := by
  obtain ⟨hdistinct, -, -⟩ := foldl_addStep steps _ (distinct_init baseDataset)
  obtain ⟨n, -, heq⟩ := hdistinct.below d _ (aliasMap_of_tree baseDataset steps d hd)
  rw [heq, tableAlias]
  intro h
  have hlist := congrArg String.toList h
  rw [String.toList_append] at hlist
  exact cons_ne_nil _ _ hlist

end Langbridge.Semantic
