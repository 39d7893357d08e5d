/-
The semantic query compiler as a whole (`semantic/query/translator.py`, `semantic/query/query_model.py`): a query of
member names is resolved, its datasets are joined, and one `SELECT` is built under the aliases of the datasets. The
parser of expressions is a parameter; what is built from them, and every way to fail, is modelled.

Main results:
- `buildSelects_ok`: what the select list and the grouping consist of, member by member.
- `translate_ok`: what a translation consists of, stage by stage.
-/
import Langbridge.Core.Substitution
import Langbridge.Semantic.Filters
import Langbridge.Semantic.Resolver

namespace Langbridge.Semantic.Compiler

open Core Federation.Sql Semantic.DateRanges Semantic.Filters Finset PyText
  Semantic.Resolver

/-! ## Queries -/

def given (text : Option String) : Option String := text.filter (· ≠ "")

/-- a time dimension; its granularity has been through `_normalize_granularity` -/
structure TimeDimension [PyText] where
  dimension : String
  granularity : Option String
  dateRange : Option DateRange
  normalized : granularity.map norm = granularity

/-- a filter; `_ensure_member` has seen to its member -/
structure FilterItem where
  member : Option String
  dimension : Option String
  measure : Option String
  timeDimension : Option String
  operator : String
  values : Option (List String)
  named : ((given member).or ((given dimension).or ((given measure).or (given timeDimension)))).isSome

/-- a member to order by, with the text of its direction -/
abbrev OrderEntry := String × String

/-- an element of an order list: a dictionary, a pair, or something else -/
inductive OrderElement
  | dict (entries : List OrderEntry)
  | pair (entry : OrderEntry)
  | other

/-- the order of a query: none, a dictionary, a list, or something else -/
inductive OrderSpec
  | none
  | dict (entries : List OrderEntry)
  | list (elements : List OrderElement)
  | other

structure SemanticQuery [PyText] where
  measures : List String
  dimensions : List String
  timeDimensions : List TimeDimension
  filters : List FilterItem
  segments : List String
  order : OrderSpec
  limit : Option ℤ
  offset : Option ℤ

/-! ## Failures -/

/-- how a translation fails; the first two are semantic errors (`SemanticModelError`, and `SemanticQueryError` with
`JoinPathError`), the others those of the parser, `KeyError`, `IndexError`, `ValueError` and `StopIteration` -/
inductive TranslateError
  | model (e : SemanticModelError)
  | query (message : String)
  | parse (text : String)
  | key (dataset : String)
  | index
  | value (message : String)
  | stop

/-- `SemanticModelError` or `SemanticQueryError` -/
def TranslateError.isSemantic : TranslateError → Bool
  | .model _ => true
  | .query _ => true
  | _ => false

def TranslateError.ofFilter : FilterError → TranslateError
  | .query message => .query message
  | .index => .index
  | .value e => .value e.message

/-! ## Terms -/

/-- what stands in the select list: an expression or an aggregate of one -/
inductive Term
  | expr (e : Expr)
  | aggregate (a : Aggregate)

/-- what the compiler uses of its surroundings: the parser of expressions (in the dialect, or else as T-SQL), whether a
function can be called with one argument, and the element that a set gives first -/
structure Surroundings where
  parse : String → Option Expr
  acceptsOne : String → Bool
  first : Finset String → Option String
  first_mem : ∀ s d, first s = some d → d ∈ s
  first_none : ∀ s, first s = none → s = ∅

/-- surroundings that read the texts of a table, and whose sets give their elements in order -/
def Surroundings.ofTable (texts : List (String × Expr)) : Surroundings where
  parse text := texts.lookup text
  acceptsOne _ := true
  first s := (s.sort (· ≤ ·)).head?
  first_mem s d h := (mem_sort (· ≤ ·)).1 (List.mem_of_head? h)
  first_none s h := by
    rw [List.head?_eq_none_iff] at h
    exact eq_empty_of_forall_notMem fun d hd => by
      rw [← mem_sort (· ≤ ·), h] at hd
      cases hd

section Terms

variable [PyNumerals] (S : Surroundings) (aliasMap : Dict String String)

def ensureExpression (text : String) : Except TranslateError Expr :=
  match S.parse text with
  | some e => .ok e
  | none => .error (.parse text)

/-- `_column_expression` once the alias is known; an empty text is no expression -/
def columnOver (asName column expression : String) (dataType : Option String) : Except TranslateError Expr :=
  if expression = "" then .ok (coerceColumnType (Expr.column ⟨column, asName, "", ""⟩) dataType)
  else
    (ensureExpression S expression).map fun e =>
      let base := match e.label with
        | .column r =>
          if r.table = "" then Expr.column ⟨sourceColumn r.name column, asName, "", ""⟩
          else replaceTableRefs aliasMap e
        | _ => replaceTableRefs aliasMap e
      coerceColumnType base dataType

/-- `alias_map[dataset]` -/
def aliasAt (dataset : String) : Except TranslateError String :=
  match aliasMap.get? dataset with
  | some asName => .ok asName
  | none => .error (.key dataset)

def columnExpression (dataset column expression : String) (dataType : Option String) : Except TranslateError Expr := do
  let asName ← aliasAt aliasMap dataset
  columnOver S aliasMap asName column expression dataType

def aggregationOfRef (m : Resolver.MeasureRef) : AggregateFn :=
  aggregationOf ⟨m.dataset, m.column, none, some m.dataType, m.aggregation⟩

/-- the function that a measure applies can be called with one argument -/
def acceptsAggregation (m : Resolver.MeasureRef) : Bool :=
  match aggregationOfRef m with
  | .func name => S.acceptsOne name
  | _ => true

def aggregateOf (m : Resolver.MeasureRef) (column : Expr) : Except TranslateError Term :=
  if acceptsAggregation S m then .ok (.aggregate ⟨aggregationOfRef m, column⟩)
  else .error (.value "a required argument is missing")

def measureExpression (m : Resolver.MeasureRef) : Except TranslateError Term := do
  let column ← columnExpression S aliasMap m.dataset m.column m.expression none
  aggregateOf S m column

/-- `_replace_table_refs` of a text -/
def replaceRefs (text : String) : Except TranslateError Expr :=
  (ensureExpression S text).map (replaceTableRefs aliasMap)

def supportedUnits : List String := ["week", "month", "quarter", "year", "day", "hour", "minute", "second"]

def dateTrunc (granularity : String) (e : Expr) (dialect : String) : Except TranslateError Expr :=
  let unit := norm granularity
  if unit ∉ supportedUnits then .error (.value ("Unsupported granularity '" ++ granularity ++ "'."))
  else if isPostgres dialect then .ok (Expr.op "DateTrunc" [e, Expr.lit (.text unit)])
  else
    .ok (Expr.op "DateAdd" [Expr.lit (.int 0),
      Expr.op "DateDiff" [e, Expr.lit (.int 0), Expr.op "Var" [Expr.lit (.text unit)]],
      Expr.op "Var" [Expr.lit (.text unit)]])

end Terms

/-! ## Resolved queries -/

structure MetricRef where
  key : String
  expression : String
deriving DecidableEq

structure TimeDimensionRef where
  dimension : Resolver.DimensionRef
  granularity : Option String
  dateRange : Option DateRange

inductive FilterMember
  | dimension (d : Resolver.DimensionRef)
  | measure (m : Resolver.MeasureRef)
  | metric (m : MetricRef)

structure FilterTarget where
  member : FilterMember
  target : Term
  predicate : Predicate

/-- the members of a query -/
structure Members where
  dimensions : List Resolver.DimensionRef
  timeDimensions : List TimeDimensionRef
  measures : List Resolver.MeasureRef
  metrics : List MetricRef
  filters : List FilterMember
  segments : List Resolver.SegmentRef

/-- the members of a query, with the conditions of its filters -/
structure Resolved where
  dimensions : List Resolver.DimensionRef
  timeDimensions : List TimeDimensionRef
  measures : List Resolver.MeasureRef
  metrics : List MetricRef
  filters : List FilterTarget
  segments : List Resolver.SegmentRef

def Resolved.members (r : Resolved) : Members :=
  ⟨r.dimensions, r.timeDimensions, r.measures, r.metrics, r.filters.map FilterTarget.member, r.segments⟩

/-- `\bkey\.` -/
def referencePattern [PyText] (key : String) : Pattern Char Unit := fun before text =>
  let found := (key ++ ".").toList
  if found.isPrefixOf text ∧ (before.any isWord ≠ (text.head?.any isWord)) then some (found.length, ())
  else none

/-- `re.search` -/
def mentions [PyText] (key text : String) : Bool :=
  ((referencePattern key).pieces (fun _ _ => ()) () none 0 text.toList).any Piece.isFound

/-- `[A-Za-z_]` and `[A-Za-z0-9_]` -/
def isNameStart (c : Char) : Bool := c.isAlpha || c = '_'

def isNameChar (c : Char) : Bool := c.isAlphanum || c = '_'

/-- `\b([A-Za-z_][A-Za-z0-9_]*)\.` -/
def namePattern [PyText] : Pattern Char String := fun before text =>
  let name := text.takeWhile isNameChar
  if ¬before.any isWord ∧ text.head?.any isNameStart ∧ (text.drop name.length).head? = some '.' then
    some (name.length + 1, String.ofList name)
  else none

/-- the data of a match -/
def foundData {μ δ : Type} : Piece Char μ δ → Option δ
  | .same _ => none
  | .found _ _ d => some d

def datasetsFromExpression [PyText] (text : String) : List String :=
  (namePattern.pieces (fun _ _ => ()) () none 0 text.toList).filterMap foundData

section Resolving

variable [PyNumerals] (S : Surroundings) (model : SemanticModel) (dialect : String)

/-- `extract_datasets_from_expression` -/
def extractDatasets (text : String) : Finset String :=
  (model.datasets.keys.filter fun key => mentions key text).toFinset

def metricsOf : Dict String Metric := model.metrics.getD Dict.empty

def resolveMeasureOrMetric (member : String) : Except TranslateError (Resolver.MeasureRef ⊕ MetricRef) :=
  match (metricsOf model).get? member with
  | some metric => .ok (.inr ⟨member, metric.expression⟩)
  | none => ((resolveMeasure model member).map Sum.inl).mapError .model

def FilterItem.memberText (item : FilterItem) : Option String :=
  (given item.member).or ((given item.dimension).or ((given item.measure).or (given item.timeDimension)))

def FilterMember.ofMeasure : Resolver.MeasureRef ⊕ MetricRef → FilterMember
  | .inl m => .measure m
  | .inr m => .metric m

def filterMember (item : FilterItem) : Except TranslateError FilterMember :=
  match item.memberText with
  | none => .error (.query "Filter is missing member information.")
  | some member =>
    if (given item.dimension).isSome ∨ (given item.timeDimension).isSome then
      ((resolveDimension model member).map .dimension).mapError .model
    else if (given item.measure).isSome then (resolveMeasureOrMetric model member).map .ofMeasure
    else
      match (metricsOf model).get? member, resolveDimension model member with
      | some metric, _ => .ok (.metric ⟨member, metric.expression⟩)
      | none, .ok d => .ok (.dimension d)
      | none, .error _ => (resolveMeasureOrMetric model member).map .ofMeasure

/-- `_build_filter_expression` of a filter -/
def buildPredicate (item : FilterItem) (dataType : Option String) : Except TranslateError Predicate :=
  (buildFilterExpression (item.values.getD []) dataType dialect (norm item.operator)).mapError .ofFilter

/-- what a filter is on, with names of datasets for tables -/
def filterTerm : FilterMember → Except TranslateError Term
  | .dimension d => (columnOver S Dict.empty d.dataset d.column d.expression none).map .expr
  | .measure m => do
    let column ← columnOver S Dict.empty m.dataset m.column m.expression none
    aggregateOf S m column
  | .metric m => (ensureExpression S m.expression).map .expr

/-- the type that the values of a filter are literals of -/
def FilterMember.dataType : FilterMember → Option String
  | .dimension d => some d.dataType
  | .measure m => some m.dataType
  | .metric _ => none

def FilterMember.datasets : FilterMember → Finset String
  | .dimension d => {d.dataset}
  | .measure m => {m.dataset}
  | .metric m => extractDatasets model m.expression

def FilterMember.isDimension : FilterMember → Bool
  | .dimension _ => true
  | _ => false

def resolveFilterTarget (item : FilterItem) : Except TranslateError FilterTarget := do
  let member ← filterMember model item
  let target ← filterTerm S member
  let predicate ← buildPredicate dialect item member.dataType
  return ⟨member, target, predicate⟩

def resolveTimeDimension (item : TimeDimension) : Except TranslateError TimeDimensionRef :=
  ((resolveDimension model item.dimension).map fun d => ⟨d, item.granularity, item.dateRange⟩).mapError .model

def resolveQuery (q : SemanticQuery) : Except TranslateError Resolved := do
  let dimensions ← q.dimensions.mapM fun member => (resolveDimension model member).mapError .model
  let timeDimensions ← q.timeDimensions.mapM (resolveTimeDimension model)
  let members ← q.measures.mapM (resolveMeasureOrMetric model)
  let filters ← q.filters.mapM (resolveFilterTarget S model dialect)
  let segments ← q.segments.mapM fun member => (resolveSegment model member).mapError .model
  return ⟨dimensions, timeDimensions, members.filterMap Sum.getLeft?, members.filterMap Sum.getRight?, filters,
    segments⟩

end Resolving

/-! ## The statement -/

inductive WhereCondition
  | filter (target : Term) (predicate : Predicate)
  | dateRange (column : Expr) (condition : RangeCondition)
  | segment (e : Expr)

/-- an element of `ORDER BY`: an output column or a term -/
inductive OrderTerm
  | asName (name : String)
  | term (t : Term)

/-- the table of a dataset; empty texts for a schema or a catalog that it does not have -/
structure TableRef where
  dataset : String
  relation : String
  db : String
  catalog : String
deriving DecidableEq

structure Join where
  table : TableRef
  asName : String
  on : Expr
  kind : Joins.Kind

structure Statement where
  base : TableRef
  baseAlias : String
  joins : List Join
  select : List (Term × String)
  groupBy : List Expr
  conditions : List WhereCondition
  having : List (Term × Predicate)
  orderBy : List (OrderTerm × Bool)
  limit : Option (ℤ × ℤ)

/-- `_replace_table_refs` of what a filter is on -/
def Term.replaceRefs [PyText] (aliasMap : Dict String String) : Term → Term
  | .expr e => .expr (replaceTableRefs aliasMap e)
  | .aggregate a => .aggregate ⟨a.fn, replaceTableRefs aliasMap a.this⟩

def collectRequiredDatasets [PyNumerals] (model : SemanticModel) (r : Members) : Finset String :=
  (r.dimensions.map Resolver.DimensionRef.dataset).toFinset ∪
    (r.timeDimensions.map fun t => t.dimension.dataset).toFinset ∪
    (r.measures.map Resolver.MeasureRef.dataset).toFinset ∪
    (r.metrics.map fun m => extractDatasets model m.expression).foldr (· ∪ ·) ∅ ∪
    (r.filters.map fun f => f.datasets model).foldr (· ∪ ·) ∅ ∪
    (r.segments.map Resolver.SegmentRef.dataset).toFinset

def chooseBaseDataset [PyNumerals] (S : Surroundings) (model : SemanticModel) (r : Members) :
    Except TranslateError String :=
  match r.measures, r.metrics.head?.bind fun m => (datasetsFromExpression m.key).head?, r.timeDimensions, r.dimensions,
    r.filters, r.segments with
  | measure :: _, _, _, _, _, _ => .ok measure.dataset
  | [], some dataset, _, _, _, _ => .ok dataset
  | [], none, timeDimension :: _, _, _, _ => .ok timeDimension.dimension.dataset
  | [], none, [], dimension :: _, _, _ => .ok dimension.dataset
  | [], none, [], [], filter :: _, _ =>
    match S.first (filter.datasets model) with
    | some dataset => .ok dataset
    | none => .error .stop
  | [], none, [], [], [], segment :: _ => .ok segment.dataset
  | [], none, [], [], [], [] => .error (.query "Semantic query did not reference any tables.")

section Building

variable [PyNumerals] (S : Surroundings) (model : SemanticModel) (dialect : String) (aliasMap : Dict String String)

def selectDimension (d : Resolver.DimensionRef) : Except TranslateError (Expr × String) :=
  (columnExpression S aliasMap d.dataset d.column d.expression (some d.dataType)).map fun e =>
    (e, aliasForMember (d.dataset ++ "." ++ d.column))

/-- the truncation that a granularity stands for -/
def truncate (granularity : Option String) (e : Expr) : Except TranslateError Expr :=
  match given granularity with
  | some g => dateTrunc g e dialect
  | none => .ok e

def selectTimeDimension (t : TimeDimensionRef) : Except TranslateError (Expr × String) := do
  let base ← columnExpression S aliasMap t.dimension.dataset t.dimension.column "" (some t.dimension.dataType)
  let e ← truncate dialect t.granularity base
  return (e, aliasForTimeDimension t.dimension.dataset t.dimension.column (given t.granularity))

def selectMeasure (m : Resolver.MeasureRef) : Except TranslateError (Term × String) :=
  (measureExpression S aliasMap m).map fun t => (t, aliasForMember (m.dataset ++ "." ++ m.column))

def selectMetric (m : MetricRef) : Except TranslateError (Term × String) :=
  (replaceRefs S aliasMap m.expression).map fun e => (.expr e, aliasForMember m.key)

/-- an expression of the select list -/
def asTerm (e : Expr × String) : Term × String := (.expr e.1, e.2)

/-- the select list and the grouping of `_build_selects` -/
def buildSelects (r : Resolved) : Except TranslateError (List (Term × String) × List Expr) := do
  let dimensions ← r.dimensions.mapM (selectDimension S aliasMap)
  let timeDimensions ← r.timeDimensions.mapM (selectTimeDimension S dialect aliasMap)
  let measures ← r.measures.mapM (selectMeasure S aliasMap)
  let metrics ← r.metrics.mapM (selectMetric S aliasMap)
  let grouped := dimensions ++ timeDimensions
  let select := grouped.map asTerm ++ measures ++ metrics
  if select.isEmpty then .error (.query "Semantic query did not include any dimensions, measures, or metrics.")
  else .ok (select, grouped.map Prod.fst)

def TimeDimensionRef.range (t : TimeDimensionRef) : Option DateRange :=
  t.dateRange.filter fun range => range ≠ .text "" ∧ range ≠ .list []

/-- the expression that a date range is put on: the name of the column itself is none -/
def TimeDimensionRef.rangeExpression (t : TimeDimensionRef) : String :=
  if strip t.dimension.expression = t.dimension.column then "" else t.dimension.expression

def rangeCondition (t : TimeDimensionRef) (range : DateRange) : Except TranslateError WhereCondition := do
  let column ← columnExpression S aliasMap t.dimension.dataset t.dimension.column t.rangeExpression
    (some t.dimension.dataType)
  let condition ← (buildDateRangeCondition range (some t.dimension.dataType) dialect).mapError fun e => .value e.message
  return .dateRange column condition

def segmentCondition (s : Resolver.SegmentRef) : Except TranslateError WhereCondition :=
  (replaceRefs S aliasMap s.condition).map .segment

def buildWhereConditions (r : Resolved) : Except TranslateError (List WhereCondition) := do
  let filters := (r.filters.filter fun f => f.member.isDimension).map fun f =>
    WhereCondition.filter (f.target.replaceRefs aliasMap) f.predicate
  let ranges ← (r.timeDimensions.filterMap fun t => t.range.map fun range => (t, range)).mapM fun e =>
    rangeCondition S dialect aliasMap e.1 e.2
  let segments ← r.segments.mapM (segmentCondition S aliasMap)
  return filters ++ ranges ++ segments

def buildHavingConditions (r : Resolved) : List (Term × Predicate) :=
  (r.filters.filter fun f => !f.member.isDimension).map fun f => (f.target.replaceRefs aliasMap, f.predicate)

/-! ## `ORDER BY` -/

def buildMemberCandidates (dataset column : String) : List String :=
  (dataset ++ "." ++ column) ::
    match model.datasets.get? dataset with
    | none => []
    | some d =>
      let relation := d.getRelationName dataset
      let schemaRelation := joinParts [d.schemaName.getD "", relation]
      let catalog := d.catalogName.getD ""
      (if relation = "" then [] else [relation ++ "." ++ column]) ++
        (if schemaRelation = "" then []
          else (schemaRelation ++ "." ++ column) ::
            if catalog = "" then [] else [catalog ++ "." ++ schemaRelation ++ "." ++ column])

/-- `_register_column_order_aliases` -/
def columnOrderAliases (asName dataset column : String) (granularity : Option String) : List (String × String) :=
  (asName, asName) :: (buildMemberCandidates model dataset column).flatMap fun key =>
    (key, asName) :: ((given granularity).map fun g => (key ++ "." ++ g, asName)).toList

/-- the names that an order may use for the output columns -/
def orderAliases (r : Members) : Dict String String :=
  Dict.ofList
    (r.dimensions.flatMap (fun d =>
        columnOrderAliases model (aliasForMember (d.dataset ++ "." ++ d.column)) d.dataset d.column none) ++
      r.timeDimensions.flatMap (fun t =>
        columnOrderAliases model
          (aliasForTimeDimension t.dimension.dataset t.dimension.column (given t.granularity)) t.dimension.dataset
          t.dimension.column t.granularity) ++
      r.measures.flatMap (fun m =>
        columnOrderAliases model (aliasForMember (m.dataset ++ "." ++ m.column)) m.dataset m.column none) ++
      r.metrics.flatMap fun m => [(aliasForMember m.key, aliasForMember m.key), (m.key, aliasForMember m.key)])

/-- `_normalize_direction`; whether it descends -/
def descends (direction : String) : Bool := norm (if direction = "" then "asc" else direction) = "desc"

def normalizeOrder : OrderSpec → Except TranslateError (List (String × Bool))
  | .none => .ok []
  | .dict entries => .ok (entries.map fun e => (e.1, descends e.2))
  | .list elements => .ok (elements.flatMap fun element =>
      match element with
      | .dict entries => entries.map fun e => (e.1, descends e.2)
      | .pair e => [(e.1, descends e.2)]
      | .other => [])
  | .other => .error (.query "Unsupported order format.")

/-- the time dimension that a member stands for: by `dataset.column`, or by what the member resolves to -/
def matchingTimeDimension (r : Members) (member : String) : Option TimeDimensionRef :=
  (r.timeDimensions.find? fun t => member = t.dimension.dataset ++ "." ++ t.dimension.column).or
    (match resolveDimension model member with
      | .ok d => r.timeDimensions.find? fun t => t.dimension.dataset = d.dataset ∧ t.dimension.column = d.column
      | .error _ => none)

inductive OrderMember
  | timeDimension (t : TimeDimensionRef)
  | dimension (d : Resolver.DimensionRef)
  | measure (m : Resolver.MeasureRef)
  | metric (m : MetricRef)

def orderMember (r : Members) (member : String) : Except TranslateError OrderMember :=
  match matchingTimeDimension model r member, resolveDimension model member, resolveMeasure model member,
    r.metrics.find? fun m => m.key = member with
  | some t, _, _, _ => .ok (.timeDimension t)
  | none, .ok d, _, _ => .ok (.dimension d)
  | none, .error _, .ok m, _ => .ok (.measure m)
  | none, .error _, .error _, some m => .ok (.metric m)
  | none, .error _, .error _, none => .error (.query ("Unable to resolve order member '" ++ member ++ "'."))

def orderExpression : OrderMember → Except TranslateError Term
  | .timeDimension t => do
    let column ← columnExpression S aliasMap t.dimension.dataset t.dimension.column t.dimension.expression none
    let e ← truncate dialect t.granularity column
    return .expr e
  | .dimension d => (columnExpression S aliasMap d.dataset d.column d.expression none).map .expr
  | .measure m => measureExpression S aliasMap m
  | .metric m => (replaceRefs S aliasMap m.expression).map .expr

def resolveOrderMember (r : Members) (member : String) : Except TranslateError Term := do
  let resolved ← orderMember model r member
  orderExpression S dialect aliasMap resolved

/-- an element of `_build_order_clause` -/
def orderTerm (r : Members) (item : String × Bool) : Except TranslateError (OrderTerm × Bool) :=
  match ((orderAliases model r).get? item.1).filter (· ≠ "") with
  | some asName => .ok (.asName asName, item.2)
  | none => (resolveOrderMember S model dialect aliasMap r item.1).map fun t => (.term t, item.2)

/-! ## `FROM` and the whole -/

def joinConditionText (r : Relationship) : String :=
  r.sourceDataset ++ "." ++ r.sourceField ++ " " ++ r.operator ++ " " ++ r.targetDataset ++ "." ++ r.targetField

/-- the table of a dataset; a schema with a dot holds the catalog, where no other is given -/
def tableRef (dataset : String) (d : Dataset) : TableRef :=
  let schema := d.schemaName.getD ""
  let catalog := d.catalogName.getD ""
  if catalog = "" ∧ '.' ∈ schema.toList then
    ⟨dataset, d.getRelationName dataset, afterDot schema, beforeDot schema⟩
  else ⟨dataset, d.getRelationName dataset, schema, catalog⟩

def datasetRef (dataset : String) : Except TranslateError TableRef :=
  match model.datasets.get? dataset with
  | some d => .ok (tableRef dataset d)
  | none => .error (.query ("Unknown dataset '" ++ dataset ++ "'."))

def applyJoin (step : JoinStep) : Except TranslateError Join := do
  let table ← datasetRef model step.rightDataset
  let on ← replaceRefs S aliasMap (joinConditionText step.relationship)
  return ⟨table, aliasOf aliasMap step.rightDataset, on, joinType step.relationship.type⟩

def applyLimit (q : SemanticQuery) : Option (ℤ × ℤ) :=
  if q.limit = none ∧ q.offset = none then none else some (q.limit.getD 2147483647, q.offset.getD 0)

end Building

/-- a statement with what it was made from -/
structure Translation where
  resolved : Resolved
  baseDataset : String
  steps : List JoinStep
  statement : Statement

def Translation.aliasMap (t : Translation) : Dict String String := buildAliasMap t.baseDataset t.steps

section Translating

variable [PyNumerals] (S : Surroundings) (model : SemanticModel) (dialect : String)

/-- the statement over a plan -/
def buildStatement (q : SemanticQuery) (r : Resolved) (baseDataset : String) (steps : List JoinStep) :
    Except TranslateError Statement := do
  let aliasMap := buildAliasMap baseDataset steps
  let (select, groupBy) ← buildSelects S dialect aliasMap r
  let conditions ← buildWhereConditions S dialect aliasMap r
  let items ← normalizeOrder q.order
  let orderBy ← items.mapM (orderTerm S model dialect aliasMap r.members)
  let base ← datasetRef model baseDataset
  let joins ← steps.mapM (applyJoin S model aliasMap)
  return ⟨base, aliasOf aliasMap baseDataset, joins, select, groupBy, conditions, buildHavingConditions aliasMap r,
    orderBy, applyLimit q⟩

def plannerOf : JoinPlanner := JoinPlanner.init model.relationships

def translate (q : SemanticQuery) : Except TranslateError Translation := do
  let r ← resolveQuery S model dialect q
  let baseDataset ← chooseBaseDataset S model r.members
  let required := insert baseDataset (collectRequiredDatasets model r.members)
  let steps ← ((plannerOf model).plan baseDataset required).mapError fun e => .query e.message
  let statement ← buildStatement S model dialect q r baseDataset steps
  return ⟨r, baseDataset, steps, statement⟩

/-! ## The stages -/

structure Selected (aliasMap : Dict String String) (r : Resolved) (selectClauses : List (Term × String))
    (grouping : List Expr) (ds ts : List (Expr × String)) (ms ks : List (Term × String)) : Prop where
  dimensions : List.Forall₂ (fun d e => selectDimension S aliasMap d = .ok e) r.dimensions ds
  timeDimensions : List.Forall₂ (fun t e => selectTimeDimension S dialect aliasMap t = .ok e) r.timeDimensions ts
  measures : List.Forall₂ (fun m e => selectMeasure S aliasMap m = .ok e) r.measures ms
  metrics : List.Forall₂ (fun m e => selectMetric S aliasMap m = .ok e) r.metrics ks
  select : selectClauses = (ds ++ ts).map asTerm ++ ms ++ ks
  groupBy : grouping = (ds ++ ts).map Prod.fst

variable {S model dialect}

theorem buildSelects_ok {aliasMap : Dict String String} {r : Resolved} {select : List (Term × String)}
    {groupBy : List Expr} (h : buildSelects S dialect aliasMap r = .ok (select, groupBy)) :
    ∃ dimensions timeDimensions measures metrics,
      Selected S dialect aliasMap r select groupBy dimensions timeDimensions measures metrics := by
  obtain ⟨dimensions, hdimensions, h⟩ := of_bind_ok h
  obtain ⟨timeDimensions, htimeDimensions, h⟩ := of_bind_ok h
  obtain ⟨measures, hmeasures, h⟩ := of_bind_ok h
  obtain ⟨metrics, hmetrics, h⟩ := of_bind_ok h
  dsimp only at h
  split at h
  · cases h
  · cases h
    exact ⟨dimensions, timeDimensions, measures, metrics, forall₂_of_mapM hdimensions, forall₂_of_mapM htimeDimensions,
      forall₂_of_mapM hmeasures, forall₂_of_mapM hmetrics, rfl, rfl⟩

variable (S model dialect)

/-- what a translation consists of -/
structure Translated (q : SemanticQuery) (t : Translation) : Prop where
  resolved : resolveQuery S model dialect q = .ok t.resolved
  base : chooseBaseDataset S model t.resolved.members = .ok t.baseDataset
  steps : (plannerOf model).plan t.baseDataset
    (insert t.baseDataset (collectRequiredDatasets model t.resolved.members)) = .ok t.steps
  selects : buildSelects S dialect t.aliasMap t.resolved = .ok (t.statement.select, t.statement.groupBy)
  conditions : buildWhereConditions S dialect t.aliasMap t.resolved = .ok t.statement.conditions
  having : t.statement.having = buildHavingConditions t.aliasMap t.resolved
  orderBy : ∃ items, normalizeOrder q.order = .ok items ∧
    items.mapM (orderTerm S model dialect t.aliasMap t.resolved.members) = .ok t.statement.orderBy
  table : datasetRef model t.baseDataset = .ok t.statement.base
  joins : t.steps.mapM (applyJoin S model t.aliasMap) = .ok t.statement.joins

variable {S model dialect}

theorem translate_ok {q : SemanticQuery} {t : Translation} (h : translate S model dialect q = .ok t) :
    Translated S model dialect q t := by
  obtain ⟨r, hr, h⟩ := of_bind_ok h
  obtain ⟨baseDataset, hbase, h⟩ := of_bind_ok h
  obtain ⟨steps, hsteps, h⟩ := of_bind_ok h
  obtain ⟨statement, hstatement, h⟩ := of_bind_ok h
  cases h
  obtain ⟨⟨select, groupBy⟩, hselects, hstatement⟩ := of_bind_ok hstatement
  obtain ⟨conditions, hconditions, hstatement⟩ := of_bind_ok hstatement
  obtain ⟨items, hitems, hstatement⟩ := of_bind_ok hstatement
  obtain ⟨orderBy, horderBy, hstatement⟩ := of_bind_ok hstatement
  obtain ⟨table, htable, hstatement⟩ := of_bind_ok hstatement
  obtain ⟨joins, hjoins, hstatement⟩ := of_bind_ok hstatement
  cases hstatement
  refine ⟨hr, hbase, ?_, hselects, hconditions, rfl, ⟨items, hitems, horderBy⟩, htable, hjoins⟩
  cases hplan : (plannerOf model).plan baseDataset (insert baseDataset (collectRequiredDatasets model r.members)) with
  | ok planned =>
    rw [hplan] at hsteps
    exact congrArg Except.ok (Except.ok.inj hsteps)
  | error e =>
    rw [hplan] at hsteps
    cases hsteps

end Translating

end Langbridge.Semantic.Compiler
