/-
What the columns of a compiled query stand for. A dimension is to stand for one and the same expression, its declared
one under the alias of its dataset, wherever it occurs: in the select list, the grouping, the conditions, the date
ranges and the order. Every column reference is to be bound to the alias of the dataset that declares it.
-/
import Langbridge.Semantic.Compilability

namespace Langbridge.Semantic.Compiler

open Core Federation.Sql Semantic.DateRanges Semantic.Filters List PyText
  Semantic.Resolver

/-! ## Bound expressions -/

section Bound

variable (aliasMap : Dict String String)

/-- a reference under the alias of its dataset: the one that stands before it, or the owner of the expression -/
def boundColumn (owner : Option String) (r : ColumnRef) : Option ColumnRef :=
  ((if r.table = "" then owner else some r.table).bind aliasMap.get?).map fun asName => ⟨r.name, asName, "", ""⟩

/-- the second expression is the first one with all its references bound -/
def Bound (owner : Option String) (e b : Expr) : Prop :=
  (∀ r ∈ e.columns, (boundColumn aliasMap owner r).isSome = true) ∧
    b = e.mapColumns fun r => (boundColumn aliasMap owner r).getD r

/-- the expression that a member declares; without one it is the column of its name -/
def declaredExpr (S : Surroundings) (column expression : String) : Option Expr :=
  if expression = "" then some (Expr.column ⟨column, "", "", ""⟩) else S.parse expression

end Bound

section Bindings

variable [PyNumerals] (S : Surroundings) (model : SemanticModel) (dialect : String)

def castIf (cast : Bool) (d : Resolver.DimensionRef) (e : Expr) : Expr :=
  if cast then coerceColumnType e (some d.dataType) else e

/-- a dimension stands for its declared expression, bound, or for the cast of it -/
def StandsFor (aliasMap : Dict String String) (d : Resolver.DimensionRef) (cast : Bool) (x : Expr) : Prop :=
  ∃ e b, declaredExpr S d.column d.expression = some e ∧ Bound aliasMap (some d.dataset) e b ∧ x = castIf cast d b

/-! ## Occurrences -/

/-- what stands in a clause for a dimension, truncated to a granularity or not -/
structure Occurrence where
  dimension : Resolver.DimensionRef
  granularity : Option String
  placed : Term

def occur (e : (Resolver.DimensionRef × Option String) × Term) : Occurrence := ⟨e.1.1, e.1.2, e.2⟩

def Resolved.grouped (r : Resolved) : List (Resolver.DimensionRef × Option String) :=
  r.dimensions.map (fun d => (d, none)) ++ r.timeDimensions.map fun t => (t.dimension, t.granularity)

def FilterMember.dimension? : FilterMember → Option Resolver.DimensionRef
  | .dimension d => some d
  | _ => none

def ranged (timeDimensions : List TimeDimensionRef) : List TimeDimensionRef :=
  timeDimensions.filter fun t => t.range.isSome

def Resolved.restricting (r : Resolved) : List (Resolver.DimensionRef × Option String) :=
  (r.filters.filterMap fun f => f.member.dimension?).map (fun d => (d, none)) ++
    (ranged r.timeDimensions).map fun t => (t.dimension, none)

def WhereCondition.restricted : WhereCondition → Option Term
  | .filter target _ => some target
  | .dateRange column _ => some (.expr column)
  | .segment _ => none

def OrderMember.dimension? : OrderMember → Option (Resolver.DimensionRef × Option String)
  | .timeDimension t => some (t.dimension, t.granularity)
  | .dimension d => some (d, none)
  | _ => none

def OrderTerm.term? : OrderTerm → Option Term
  | .term t => some t
  | .asName _ => none

def orderTerms (q : SemanticQuery) (t : Translation) : List (OrderMember × Term) :=
  ((orderItems q.order).zip t.statement.orderBy).filterMap fun e =>
    match e.2.1.term?, orderMember model t.resolved.members e.1.1 with
    | some term, .ok m => some (m, term)
    | _, _ => none

def occurrences (q : SemanticQuery) (t : Translation) : List Occurrence :=
  (t.resolved.grouped.zip (t.statement.select.map Prod.fst)).map occur ++
    (t.resolved.grouped.zip (t.statement.groupBy.map Term.expr)).map occur ++
    (t.resolved.restricting.zip (t.statement.conditions.filterMap WhereCondition.restricted)).map occur ++
    (orderTerms model q t).filterMap fun e => e.1.dimension?.map fun d => occur (d, e.2)

/-! ## Other expressions -/

/-- what an expression that is no dimension comes from -/
inductive Origin
  | measure (m : Resolver.MeasureRef)
  | metric (m : MetricRef)
  | segment (s : Resolver.SegmentRef)
  | join (s : JoinStep)

/-- the dataset whose columns need no table -/
def Origin.owner : Origin → Option String
  | .measure m => some m.dataset
  | .segment s => some s.dataset
  | .metric _ => none
  | .join _ => none

def Origin.declared : Origin → Option Expr
  | .measure m => declaredExpr S m.column m.expression
  | .metric m => S.parse m.expression
  | .segment s => S.parse s.condition
  | .join s => S.parse (joinConditionText s.relationship)

def FilterMember.origin? : FilterMember → Option Origin
  | .dimension _ => none
  | .measure m => some (.measure m)
  | .metric m => some (.metric m)

def OrderMember.origin? : OrderMember → Option Origin
  | .measure m => some (.measure m)
  | .metric m => some (.metric m)
  | _ => none

/-- an expression in a statement, with what it comes from -/
structure Placement where
  origin : Origin
  placed : Expr

def put (e : Origin × Expr) : Placement := ⟨e.1, e.2⟩

/-- the expression of a term -/
def Term.body : Term → Expr
  | .expr e => e
  | .aggregate a => a.this

def WhereCondition.segment? : WhereCondition → Option Expr
  | .segment e => some e
  | _ => none

/-- the expressions of measures, metrics, segments and joins in a statement, clause by clause -/
def placements (q : SemanticQuery) (t : Translation) : List Placement :=
  ((t.resolved.measures.map Origin.measure ++ t.resolved.metrics.map Origin.metric).zip
      ((t.statement.select.drop t.resolved.grouped.length).map fun c => c.1.body)).map put ++
    ((t.resolved.filters.filterMap fun f => f.member.origin?).zip (t.statement.having.map fun c => c.1.body)).map put ++
    ((t.resolved.segments.map Origin.segment).zip (t.statement.conditions.filterMap WhereCondition.segment?)).map put ++
    ((t.steps.map Origin.join).zip (t.statement.joins.map Join.on)).map put ++
    (orderTerms model q t).filterMap fun e => e.1.origin?.map fun origin => put (origin, e.2.body)

/-- **What the columns stand for**: each dimension for one expression wherever it occurs, truncated where it has a
granularity, and every other expression is the declared one, bound. -/
structure BindsColumns (q : SemanticQuery) (t : Translation) : Prop where
  dimensions : ∀ d, (∃ o ∈ occurrences model q t, o.dimension = d) → ∃ cast x, StandsFor S t.aliasMap d cast x ∧
    ∀ o ∈ occurrences model q t, o.dimension = d →
      (truncate dialect o.granularity x).map Term.expr = .ok o.placed
  others : ∀ p ∈ placements model q t, ∃ e, p.origin.declared S = some e ∧
    Bound t.aliasMap p.origin.owner e p.placed

/-! ## The condition -/

def plannedSteps (ms : Members) : List JoinStep :=
  match chooseBaseDataset S model ms with
  | .ok baseDataset =>
    ((plannerOf model).plan baseDataset (insert baseDataset (collectRequiredDatasets model ms))).toOption.getD []
  | .error _ => []

/-- the datasets that are joined for them -/
def plannedDatasets (ms : Members) : Finset String :=
  match chooseBaseDataset S model ms with
  | .ok baseDataset =>
    (plannerOf model).reached baseDataset (insert baseDataset (collectRequiredDatasets model ms))
  | .error _ => ∅

/-- every reference has a joined dataset before it; a reference without one is of the dataset whose key is empty -/
def Replaced (joined : Finset String) (owner : Option String) (e : Expr) : Prop :=
  ∀ r ∈ e.columns, r.table ∈ joined ∧ (r.table = "" → owner = some "")

/-- a member's expression: none, a column without a table that has no blanks at its ends, or one whose references all
have a joined dataset before them -/
def Faithful (joined : Finset String) (dataset column expression : String) (e : Expr) : Prop :=
  expression = "" ∨ (∃ r, e = Expr.column r ∧ r.table = "" ∧ sourceColumn r.name column = r.name) ∨
    (∀ r, e.label = .column r → r.table ≠ "") ∧ Replaced joined (some dataset) e

def Plain (d : Resolver.DimensionRef) (e : Expr) : Prop :=
  ∃ r, e = Expr.column r ∧ r.name = d.column ∧ (r.table = "" ∨ r.table = d.dataset)

def dated (d : Resolver.DimensionRef) : Prop := norm d.dataType ∈ dateTypes

/-- how a dimension is used: by its expression with a cast, by its column with a cast, or by its expression alone -/
inductive UseKind
  | whole | column | bare
deriving DecidableEq

def uses (ms : Members) (items : List (String × Bool)) : List (Resolver.DimensionRef × UseKind) :=
  ms.dimensions.map (fun d => (d, .whole)) ++ ms.timeDimensions.map (fun t => (t.dimension, .column)) ++
    (ms.filters.filterMap FilterMember.dimension?).map (fun d => (d, .bare)) ++
    (ranged ms.timeDimensions).map (fun t => (t.dimension, if t.rangeExpression = "" then .column else .whole)) ++
    (orderMembers model ms items).filterMap fun m => m.dimension?.map fun d => (d.1, .bare)

/-- a use gives what a dimension stands for -/
def Fits (joined : Finset String) (d : Resolver.DimensionRef) (e : Expr) (cast : Bool) : UseKind → Prop
  | .whole => Faithful joined d.dataset d.column d.expression e ∧ (cast = true ∨ ¬dated d)
  | .bare => Faithful joined d.dataset d.column d.expression e ∧ (cast = false ∨ ¬dated d)
  | .column => if cast then Plain d e else ∃ e', Plain d e' ∧ e = coerceColumnType e' (some d.dataType)

/-- the origins of the other expressions -/
def origins (ms : Members) (items : List (String × Bool)) (steps : List JoinStep) : List Origin :=
  ms.measures.map .measure ++ ms.metrics.map .metric ++ ms.filters.filterMap FilterMember.origin? ++
    ms.segments.map .segment ++ steps.map .join ++ (orderMembers model ms items).filterMap OrderMember.origin?

/-- the columns of a declared expression have joined datasets before them, but for the column of a measure -/
def OriginFaithful (joined : Finset String) : Origin → Prop
  | .measure m => ∃ e, declaredExpr S m.column m.expression = some e ∧
    Faithful joined m.dataset m.column m.expression e
  | origin => ∃ e, origin.declared S = some e ∧ Replaced joined origin.owner e

/-- **The condition**: each dimension's declared expression fits all uses of it, with casts in all of them or in none,
and the expressions of the other members and of the joins name a joined dataset before every column. -/
structure BindsWhen (q : SemanticQuery) (ms : Members) : Prop where
  dimensions : ∀ d, (∃ u ∈ uses model ms (orderItems q.order), u.1 = d) →
    ∃ e cast, declaredExpr S d.column d.expression = some e ∧
      ∀ u ∈ uses model ms (orderItems q.order), u.1 = d → Fits (plannedDatasets S model ms) d e cast u.2
  others : ∀ origin ∈ origins model ms (orderItems q.order) (plannedSteps S model ms),
    OriginFaithful S (plannedDatasets S model ms) origin

end Bindings

/-! ## Aliases -/

/-- an alias map of joined datasets: each has an alias of its own, which is not empty -/
structure Aliased (aliasMap : Dict String String) (joined : Finset String) : Prop where
  mem_iff : ∀ d, d ∈ joined ↔ ∃ a, aliasMap.get? d = some a
  ne_empty : ∀ d a, aliasMap.get? d = some a → a ≠ ""
  injective : ∀ d d' a, aliasMap.get? d = some a → aliasMap.get? d' = some a → d = d'

theorem aliased_buildAliasMap {relationships : List Relationship} {baseDataset : String} {steps : List JoinStep}
    (htree : JoinTree relationships baseDataset steps) :
    Aliased (buildAliasMap baseDataset steps) (joinedDatasets baseDataset steps) := by
  have hmem : ∀ d, d ∈ joinedDatasets baseDataset steps ↔ ∃ a, (buildAliasMap baseDataset steps).get? d = some a := by
    intro d
    rw [← decide_eq_true_iff (p := d ∈ joinedDatasets baseDataset steps), ← aliasMap_has htree, Dict.has_iff,
      Dict.mem_keys_iff]
  have hof : ∀ d a, (buildAliasMap baseDataset steps).get? d = some a →
      d ∈ joinedDatasets baseDataset steps ∧ a = aliasOf (buildAliasMap baseDataset steps) d := by
    intro d a hd
    refine ⟨(hmem d).2 ⟨a, hd⟩, ?_⟩
    rw [aliasOf, hd]
    rfl
  refine ⟨hmem, fun d a hd => ?_, fun d d' a hd hd' => ?_⟩
  · obtain ⟨hjoined, rfl⟩ := hof d a hd
    exact aliasOf_ne_empty baseDataset steps d hjoined
  · obtain ⟨hjoined, heq⟩ := hof d a hd
    obtain ⟨hjoined', heq'⟩ := hof d' a hd'
    exact aliasMap_injective baseDataset steps d d' hjoined hjoined' (heq.symm.trans heq')

/-! ## Expressions -/

theorem mapColumns_eq_iff {f g : ColumnRef → ColumnRef} {e : Expr} :
    e.mapColumns f = e.mapColumns g ↔ ∀ r ∈ e.columns, f r = g r := by
  constructor
  · intro h r hr
    have hlabels := congrArg Rose.labels h
    rw [Expr.mapColumns, Expr.mapColumns, Rose.labels_map, Rose.labels_map, map_inj_left] at hlabels
    exact Node.column.inj (hlabels _ ((e.mem_columns r).1 hr))
  · intro h
    apply Rose.map_congr
    intro n hn
    cases n with
    | column r => exact congrArg Node.column (h r ((e.mem_columns r).2 hn))
    | _ => rfl

/-- replacing columns keeps the size of an expression -/
theorem length_mapColumns (f : ColumnRef → ColumnRef) (e : Expr) :
    (e.mapColumns f).labels.length = e.labels.length := by
  rw [Expr.mapColumns, Rose.labels_map, length_map]

theorem mapColumns_column (f : ColumnRef → ColumnRef) (r : ColumnRef) :
    (Expr.column r).mapColumns f = Expr.column (f r) := rfl

variable {r : ColumnRef}

/-- an expression that becomes a column is one -/
theorem mapColumns_eq_column {f : ColumnRef → ColumnRef} {e : Expr}
    (h : e.mapColumns f = Expr.column r) : ∃ r', e = Expr.column r' ∧ f r' = r := by
  obtain ⟨n, cs⟩ := e
  rw [Expr.mapColumns, Rose.map_node, Expr.column] at h
  obtain ⟨hn, hcs⟩ := Rose.node.inj h
  cases n with
  | column r' => exact ⟨r', by rw [map_eq_nil_iff.1 hcs]; rfl, Node.column.inj hn⟩
  | _ => cases hn

section Casts

variable [PyNumerals]

theorem coerce_dated {d : Resolver.DimensionRef} (h : dated d) :
    ∃ text, ∀ e, coerceColumnType e (some d.dataType) = Expr.op "Cast" [e, Expr.lit (.text text)] := by
  have hdate : norm ((some d.dataType).getD "") ∈ dateTypes := h
  by_cases htime : norm ((some d.dataType).getD "") ∈ ["datetime", "timestamp", "time"]
  · refine ⟨"TIMESTAMP", fun e => ?_⟩
    rw [coerceColumnType, if_neg (not_not.2 hdate), if_pos htime]
  · refine ⟨"DATE", fun e => ?_⟩
    rw [coerceColumnType, if_neg (not_not.2 hdate), if_neg htime]

theorem coerce_not_dated {d : Resolver.DimensionRef} (h : ¬dated d) (e : Expr) :
    coerceColumnType e (some d.dataType) = e := if_pos h

theorem coerce_none (e : Expr) : coerceColumnType e none = e := by
  have hnone : norm ((none : Option String).getD "") ∉ dateTypes := by
    rw [Option.getD_none, PyText.norm_empty]
    decide
  exact if_pos hnone

theorem coerce_injective {d : Resolver.DimensionRef} {e e' : Expr}
    (h : coerceColumnType e (some d.dataType) = coerceColumnType e' (some d.dataType)) : e = e' := by
  by_cases hdate : dated d
  · obtain ⟨text, htext⟩ := coerce_dated hdate
    rw [htext, htext] at h
    exact (List.cons.inj (Rose.node.inj h).2).1
  · rwa [coerce_not_dated hdate, coerce_not_dated hdate] at h

/-- a cast is larger than what it casts -/
theorem coerce_ne {d : Resolver.DimensionRef} (h : dated d) {e e' : Expr}
    (hlength : e.labels.length = e'.labels.length) : coerceColumnType e (some d.dataType) ≠ e' := by
  intro heq
  obtain ⟨text, htext⟩ := coerce_dated h
  have hlabels := congrArg (fun x : Expr => x.labels.length) heq
  rw [htext, Expr.op] at hlabels
  simp only [Rose.labels_node, map_cons, flatten_cons, length_cons, length_append,
    hlength] at hlabels
  omega

end Casts

/-! ## Bound texts and columns -/

section Reading

variable {aliasMap : Dict String String} {joined : Finset String}

variable {owner : Option String}

theorem boundColumn_self (h : r.table ≠ "") :
    boundColumn aliasMap owner r = (aliasMap.get? r.table).map fun asName => ⟨r.name, asName, "", ""⟩ := by
  rw [boundColumn, if_neg h]
  rfl

theorem boundColumn_owner {dataset asName : String} (hget : aliasMap.get? dataset = some asName)
    (h : r.table = "") : boundColumn aliasMap (some dataset) r = some ⟨r.name, asName, "", ""⟩ := by
  rw [boundColumn, if_pos h, Option.bind_some, hget]
  rfl

theorem replaceColumn_bound_iff (hA : Aliased aliasMap joined) (owner : Option String) (r : ColumnRef) :
    ((boundColumn aliasMap owner r).isSome = true ∧ replaceColumn aliasMap r = (boundColumn aliasMap owner r).getD r) ↔
      r.table ∈ joined ∧ (r.table = "" → owner = some "") := by
  by_cases htable : r.table = ""
  · constructor
    · rintro ⟨hsome, heq⟩
      obtain ⟨o, asName, howner, hget, hbound⟩ : ∃ o asName, owner = some o ∧ aliasMap.get? o = some asName ∧
          boundColumn aliasMap owner r = some ⟨r.name, asName, "", ""⟩ := by
        rw [boundColumn, if_pos htable] at hsome ⊢
        cases howner : owner with
        | none =>
          rw [howner] at hsome
          cases hsome
        | some o =>
          rw [howner, Option.bind_some] at hsome
          cases hget : aliasMap.get? o with
          | none =>
            rw [hget] at hsome
            cases hsome
          | some asName => exact ⟨o, asName, rfl, hget, by rw [Option.bind_some, hget]; rfl⟩
      rw [hbound, Option.getD_some, replaceColumn] at heq
      cases hempty : aliasMap.get? r.table with
      | none =>
        rw [hempty] at heq
        have := congrArg ColumnRef.table heq
        exact absurd (this.symm.trans htable) (hA.ne_empty o asName hget)
      | some asName' =>
        rw [hempty] at heq
        obtain rfl : asName' = asName := congrArg ColumnRef.table heq
        have ho : r.table = o := hA.injective _ _ _ hempty hget
        exact ⟨(hA.mem_iff _).2 ⟨_, hempty⟩, fun _ => by rw [howner, ← ho, htable]⟩
    · rintro ⟨hjoined, howner⟩
      obtain ⟨asName, hget⟩ := (hA.mem_iff _).1 hjoined
      have hget' := hget
      rw [htable] at hget'
      rw [howner htable, boundColumn_owner hget' htable, replaceColumn, hget]
      exact ⟨rfl, rfl⟩
  · rw [boundColumn_self htable, replaceColumn, hA.mem_iff]
    cases aliasMap.get? r.table with
    | none => simp
    | some asName => simp [htable]

/-- **A text with its tables replaced** is bound exactly if its references have joined datasets before them. -/
theorem bound_replaced_iff (hA : Aliased aliasMap joined) (owner : Option String) (e : Expr) :
    Bound aliasMap owner e (replaceTableRefs aliasMap e) ↔ Replaced joined owner e := by
  rw [Bound, replaceTableRefs, mapColumns_eq_iff, Replaced, ← forall₂_and]
  exact forall₂_congr fun r _ => replaceColumn_bound_iff hA owner r

variable [PyNumerals]

/-- the expression that is made of a member's, without a cast -/
def image (aliasMap : Dict String String) (asName column expression : String) (e : Expr) : Expr :=
  if expression = "" then Expr.column ⟨column, asName, "", ""⟩
  else
    match e.label with
    | .column r =>
      if r.table = "" then Expr.column ⟨sourceColumn r.name column, asName, "", ""⟩ else replaceTableRefs aliasMap e
    | _ => replaceTableRefs aliasMap e

theorem columnOver_ok {S : Surroundings} {asName column expression : String} {dataType : Option String} {x : Expr}
    (h : columnOver S aliasMap asName column expression dataType = .ok x) :
    ∃ e, declaredExpr S column expression = some e ∧
      x = coerceColumnType (image aliasMap asName column expression e) dataType := by
  rw [columnOver] at h
  rw [declaredExpr]
  split_ifs at h with hempty
  · rw [if_pos hempty]
    refine ⟨_, rfl, ?_⟩
    rw [image, if_pos hempty]
    exact (Except.ok.inj h).symm
  · rw [if_neg hempty]
    obtain ⟨e, he, rfl⟩ := map_eq_ok_iff.1 h
    rw [ensureExpression] at he
    cases hparse : S.parse expression with
    | some e' =>
      rw [hparse] at he
      cases he
      have himage : image aliasMap asName column expression e = _ := if_neg hempty
      exact ⟨e, rfl, (congrArg (coerceColumnType · dataType) himage).symm⟩
    | none =>
      rw [hparse] at he
      cases he

/-- a column without a table is given the one of its dataset -/
theorem image_column {asName column expression : String} {e : Expr} (hexpression : expression ≠ "")
    (hlabel : e.label = .column r) (htable : r.table = "") : image aliasMap asName column expression e =
      Expr.column ⟨sourceColumn r.name column, asName, "", ""⟩ := by
  rw [image, if_neg hexpression, hlabel]
  exact if_pos htable

theorem image_replaced {asName column expression : String} {e : Expr} (hexpression : expression ≠ "")
    (he : ∀ r, e.label = .column r → r.table ≠ "") :
    image aliasMap asName column expression e = replaceTableRefs aliasMap e := by
  rw [image, if_neg hexpression]
  split
  · rename_i r hlabel
    exact if_neg (he r hlabel)
  · rfl

omit [PyNumerals] in
theorem bound_column_iff (hA : Aliased aliasMap joined) {dataset asName : String}
    (hget : aliasMap.get? dataset = some asName) (e : Expr) (name : String) :
    Bound aliasMap (some dataset) e (Expr.column ⟨name, asName, "", ""⟩) ↔
      ∃ r, e = Expr.column r ∧ r.name = name ∧ (r.table = "" ∨ r.table = dataset) := by
  constructor
  · rintro ⟨hsome, heq⟩
    obtain ⟨r, rfl, hr⟩ := mapColumns_eq_column heq.symm
    refine ⟨r, rfl, ?_⟩
    by_cases htable : r.table = ""
    · rw [boundColumn_owner hget htable, Option.getD_some] at hr
      exact ⟨congrArg ColumnRef.name hr, .inl htable⟩
    · have hsome := hsome r mem_cons_self
      rw [boundColumn_self htable] at hsome hr
      cases hget' : aliasMap.get? r.table with
      | none =>
        rw [hget'] at hsome
        cases hsome
      | some asName' =>
        rw [hget'] at hr
        obtain rfl : asName' = asName := congrArg ColumnRef.table hr
        exact ⟨congrArg ColumnRef.name hr, .inr (hA.injective _ _ _ hget' hget)⟩
  · rintro ⟨r, rfl, rfl, htable⟩
    have hbound : boundColumn aliasMap (some dataset) r = some ⟨r.name, asName, "", ""⟩ := by
      rcases htable with htable | htable
      · exact boundColumn_owner hget htable
      · by_cases hempty : r.table = ""
        · exact boundColumn_owner hget hempty
        · rw [boundColumn_self hempty, htable, hget]
          rfl
    refine ⟨fun r' hr' => ?_, ?_⟩
    · obtain rfl := mem_singleton.1 hr'
      rw [hbound]
      rfl
    · rw [mapColumns_column, hbound]
      rfl

/-- **The column of a member** is bound exactly if its expression is faithful. -/
theorem bound_image_iff (hA : Aliased aliasMap joined) {S : Surroundings} {dataset asName column expression : String}
    (hget : aliasMap.get? dataset = some asName) {e : Expr} (he : declaredExpr S column expression = some e) :
    Bound aliasMap (some dataset) e (image aliasMap asName column expression e) ↔
      Faithful joined dataset column expression e := by
  by_cases hexpression : expression = ""
  · refine iff_of_true ?_ (.inl hexpression)
    rw [declaredExpr, if_pos hexpression] at he
    rw [image, if_pos hexpression, bound_column_iff hA hget]
    exact ⟨_, (Option.some.inj he).symm, rfl, .inl rfl⟩
  · rw [Faithful, or_iff_right hexpression]
    by_cases hbare : ∃ r, e.label = .column r ∧ r.table = ""
    · obtain ⟨r, hlabel, htable⟩ := hbare
      have hnot : ¬((∀ r, e.label = .column r → r.table ≠ "") ∧ Replaced joined (some dataset) e) :=
        fun h => h.1 r hlabel htable
      rw [image_column hexpression hlabel htable, bound_column_iff hA hget, or_iff_left hnot]
      constructor
      · rintro ⟨r', rfl, hname, -⟩
        obtain rfl : r' = r := Node.column.inj hlabel
        exact ⟨r', rfl, htable, hname.symm⟩
      · rintro ⟨r', rfl, htable', hname⟩
        obtain rfl : r' = r := Node.column.inj hlabel
        exact ⟨r', rfl, hname.symm, .inl htable'⟩
    · push Not at hbare
      have hnot : ¬∃ r, e = Expr.column r ∧ r.table = "" ∧ sourceColumn r.name column = r.name := by
        rintro ⟨r, rfl, htable, -⟩
        exact hbare r rfl htable
      rw [image_replaced hexpression hbare, bound_replaced_iff hA, or_iff_right hnot, and_iff_right hbare]

omit [PyNumerals] in
theorem Bound.unique {e b b' : Expr} (h : Bound aliasMap owner e b)
    (h' : Bound aliasMap owner e b') : b = b' := h.2.trans h'.2.symm

omit [PyNumerals] in
theorem Bound.length {e b : Expr} (h : Bound aliasMap owner e b) : b.labels.length = e.labels.length := by
  rw [h.2, length_mapColumns]

omit [PyNumerals] in
/-- the tables of a bound expression are aliases -/
theorem Bound.table_mem {e b : Expr} (h : Bound aliasMap owner e b)
    (hr : r ∈ b.columns) : r.table ∈ aliasMap.values := by
  rw [h.2, Expr.mem_columns, Expr.mapColumns, Rose.labels_map, mem_map] at hr
  obtain ⟨n, hn, heq⟩ := hr
  cases n with
  | column r' =>
    obtain ⟨c, hc⟩ := Option.isSome_iff_exists.1 (h.1 r' ((e.mem_columns r').2 hn))
    obtain rfl : (boundColumn aliasMap owner r').getD r' = r := Node.column.inj heq
    rw [hc]
    rw [boundColumn, Option.map_eq_some_iff] at hc
    obtain ⟨asName, hget, rfl⟩ := hc
    obtain ⟨dataset, -, hget⟩ := Option.bind_eq_some_iff.1 hget
    exact (aliasMap.mem_values asName).2 ⟨dataset, hget⟩
  | _ => cases heq

/-! ## What is made of a dimension -/

def made (aliasMap : Dict String String) (asName : String) (d : Resolver.DimensionRef) (e : Expr) : UseKind → Expr
  | .whole => coerceColumnType (image aliasMap asName d.column d.expression e) (some d.dataType)
  | .column => coerceColumnType (Expr.column ⟨d.column, asName, "", ""⟩) (some d.dataType)
  | .bare => image aliasMap asName d.column d.expression e

theorem image_cases (aliasMap : Dict String String) (asName column expression : String) {e : Expr} {S : Surroundings}
    (he : declaredExpr S column expression = some e) :
    ((∃ r, image aliasMap asName column expression e = Expr.column r) ∧ ∃ r, e.label = .column r) ∨
      (image aliasMap asName column expression e).labels.length = e.labels.length := by
  by_cases hexpression : expression = ""
  · rw [declaredExpr, if_pos hexpression] at he
    rw [image, if_pos hexpression, ← Option.some.inj he]
    exact .inr rfl
  · by_cases hbare : ∃ r, e.label = .column r ∧ r.table = ""
    · obtain ⟨r, hlabel, htable⟩ := hbare
      rw [image_column hexpression hlabel htable]
      exact .inl ⟨⟨_, rfl⟩, r, hlabel⟩
    · push Not at hbare
      rw [image_replaced hexpression hbare, replaceTableRefs, length_mapColumns]
      exact .inr rfl

theorem label_coerce {d : Resolver.DimensionRef} (h : dated d) (e : Expr) (r : ColumnRef) :
    (coerceColumnType e (some d.dataType)).label ≠ .column r := by
  obtain ⟨text, htext⟩ := coerce_dated h
  rw [htext]
  exact nofun

variable {S : Surroundings} {d : Resolver.DimensionRef} {asName : String} {e : Expr}

/-- a cast of what is made is not what is bound -/
theorem coerce_image_ne (hdated : dated d) {b : Expr} (hb : Bound aliasMap owner e b)
    (he : declaredExpr S d.column d.expression = some e) :
    coerceColumnType (image aliasMap asName d.column d.expression e) (some d.dataType) ≠ b := by
  rcases image_cases aliasMap asName d.column d.expression he with ⟨-, r, hlabel⟩ | hlength
  · intro heq
    obtain ⟨n, cs⟩ := e
    obtain rfl : n = .column r := hlabel
    have hcast := congrArg Rose.label heq
    rw [hb.2] at hcast
    exact label_coerce hdated _ ((boundColumn aliasMap owner r).getD r) hcast
  · exact coerce_ne hdated (hlength.trans hb.length.symm)

/-- what is made is not the cast of what is bound -/
theorem image_ne_coerce (hdated : dated d) {b : Expr} (hb : Bound aliasMap owner e b)
    (he : declaredExpr S d.column d.expression = some e) :
    image aliasMap asName d.column d.expression e ≠ coerceColumnType b (some d.dataType) := by
  rcases image_cases aliasMap asName d.column d.expression he with ⟨⟨r, hr⟩, -⟩ | hlength
  · intro heq
    apply label_coerce hdated b r
    rw [← heq, hr]
    rfl
  · exact (coerce_ne hdated (hb.length.trans hlength.symm)).symm

omit [PyNumerals] in
theorem mapColumns_op (f : ColumnRef → ColumnRef) (cls text : String) (x : Expr) :
    (Expr.op cls [x, Expr.lit (.text text)]).mapColumns f = Expr.op cls [x.mapColumns f, Expr.lit (.text text)] :=
  Rose.map_node (Node.mapColumn f) (.op cls) [x, Expr.lit (.text text)]

omit [PyNumerals] in
/-- an expression that becomes an operation is one -/
theorem mapColumns_eq_op {f : ColumnRef → ColumnRef} {cls text : String} {x : Expr}
    (h : e.mapColumns f = Expr.op cls [x, Expr.lit (.text text)]) :
    ∃ e', e = Expr.op cls [e', Expr.lit (.text text)] ∧ e'.mapColumns f = x := by
  obtain ⟨n, cs⟩ := e
  rw [Expr.mapColumns, Rose.map_node, Expr.op] at h
  obtain ⟨hn, hcs⟩ := Rose.node.inj h
  cases n with
  | op cls' =>
    obtain rfl := Node.op.inj hn
    obtain ⟨e', ls, rfl, hx, hls⟩ := map_eq_cons_iff.1 hcs
    obtain ⟨l, rest, rfl, hl, hrest⟩ := map_eq_cons_iff.1 hls
    obtain rfl := map_eq_nil_iff.1 hrest
    obtain ⟨n, cs⟩ := l
    rw [Rose.map_node, Expr.lit] at hl
    obtain ⟨hliteral, hempty⟩ := Rose.node.inj hl
    cases n with
    | literal v =>
      obtain rfl := Node.literal.inj hliteral
      obtain rfl := map_eq_nil_iff.1 hempty
      exact ⟨e', rfl, hx⟩
    | _ => cases hliteral
  | _ => cases hn

/-- a bound cast -/
theorem bound_coerce_iff (owner : Option String) (x : Expr) :
    Bound aliasMap owner e (coerceColumnType x (some d.dataType)) ↔
      ∃ e', Bound aliasMap owner e' x ∧ e = coerceColumnType e' (some d.dataType) := by
  by_cases hdated : dated d
  · obtain ⟨text, htext⟩ := coerce_dated hdated
    have hcolumns : ∀ e' : Expr, (Expr.op "Cast" [e', Expr.lit (.text text)]).columns = e'.columns := by
      intro e'
      rw [Expr.columns, Expr.op, Rose.labels_node, filterMap_cons]
      simp only [Node.column?, map_cons, map_nil, flatten_cons, flatten_nil, append_nil,
        filterMap_append]
      exact append_nil _
    rw [htext]
    constructor
    · rintro ⟨hsome, heq⟩
      obtain ⟨e', rfl, hx⟩ := mapColumns_eq_op heq.symm
      rw [hcolumns] at hsome
      exact ⟨e', ⟨hsome, hx.symm⟩, (htext e').symm⟩
    · rintro ⟨e', ⟨hsome, rfl⟩, rfl⟩
      rw [htext]
      exact ⟨by rwa [hcolumns], (mapColumns_op _ _ _ _).symm⟩
  · rw [coerce_not_dated hdated]
    constructor
    · exact fun h => ⟨e, h, (coerce_not_dated hdated e).symm⟩
    · rintro ⟨e', h, rfl⟩
      rwa [coerce_not_dated hdated]

/-- **A use** gives what the dimension stands for exactly if it fits. -/
theorem fits_iff (hA : Aliased aliasMap joined) (hget : aliasMap.get? d.dataset = some asName)
    (he : declaredExpr S d.column d.expression = some e) (cast : Bool) (kind : UseKind) :
    (∃ b, Bound aliasMap (some d.dataset) e b ∧ made aliasMap asName d e kind = castIf cast d b) ↔
      Fits joined d e cast kind := by
  have himage := bound_image_iff hA hget he
  cases kind with
  | whole =>
    rw [Fits, ← himage, made]
    constructor
    · rintro ⟨b, hb, heq⟩
      cases cast with
      | true =>
        obtain rfl := coerce_injective heq
        exact ⟨hb, .inl rfl⟩
      | false =>
        by_cases hdated : dated d
        · exact absurd heq (coerce_image_ne hdated hb he)
        · rw [coerce_not_dated hdated] at heq
          exact ⟨heq ▸ hb, .inr hdated⟩
    · rintro ⟨hb, hcast⟩
      refine ⟨_, hb, ?_⟩
      cases cast with
      | true => rfl
      | false => exact coerce_not_dated (hcast.resolve_left nofun) _
  | bare =>
    rw [Fits, ← himage, made]
    constructor
    · rintro ⟨b, hb, heq⟩
      cases cast with
      | false => exact ⟨heq ▸ hb, .inl rfl⟩
      | true =>
        by_cases hdated : dated d
        · exact absurd heq (image_ne_coerce hdated hb he)
        · have heq : _ = coerceColumnType b (some d.dataType) := heq
          rw [coerce_not_dated hdated] at heq
          exact ⟨heq ▸ hb, .inr hdated⟩
    · rintro ⟨hb, hcast⟩
      refine ⟨_, hb, ?_⟩
      cases cast with
      | false => rfl
      | true => exact (coerce_not_dated (hcast.resolve_left nofun) _).symm
  | column =>
    rw [made]
    cases cast with
    | true =>
      change _ ↔ Plain d e
      rw [Plain, ← bound_column_iff hA hget]
      constructor
      · rintro ⟨b, hb, heq⟩
        exact coerce_injective heq ▸ hb
      · exact fun hb => ⟨_, hb, rfl⟩
    | false =>
      change _ ↔ ∃ e', Plain d e' ∧ e = coerceColumnType e' (some d.dataType)
      have hplain : ∀ e', Plain d e' ↔ Bound aliasMap (some d.dataset) e' (Expr.column ⟨d.column, asName, "", ""⟩) :=
        fun e' => (bound_column_iff hA hget e' d.column).symm
      rw [exists_congr fun e' => and_congr_left fun _ => hplain e', ← bound_coerce_iff]
      constructor
      · rintro ⟨b, hb, heq⟩
        exact heq ▸ hb
      · exact fun hb => ⟨_, hb, rfl⟩

end Reading

/-! ## From uses to occurrences -/

section Linking

variable [PyNumerals] {S : Surroundings} {model : SemanticModel} {dialect : String} {aliasMap : Dict String String}

/-- the column expression of a use, where the declared one can be read -/
def madeOf (S : Surroundings) (aliasMap : Dict String String) (asName : String) (d : Resolver.DimensionRef) :
    UseKind → Option Expr
  | .column => some (coerceColumnType (Expr.column ⟨d.column, asName, "", ""⟩) (some d.dataType))
  | kind => (declaredExpr S d.column d.expression).map fun e => made aliasMap asName d e kind

/-- what is made by a use, where the declared expression can be read -/
theorem madeOf_eq {asName : String} {d : Resolver.DimensionRef} {e : Expr}
    (he : declaredExpr S d.column d.expression = some e) (kind : UseKind) :
    madeOf S aliasMap asName d kind = some (made aliasMap asName d e kind) := by
  cases kind <;> simp [madeOf, made, he]

/-- what stands in a clause is made by a use -/
def Makes (S : Surroundings) (dialect : String) (aliasMap : Dict String String)
    (u : Resolver.DimensionRef × UseKind) (o : Occurrence) : Prop :=
  u.1 = o.dimension ∧ ∃ asName x, aliasMap.get? u.1.dataset = some asName ∧ madeOf S aliasMap asName u.1 u.2 = some x ∧
    (truncate dialect o.granularity x).map Term.expr = .ok o.placed

/-- what stands in a clause is made of an origin -/
def Carries (S : Surroundings) (aliasMap : Dict String String) (origin : Origin) (p : Placement) : Prop :=
  origin = p.origin ∧
    match origin with
    | .measure m => ∃ asName e, aliasMap.get? m.dataset = some asName ∧ declaredExpr S m.column m.expression = some e ∧
      p.placed = image aliasMap asName m.column m.expression e
    | origin => ∃ e, origin.declared S = some e ∧ p.placed = replaceTableRefs aliasMap e

omit [PyNumerals] in
theorem forall₂_zip_append {α β γ δ ζ : Type} {R : δ → ζ → Prop} {k : α → γ} {u : α → δ} {f : γ × β → ζ} {l : List α}
    {l₁ : List β} (h : List.Forall₂ (fun a b => R (u a) (f (k a, b))) l l₁) (l₂ : List β) :
    List.Forall₂ R (l.map u) (((l.map k).zip (l₁ ++ l₂)).map f) := by
  induction h with
  | nil => exact .nil
  | cons hab _ ih => exact .cons hab ih

omit [PyNumerals] in
/-- a list against the places of it -/
theorem forall₂_zip {α β γ δ ζ : Type} {R : δ → ζ → Prop} {k : α → γ} {u : α → δ} {f : γ × β → ζ} {l : List α}
    {l₁ : List β} (h : List.Forall₂ (fun a b => R (u a) (f (k a, b))) l l₁) :
    List.Forall₂ R (l.map u) (((l.map k).zip l₁).map f) := by
  have hall := forall₂_zip_append h []
  rwa [append_nil] at hall

omit [PyNumerals] in
/-- what some elements of a list have, against what is made of these -/
theorem forall₂_filter {α β γ : Type} {R : β → γ → Prop} {f : α → Option β} {p : α → Bool} {g : α → γ} {l : List α}
    (hp : ∀ a, (f a).isSome = p a) (h : ∀ a ∈ l, ∀ b, f a = some b → R b (g a)) :
    List.Forall₂ R (l.filterMap f) ((l.filter p).map g) := by
  induction l with
  | nil => exact .nil
  | cons a l ih =>
    have ih := ih fun b hb => h b (mem_cons_of_mem a hb)
    cases ha : f a with
    | none => rwa [filterMap_cons_none ha, filter_cons_of_neg (by rw [← hp, ha]; exact nofun)]
    | some b =>
      rw [filterMap_cons_some ha, filter_cons_of_pos (by rw [← hp, ha]; rfl)]
      exact .cons (h a mem_cons_self b ha) ih

omit [PyNumerals] in
theorem ensureExpression_ok {text : String} {e : Expr} (h : ensureExpression S text = .ok e) :
    S.parse text = some e := by
  rw [ensureExpression] at h
  split at h
  · rename_i e' hparse
    exact hparse.trans (congrArg some (Except.ok.inj h))
  · cases h

theorem columnExpression_ok {dataset column expression : String} {dataType : Option String} {x : Expr}
    (h : columnExpression S aliasMap dataset column expression dataType = .ok x) :
    ∃ asName e, aliasMap.get? dataset = some asName ∧ declaredExpr S column expression = some e ∧
      x = coerceColumnType (image aliasMap asName column expression e) dataType := by
  obtain ⟨asName, hget, h⟩ := of_bind_ok h
  obtain ⟨e, he, hx⟩ := columnOver_ok h
  refine ⟨asName, e, ?_, he, hx⟩
  rw [aliasAt] at hget
  split at hget
  · rename_i hsome
    exact hsome.trans (congrArg some (Except.ok.inj hget))
  · cases hget

theorem makes_dimension {d : Resolver.DimensionRef} {c : Expr × String} (h : selectDimension S aliasMap d = .ok c) :
    Makes S dialect aliasMap (d, .whole) (occur ((d, none), .expr c.1)) := by
  obtain ⟨x, hx, rfl⟩ := map_eq_ok_iff.1 h
  obtain ⟨asName, e, hget, he, rfl⟩ := columnExpression_ok hx
  exact ⟨rfl, asName, _, hget, madeOf_eq he .whole, rfl⟩

theorem makes_timeDimension {t : TimeDimensionRef} {c : Expr × String}
    (h : selectTimeDimension S dialect aliasMap t = .ok c) :
    Makes S dialect aliasMap (t.dimension, .column) (occur ((t.dimension, t.granularity), .expr c.1)) := by
  obtain ⟨x, hx, h⟩ := of_bind_ok h
  obtain ⟨y, hy, h⟩ := of_bind_ok h
  cases h
  obtain ⟨asName, e, hget, -, rfl⟩ := columnExpression_ok hx
  rw [image, if_pos rfl] at hy
  refine ⟨rfl, asName, _, hget, rfl, ?_⟩
  change (truncate dialect t.granularity _).map Term.expr = .ok (.expr y)
  rw [hy]
  rfl

theorem makes_selects {r : Resolved} {select : List (Term × String)} {groupBy : List Expr}
    (h : buildSelects S dialect aliasMap r = .ok (select, groupBy)) :
    List.Forall₂ (Makes S dialect aliasMap)
        (r.dimensions.map (fun d => (d, UseKind.whole)) ++ r.timeDimensions.map fun t => (t.dimension, .column))
        ((r.grouped.zip (select.map Prod.fst)).map occur) ∧
      List.Forall₂ (Makes S dialect aliasMap)
        (r.dimensions.map (fun d => (d, UseKind.whole)) ++ r.timeDimensions.map fun t => (t.dimension, .column))
        ((r.grouped.zip (groupBy.map Term.expr)).map occur) := by
  obtain ⟨ds, ts, ms, ks, hselected⟩ := buildSelects_ok h
  have hboth : ∀ rest, List.Forall₂ (Makes S dialect aliasMap)
      (r.dimensions.map (fun d => (d, UseKind.whole)) ++ r.timeDimensions.map fun t => (t.dimension, .column))
      ((r.grouped.zip (ds.map (fun c => Term.expr c.1) ++ (ts.map (fun c => Term.expr c.1) ++ rest))).map occur) := by
    intro rest
    rw [Resolved.grouped, zip_append (by simp [hselected.dimensions.length_eq]), map_append]
    refine rel_append (forall₂_zip ?_) (forall₂_zip_append ?_ rest)
    · exact List.forall₂_map_right_iff.2 (hselected.dimensions.imp fun _ _ hc => makes_dimension hc)
    · exact List.forall₂_map_right_iff.2 (hselected.timeDimensions.imp fun _ _ hc => makes_timeDimension hc)
  constructor
  · have hselect : select.map Prod.fst = ds.map (fun c => Term.expr c.1) ++ (ts.map (fun c => Term.expr c.1) ++
        (ms.map Prod.fst ++ ks.map Prod.fst)) := by
      rw [hselected.select]
      simp [asTerm, Function.comp_def]
    rw [hselect]
    exact hboth _
  · have hgroup : groupBy.map Term.expr =
        ds.map (fun c => Term.expr c.1) ++ (ts.map (fun c => Term.expr c.1) ++ []) := by
      rw [hselected.groupBy]
      simp [Function.comp_def]
    rw [hgroup]
    exact hboth []

/-! ## Conditions -/

theorem image_filter {dataset asName column expression : String} (hget : aliasMap.get? dataset = some asName)
    (e : Expr) :
    replaceTableRefs aliasMap (image Dict.empty dataset column expression e) =
      image aliasMap asName column expression e := by
  have hcolumn : ∀ name, replaceTableRefs aliasMap (Expr.column ⟨name, dataset, "", ""⟩) =
      Expr.column ⟨name, asName, "", ""⟩ := by
    intro name
    rw [replaceTableRefs, mapColumns_column, replaceColumn, hget]
  have hempty : replaceTableRefs Dict.empty e = e := by
    refine (Rose.map_congr _ id e fun n _ => ?_).trans (Rose.map_id e)
    cases n <;> rfl
  rw [image, image]
  split_ifs
  · exact hcolumn column
  · split
    · split_ifs
      · exact hcolumn _
      · rw [hempty]
    · rw [hempty]

variable {q : SemanticQuery}

theorem filters_ok {r : Resolved} (h : resolveQuery S model dialect q = .ok r) :
    ∀ f ∈ r.filters, filterTerm S f.member = .ok f.target := by
  obtain ⟨dimensions, -, h⟩ := of_bind_ok h
  obtain ⟨timeDimensions, -, h⟩ := of_bind_ok h
  obtain ⟨members, -, h⟩ := of_bind_ok h
  obtain ⟨filters, hfilters, h⟩ := of_bind_ok h
  obtain ⟨segments, -, h⟩ := of_bind_ok h
  cases h
  intro f hf
  obtain ⟨item, -, hitem⟩ := (mem_mapM hfilters f).1 hf
  obtain ⟨m, -, hitem⟩ := of_bind_ok hitem
  obtain ⟨term, hterm, hitem⟩ := of_bind_ok hitem
  obtain ⟨predicate, -, hitem⟩ := of_bind_ok hitem
  cases hitem
  exact hterm

theorem makes_filter {d : Resolver.DimensionRef} {asName : String} {target : Term}
    (hget : aliasMap.get? d.dataset = some asName) (h : filterTerm S (.dimension d) = .ok target) :
    Makes S dialect aliasMap (d, .bare) (occur ((d, none), target.replaceRefs aliasMap)) := by
  obtain ⟨x, hx, rfl⟩ := map_eq_ok_iff.1 h
  obtain ⟨e, he, rfl⟩ := columnOver_ok hx
  refine ⟨rfl, asName, _, hget, madeOf_eq he .bare, ?_⟩
  rw [coerce_none]
  change (Except.ok (Term.expr (image aliasMap asName d.column d.expression e)) : Except TranslateError Term) =
    .ok (.expr (replaceTableRefs aliasMap (image Dict.empty d.dataset d.column d.expression e)))
  rw [image_filter hget]

theorem carries_filter {m : Resolver.MeasureRef} {asName : String} {target : Term}
    (hget : aliasMap.get? m.dataset = some asName) (h : filterTerm S (.measure m) = .ok target) :
    Carries S aliasMap (.measure m) (put (.measure m, (target.replaceRefs aliasMap).body)) := by
  obtain ⟨x, hx, h⟩ := of_bind_ok h
  obtain ⟨e, he, rfl⟩ := columnOver_ok hx
  rw [aggregateOf] at h
  split_ifs at h
  cases h
  refine ⟨rfl, asName, e, hget, he, ?_⟩
  rw [coerce_none]
  exact image_filter hget e

variable (dialect) in
/-- the conditions on dimensions are made by uses -/
theorem makes_filters {filters : List FilterTarget} (hterm : ∀ f ∈ filters, filterTerm S f.member = .ok f.target)
    (hget : ∀ d, ∀ f ∈ filters, f.member = .dimension d → ∃ asName, aliasMap.get? d.dataset = some asName) :
    List.Forall₂ (fun d target => Makes S dialect aliasMap (d, .bare) (occur ((d, none), target)))
      (filters.filterMap fun f => f.member.dimension?)
      ((filters.filter fun f => f.member.isDimension).map fun f => f.target.replaceRefs aliasMap) := by
  refine forall₂_filter (fun f => by cases f.member <;> rfl) fun f hf d hd => ?_
  have hterm := hterm f hf
  cases hm : f.member with
  | dimension d' =>
    rw [hm] at hd hterm
    obtain rfl := Option.some.inj hd
    obtain ⟨asName, hasName⟩ := hget d' f hf hm
    exact makes_filter hasName hterm
  | _ =>
    rw [hm] at hd
    cases hd

/-- the other conditions are made of origins -/
theorem carries_filters {filters : List FilterTarget} (hterm : ∀ f ∈ filters, filterTerm S f.member = .ok f.target)
    (hget : ∀ m, ∀ f ∈ filters, f.member = .measure m → ∃ asName, aliasMap.get? m.dataset = some asName) :
    List.Forall₂ (fun origin x => Carries S aliasMap origin (put (origin, x)))
      (filters.filterMap fun f => f.member.origin?)
      ((filters.filter fun f => !f.member.isDimension).map fun f => (f.target.replaceRefs aliasMap).body) := by
  refine forall₂_filter (fun f => by cases f.member <;> rfl) fun f hf origin ho => ?_
  have hterm := hterm f hf
  cases hm : f.member with
  | dimension d =>
    rw [hm] at ho
    cases ho
  | measure m =>
    rw [hm] at ho hterm
    cases ho
    obtain ⟨asName, hasName⟩ := hget m f hf hm
    exact carries_filter hasName hterm
  | metric m =>
    rw [hm] at ho hterm
    cases ho
    obtain ⟨e, he, htarget⟩ := map_eq_ok_iff.1 hterm
    exact ⟨rfl, e, ensureExpression_ok he, by rw [← htarget]; rfl⟩

def rangeUse (t : TimeDimensionRef) : Resolver.DimensionRef × UseKind :=
  (t.dimension, if t.rangeExpression = "" then .column else .whole)

theorem makes_range {t : TimeDimensionRef} {range : DateRange} {c : WhereCondition}
    (h : rangeCondition S dialect aliasMap t range = .ok c) : ∃ x, c.restricted = some x ∧ c.segment? = none ∧
      Makes S dialect aliasMap (rangeUse t) (occur ((t.dimension, none), x)) := by
  obtain ⟨x, hx, h⟩ := of_bind_ok h
  obtain ⟨condition, -, h⟩ := of_bind_ok h
  cases h
  obtain ⟨asName, e, hget, he, rfl⟩ := columnExpression_ok hx
  refine ⟨_, rfl, rfl, ?_⟩
  rw [rangeUse]
  split_ifs with hempty
  · refine ⟨rfl, asName, _, hget, rfl, ?_⟩
    rw [hempty, image, if_pos rfl]
    rfl
  · have hexpression : t.rangeExpression = t.dimension.expression := by
      rw [TimeDimensionRef.rangeExpression] at hempty ⊢
      split_ifs at hempty ⊢
      · exact absurd rfl hempty
      · rfl
    rw [hexpression] at he ⊢
    exact ⟨rfl, asName, _, hget, madeOf_eq he .whole, rfl⟩

theorem ranges_ok {timeDimensions : List TimeDimensionRef} {cs : List WhereCondition}
    (h : (timeDimensions.filterMap fun t => t.range.map fun range => (t, range)).mapM
      (fun e => rangeCondition S dialect aliasMap e.1 e.2) = .ok cs) :
    List.Forall₂ (fun t c => ∃ range, rangeCondition S dialect aliasMap t range = .ok c) (ranged timeDimensions)
      cs := by
  have hranged : ranged timeDimensions =
      (timeDimensions.filterMap fun t => t.range.map fun range => (t, range)).map Prod.fst := by
    rw [ranged, map_filterMap, ← filterMap_eq_filter]
    refine filterMap_congr fun t _ => ?_
    cases hrange : t.range <;> simp [Option.guard, hrange]
  rw [hranged, List.forall₂_map_left_iff]
  exact (forall₂_of_mapM h).imp fun e c hc => ⟨e.2, hc⟩

omit [PyNumerals] in
theorem filterMap_of_forall₂ {α β γ : Type} {P : α → β → Prop} {f : β → Option γ} {l : List α} {r : List β}
    (h : List.Forall₂ P l r) (hP : ∀ a b, P a b → ∃ c, f b = some c) :
    List.Forall₂ (fun a c => ∃ b, P a b ∧ f b = some c) l (r.filterMap f) := by
  induction h with
  | nil => exact .nil
  | cons hab _ ih =>
    obtain ⟨c, hc⟩ := hP _ _ hab
    rw [filterMap_cons_some hc]
    exact .cons ⟨_, hab, hc⟩ ih

theorem makes_conditions {r : Resolved} {conditions : List WhereCondition}
    (h : buildWhereConditions S dialect aliasMap r = .ok conditions)
    (hterm : ∀ f ∈ r.filters, filterTerm S f.member = .ok f.target)
    (hget : ∀ d, ∀ f ∈ r.filters, f.member = .dimension d → ∃ asName, aliasMap.get? d.dataset = some asName) :
    List.Forall₂ (Makes S dialect aliasMap)
        ((r.members.filters.filterMap FilterMember.dimension?).map (fun d => (d, UseKind.bare)) ++
          (ranged r.timeDimensions).map rangeUse)
        ((r.restricting.zip (conditions.filterMap WhereCondition.restricted)).map occur) ∧
      List.Forall₂ (Carries S aliasMap) (r.segments.map .segment)
        (((r.segments.map Origin.segment).zip (conditions.filterMap WhereCondition.segment?)).map put) := by
  obtain ⟨ranges, hranges, h⟩ := of_bind_ok h
  obtain ⟨segments, hsegments, h⟩ := of_bind_ok h
  cases h
  have hfilters := makes_filters dialect hterm hget
  have hmembers : r.members.filters.filterMap FilterMember.dimension? =
      r.filters.filterMap fun f => f.member.dimension? :=
    filterMap_map
  have hranges := ranges_ok hranges
  have hsegment : ∀ {s c}, segmentCondition S aliasMap s = .ok c →
      c.restricted = none ∧ ∃ e, S.parse s.condition = some e ∧
      c.segment? = some (replaceTableRefs aliasMap e) := by
    intro s c hc
    obtain ⟨x, hx, rfl⟩ := map_eq_ok_iff.1 hc
    obtain ⟨e, he, rfl⟩ := map_eq_ok_iff.1 hx
    exact ⟨rfl, e, ensureExpression_ok he, rfl⟩
  have hsegments := forall₂_of_mapM hsegments
  have htargets : ∀ l : List FilterTarget, (l.map fun f =>
      WhereCondition.filter (f.target.replaceRefs aliasMap) f.predicate).filterMap WhereCondition.restricted =
        l.map fun f => f.target.replaceRefs aliasMap := by
    intro l
    rw [filterMap_map]
    exact filterMap_eq_map (f := fun f : FilterTarget => f.target.replaceRefs aliasMap) ▸ rfl
  have hnosegment : ∀ l : List FilterTarget, (l.map fun f =>
      WhereCondition.filter (f.target.replaceRefs aliasMap) f.predicate).filterMap WhereCondition.segment? = [] := by
    intro l
    rw [filterMap_map]
    exact filterMap_eq_nil_iff.2 fun _ _ => rfl
  have hrangenone : ranges.filterMap WhereCondition.segment? = [] := by
    refine filterMap_eq_nil_iff.2 fun c hc => ?_
    obtain ⟨t, -, range, hrange⟩ := forall₂_exists_left hranges c hc
    obtain ⟨x, -, hnone, -⟩ := makes_range hrange
    exact hnone
  have hsegmentnone : segments.filterMap WhereCondition.restricted = [] := by
    refine filterMap_eq_nil_iff.2 fun c hc => ?_
    obtain ⟨s, -, hs⟩ := forall₂_exists_left hsegments c hc
    exact (hsegment hs).1
  constructor
  · have hrestricted := filterMap_of_forall₂ (f := WhereCondition.restricted) hranges fun t c ⟨range, hrange⟩ => by
      obtain ⟨x, hx, -⟩ := makes_range hrange
      exact ⟨x, hx⟩
    rw [filterMap_append, filterMap_append, htargets, hsegmentnone, hmembers, Resolved.restricting,
      append_assoc, zip_append (by simpa using hfilters.length_eq), map_append]
    rw [append_nil]
    refine rel_append (forall₂_zip hfilters) (forall₂_zip (hrestricted.imp fun t x hx => ?_))
    obtain ⟨c, ⟨range, hrange⟩, hc⟩ := hx
    obtain ⟨x', hx', -, hmakes⟩ := makes_range hrange
    obtain rfl := Option.some.inj (hc.symm.trans hx')
    exact hmakes
  · have hplaced := filterMap_of_forall₂ (f := WhereCondition.segment?) hsegments fun s c hc => by
      obtain ⟨-, e, -, hx⟩ := hsegment hc
      exact ⟨_, hx⟩
    rw [filterMap_append, filterMap_append, hnosegment, hrangenone, nil_append, nil_append]
    refine forall₂_zip (hplaced.imp fun s x hx => ?_)
    obtain ⟨c, hc, hx⟩ := hx
    obtain ⟨-, e, hparse, he⟩ := hsegment hc
    exact ⟨rfl, e, hparse, Option.some.inj (hx.symm.trans he)⟩

/-! ## Measures, metrics and joins -/

omit [PyNumerals] in
theorem replaceRefs_ok {text : String} {x : Expr} (h : replaceRefs S aliasMap text = .ok x) :
    ∃ e, S.parse text = some e ∧ x = replaceTableRefs aliasMap e := by
  obtain ⟨e, he, rfl⟩ := map_eq_ok_iff.1 h
  exact ⟨e, ensureExpression_ok he, rfl⟩

theorem carries_measure {m : Resolver.MeasureRef} {term : Term} (h : measureExpression S aliasMap m = .ok term) :
    Carries S aliasMap (.measure m) (put (.measure m, term.body)) := by
  obtain ⟨x, hx, h⟩ := of_bind_ok h
  obtain ⟨asName, e, hget, he, rfl⟩ := columnExpression_ok hx
  rw [aggregateOf] at h
  split_ifs at h
  cases h
  exact ⟨rfl, asName, e, hget, he, coerce_none _⟩

theorem carries_selects {r : Resolved} {select : List (Term × String)} {groupBy : List Expr}
    (h : buildSelects S dialect aliasMap r = .ok (select, groupBy)) :
    List.Forall₂ (Carries S aliasMap) (r.measures.map Origin.measure ++ r.metrics.map Origin.metric)
      (((r.measures.map Origin.measure ++ r.metrics.map Origin.metric).zip
        ((select.drop r.grouped.length).map fun c => c.1.body)).map put) := by
  obtain ⟨ds, ts, ms, ks, hselected⟩ := buildSelects_ok h
  have hdrop : select.drop r.grouped.length = ms ++ ks := by
    have hlength : r.grouped.length = ((ds ++ ts).map asTerm).length := by
      simp [Resolved.grouped, hselected.dimensions.length_eq, hselected.timeDimensions.length_eq]
    rw [hselected.select, append_assoc, hlength, drop_left]
  rw [hdrop, map_append, zip_append (by simp [hselected.measures.length_eq]), map_append]
  refine rel_append (forall₂_zip ?_) (forall₂_zip ?_)
  · refine List.forall₂_map_right_iff.2 (hselected.measures.imp fun m c hc => ?_)
    obtain ⟨term, hterm, rfl⟩ := map_eq_ok_iff.1 hc
    exact carries_measure hterm
  · refine List.forall₂_map_right_iff.2 (hselected.metrics.imp fun m c hc => ?_)
    obtain ⟨x, hx, rfl⟩ := map_eq_ok_iff.1 hc
    obtain ⟨e, he, rfl⟩ := replaceRefs_ok hx
    exact ⟨rfl, e, he, rfl⟩

theorem carries_joins {steps : List JoinStep} {joins : List Join}
    (h : steps.mapM (applyJoin S model aliasMap) = .ok joins) :
    List.Forall₂ (Carries S aliasMap) (steps.map .join)
      (((steps.map Origin.join).zip (joins.map Join.on)).map put) := by
  refine forall₂_zip (List.forall₂_map_right_iff.2 ((forall₂_of_mapM h).imp fun step j hj => ?_))
  obtain ⟨table, -, hj⟩ := of_bind_ok hj
  obtain ⟨on, hon, hj⟩ := of_bind_ok hj
  cases hj
  obtain ⟨e, he, rfl⟩ := replaceRefs_ok hon
  exact ⟨rfl, e, he, rfl⟩

/-! ## Order -/

theorem orderTerms_ok {ms : Members} {items : List (String × Bool)} {orderBy : List (OrderTerm × Bool)}
    (h : List.Forall₂ (fun item o => orderTerm S model dialect aliasMap ms item = .ok o) items orderBy) :
    List.Forall₂ (fun m e => e.1 = m ∧ orderExpression S dialect aliasMap m = .ok e.2) (orderMembers model ms items)
      ((items.zip orderBy).filterMap fun e =>
        match e.2.1.term?, orderMember model ms e.1.1 with
        | some term, .ok m => some (m, term)
        | _, _ => none) := by
  induction h with
  | nil => exact .nil
  | @cons item o items orderBy ho _ ih =>
    rw [orderTerm] at ho
    rw [orderMembers]
    cases hnamed : namedColumn model ms item with
    | some asName =>
      have hnamed' := hnamed
      rw [namedColumn] at hnamed'
      rw [hnamed'] at ho
      cases ho
      rw [filterMap_cons_none (by rw [hnamed]; rfl), zip_cons_cons, filterMap_cons_none rfl]
      exact ih
    | none =>
      have hnamed' := hnamed
      rw [namedColumn] at hnamed'
      rw [hnamed'] at ho
      obtain ⟨term, hterm, rfl⟩ := map_eq_ok_iff.1 ho
      obtain ⟨m, hm, hterm⟩ := of_bind_ok hterm
      rw [filterMap_cons_some (b := m) (by rw [hnamed, hm]; rfl), zip_cons_cons,
        filterMap_cons_some (b := (m, term)) (by rw [hm]; rfl)]
      exact .cons ⟨rfl, hterm⟩ ih

theorem makes_order {l : List OrderMember} {l' : List (OrderMember × Term)}
    (h : List.Forall₂ (fun m e => e.1 = m ∧ orderExpression S dialect aliasMap m = .ok e.2) l l') :
    List.Forall₂ (Makes S dialect aliasMap) (l.filterMap fun m => m.dimension?.map fun d => (d.1, UseKind.bare))
      (l'.filterMap fun e => e.1.dimension?.map fun d => occur (d, e.2)) := by
  refine rel_filterMap ?_ h
  rintro _ ⟨m, term⟩ ⟨rfl, hterm⟩
  cases m with
  | measure m => exact .none
  | metric m => exact .none
  | dimension d =>
    obtain ⟨x, hx, rfl⟩ := map_eq_ok_iff.1 hterm
    obtain ⟨asName, e, hget, he, rfl⟩ := columnExpression_ok hx
    exact .some ⟨rfl, asName, _, hget, madeOf_eq he .bare, by rw [coerce_none]; rfl⟩
  | timeDimension t =>
    obtain ⟨x, hx, hterm⟩ := of_bind_ok hterm
    obtain ⟨y, hy, hterm⟩ := of_bind_ok hterm
    cases hterm
    obtain ⟨asName, e, hget, he, rfl⟩ := columnExpression_ok hx
    rw [coerce_none] at hy
    refine .some ⟨rfl, asName, _, hget, madeOf_eq he .bare, ?_⟩
    change (truncate dialect t.granularity _).map Term.expr = .ok (.expr y)
    rw [made, hy]
    rfl

/-- the order's measures and metrics are made of origins -/
theorem carries_order {l : List OrderMember} {l' : List (OrderMember × Term)}
    (h : List.Forall₂ (fun m e => e.1 = m ∧ orderExpression S dialect aliasMap m = .ok e.2) l l') :
    List.Forall₂ (Carries S aliasMap) (l.filterMap OrderMember.origin?)
      (l'.filterMap fun e => e.1.origin?.map fun origin => put (origin, e.2.body)) := by
  refine rel_filterMap ?_ h
  rintro _ ⟨m, term⟩ ⟨rfl, hterm⟩
  cases m with
  | dimension d => exact .none
  | timeDimension t => exact .none
  | measure m => exact .some (carries_measure hterm)
  | metric m =>
    obtain ⟨x, hx, rfl⟩ := map_eq_ok_iff.1 hterm
    obtain ⟨e, he, rfl⟩ := replaceRefs_ok hx
    exact .some ⟨rfl, e, he, rfl⟩

/-! ## The whole -/

/-- a truncation is made of one expression -/
theorem truncate_injective {granularity : Option String} {x y : Expr} {placed : Term}
    (hx : (truncate dialect granularity x).map Term.expr = .ok placed)
    (hy : (truncate dialect granularity y).map Term.expr = .ok placed) : x = y := by
  obtain ⟨x', hx', rfl⟩ := map_eq_ok_iff.1 hx
  obtain ⟨y', hy', heq⟩ := map_eq_ok_iff.1 hy
  obtain rfl := Term.expr.inj heq
  rw [truncate] at hx' hy'
  cases hg : given granularity with
  | none =>
    rw [hg] at hx' hy'
    exact (Except.ok.inj hx').trans (Except.ok.inj hy').symm
  | some g =>
    rw [hg] at hx' hy'
    simp only [dateTrunc] at hx' hy'
    split_ifs at hx' hy'
    · have heq := (Except.ok.inj hx').trans (Except.ok.inj hy').symm
      exact (List.cons.inj (Rose.node.inj heq).2).1
    · have heq := (Except.ok.inj hx').trans (Except.ok.inj hy').symm
      have hdiff := (List.cons.inj (List.cons.inj (Rose.node.inj heq).2).2).1
      exact (List.cons.inj (Rose.node.inj hdiff).2).1

omit [PyNumerals] in
theorem mem_foldr_union {l : List (Finset String)} {d : String} : d ∈ l.foldr (· ∪ ·) ∅ ↔ ∃ s ∈ l, d ∈ s := by
  induction l with
  | nil => simp
  | cons s l ih => rw [foldr_cons, Finset.mem_union, ih, exists_mem_cons_iff]

/-- what is known of a translation -/
structure Planned (S : Surroundings) (model : SemanticModel) (t : Translation) : Prop where
  datasets : plannedDatasets S model t.resolved.members = joinedDatasets t.baseDataset t.steps
  steps : plannedSteps S model t.resolved.members = t.steps
  aliased : Aliased t.aliasMap (plannedDatasets S model t.resolved.members)
  required : ∀ d ∈ collectRequiredDatasets model t.resolved.members, ∃ asName, t.aliasMap.get? d = some asName

variable {t : Translation}

theorem planned_of_translated (h : Translated S model dialect q t) : Planned S model t := by
  have hdatasets : plannedDatasets S model t.resolved.members = joinedDatasets t.baseDataset t.steps := by
    rw [plannedDatasets, h.base]
    exact ((plannerOf model).plan_reached h.steps).symm
  have hsteps : plannedSteps S model t.resolved.members = t.steps := by
    rw [plannedSteps, h.base]
    dsimp only
    rw [h.steps]
    rfl
  obtain ⟨htree, hrequired⟩ := (plannerOf model).plan_ok h.steps
  have haliased : Aliased t.aliasMap (joinedDatasets t.baseDataset t.steps) := aliased_buildAliasMap htree
  refine ⟨hdatasets, hsteps, hdatasets ▸ haliased, fun d hd => ?_⟩
  exact (haliased.mem_iff d).1 (hrequired d (Finset.mem_insert_of_mem hd))

theorem orderItems_ok (h : Translated S model dialect q t) :
    List.Forall₂ (fun m e => e.1 = m ∧ orderExpression S dialect t.aliasMap m = .ok e.2)
      (orderMembers model t.resolved.members (orderItems q.order)) (orderTerms model q t) := by
  obtain ⟨items, hitems, horderBy⟩ := h.orderBy
  have heq : orderItems q.order = items := by
    rw [orderItems, hitems]
    rfl
  rw [orderTerms, heq]
  exact orderTerms_ok (forall₂_of_mapM horderBy)

/-- every occurrence is made by a use, and every use makes one -/
theorem uses_occurrences (h : Translated S model dialect q t) :
    (∀ o ∈ occurrences model q t, ∃ u ∈ uses model t.resolved.members (orderItems q.order),
      Makes S dialect t.aliasMap u o) ∧
    ∀ u ∈ uses model t.resolved.members (orderItems q.order), ∃ o ∈ occurrences model q t,
      Makes S dialect t.aliasMap u o := by
  have hplanned := planned_of_translated h
  obtain ⟨hselect, hgroup⟩ := makes_selects h.selects
  have hget : ∀ d, ∀ f ∈ t.resolved.filters, f.member = .dimension d →
      ∃ asName, t.aliasMap.get? d.dataset = some asName := by
    intro d f hf hd
    apply hplanned.required
    simp only [collectRequiredDatasets, Finset.mem_union]
    refine .inl (.inr (mem_foldr_union.2 ⟨{d.dataset}, ?_, Finset.mem_singleton_self _⟩))
    exact mem_map.2 ⟨f.member, mem_map_of_mem hf, by rw [hd]; rfl⟩
  obtain ⟨hwhere, -⟩ := makes_conditions h.conditions (filters_ok h.resolved) hget
  have horder := makes_order (orderItems_ok h)
  have hall := rel_append (rel_append hselect hwhere) horder
  have hmade := forall₂_exists_left hall
  have hmakes := forall₂_exists_right hall
  simp only [mem_append, or_assoc] at hmade hmakes
  simp only [uses, occurrences, mem_append, or_assoc]
  constructor
  · rintro o (ho | ho | ho | ho)
    · exact hmade o (.inl ho)
    · obtain ⟨u, hu, hmakes⟩ := forall₂_exists_left hgroup o ho
      exact ⟨u, by rw [mem_append] at hu; tauto, hmakes⟩
    · exact hmade o (.inr (.inl ho))
    · exact hmade o (.inr (.inr ho))
  · intro u hu
    obtain ⟨o, ho, hmakes⟩ := hmakes u hu
    exact ⟨o, by tauto, hmakes⟩

/-- the placements are made of the origins -/
theorem origins_placements (h : Translated S model dialect q t) :
    List.Forall₂ (Carries S t.aliasMap) (origins model t.resolved.members (orderItems q.order) t.steps)
      (placements model q t) := by
  have hplanned := planned_of_translated h
  have hterm := filters_ok h.resolved
  have hrequired : ∀ f ∈ t.resolved.filters, ∀ d ∈ f.member.datasets model,
      ∃ asName, t.aliasMap.get? d = some asName := by
    intro f hf d hd
    apply hplanned.required
    simp only [collectRequiredDatasets, Finset.mem_union]
    refine .inl (.inr (mem_foldr_union.2 ⟨f.member.datasets model, ?_, hd⟩))
    exact mem_map_of_mem (f := fun m => FilterMember.datasets model m) (mem_map_of_mem hf)
  have hfilters := carries_filters hterm fun m f hf hm =>
    hrequired f hf m.dataset (by rw [hm]; exact Finset.mem_singleton_self _)
  have hhaving : List.Forall₂ (Carries S t.aliasMap) (t.resolved.members.filters.filterMap FilterMember.origin?)
      (((t.resolved.filters.filterMap fun f => f.member.origin?).zip
        (t.statement.having.map fun c => c.1.body)).map put) := by
    have hmembers : t.resolved.members.filters.filterMap FilterMember.origin? =
        t.resolved.filters.filterMap fun f => f.member.origin? := filterMap_map
    have hall := forall₂_zip (R := Carries S t.aliasMap) (k := id) (u := id) (f := put) hfilters
    rw [List.map_id] at hall
    rw [hmembers, h.having, buildHavingConditions, List.map_map]
    exact hall
  obtain ⟨-, hsegments⟩ := makes_conditions h.conditions hterm fun d f hf hd =>
    hrequired f hf d.dataset (by rw [hd]; exact Finset.mem_singleton_self _)
  exact rel_append (rel_append (rel_append (rel_append (carries_selects h.selects) hhaving)
    hsegments) (carries_joins h.joins)) (carries_order (orderItems_ok h))

theorem carries_iff {joined : Finset String} (hA : Aliased aliasMap joined) {origin : Origin} {p : Placement}
    (h : Carries S aliasMap origin p) :
    (∃ e, p.origin.declared S = some e ∧ Bound aliasMap p.origin.owner e p.placed) ↔
      OriginFaithful S joined origin := by
  obtain ⟨rfl, hmade⟩ := h
  have htext : ∀ (owner : Option String) (declared : Option Expr),
      (∃ e, declared = some e ∧ p.placed = replaceTableRefs aliasMap e) →
        ((∃ e, declared = some e ∧ Bound aliasMap owner e p.placed) ↔
          ∃ e, declared = some e ∧ Replaced joined owner e) := by
    rintro owner declared ⟨e, rfl, heq⟩
    rw [heq]
    constructor
    · rintro ⟨e', he', hbound⟩
      cases he'
      exact ⟨e, rfl, (bound_replaced_iff hA owner e).1 hbound⟩
    · rintro ⟨e', he', hreplaced⟩
      cases he'
      exact ⟨e, rfl, (bound_replaced_iff hA owner e).2 hreplaced⟩
  cases horigin : p.origin with
  | measure m =>
    rw [horigin] at hmade
    obtain ⟨asName, e, hget, he, heq⟩ := hmade
    rw [heq]
    constructor
    · rintro ⟨e', he', hbound⟩
      obtain rfl := Option.some.inj (he.symm.trans he')
      exact ⟨e, he, (bound_image_iff hA hget he).1 hbound⟩
    · rintro ⟨e', he', hfaithful⟩
      obtain rfl := Option.some.inj (he.symm.trans he')
      exact ⟨e, he, (bound_image_iff hA hget he).2 hfaithful⟩
  | metric m =>
    rw [horigin] at hmade
    exact htext _ _ hmade
  | segment s =>
    rw [horigin] at hmade
    exact htext _ _ hmade
  | join s =>
    rw [horigin] at hmade
    exact htext _ _ hmade

variable (S model dialect)

end Linking

/-! ## A measure over two columns -/

section Net

open scoped Ascii

/-- one dataset with a measure over two columns and one over a column -/
def sales : SemanticModel where
  datasets := Dict.ofList [("orders", ⟨none, none, none, none, some
    [⟨"net", some "amount - tax", "decimal", some "sum"⟩, ⟨"gross", some "amount", "decimal", some "sum"⟩], none⟩)]
  relationships := none
  metrics := none

/-- a column without a table -/
def unqualified (name : String) : Expr := Expr.column ⟨name, "", "", ""⟩

def salesRead : Surroundings :=
  .ofTable [("amount - tax", Expr.op "Sub" [unqualified "amount", unqualified "tax"]), ("amount", unqualified "amount")]

def measureQuery (measure : String) : SemanticQuery := ⟨[measure], [], [], [], [], .none, none, none⟩

def grossMembers : Members := ⟨[], [], [⟨"orders", "gross", "amount", "decimal", some "sum"⟩], [], [], []⟩

end Net

end Langbridge.Semantic.Compiler
