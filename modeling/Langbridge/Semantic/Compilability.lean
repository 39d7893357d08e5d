/-
When a semantic query compiles. A query whose members all resolve, and mention datasets that relationships connect, is
to be translated over exactly these datasets and those on the paths between them, and no query is to fail with anything
but a semantic error. The compiler is judged by the list of its checks.
-/
import Langbridge.Core.Verdict
import Langbridge.Semantic.Compiler

namespace Langbridge.Semantic.Compiler

open Core Core.Verdict Federation.Sql Semantic.DateRanges List Dict PyText
  Semantic.Filters Semantic.Resolver

section Compilability

variable [PyNumerals] (S : Surroundings) (model : SemanticModel) (dialect : String)

/-! ## Members and what they mention -/

def membersOf (q : SemanticQuery) : Except TranslateError Members := do
  let dimensions ← q.dimensions.mapM fun member => (resolveDimension model member).mapError .model
  let timeDimensions ← q.timeDimensions.mapM (resolveTimeDimension model)
  let members ← q.measures.mapM (resolveMeasureOrMetric model)
  let filters ← q.filters.mapM (filterMember model)
  let segments ← q.segments.mapM fun member => (resolveSegment model member).mapError .model
  return ⟨dimensions, timeDimensions, members.filterMap Sum.getLeft?, members.filterMap Sum.getRight?, filters,
    segments⟩

def namedColumn (ms : Members) (item : String × Bool) : Option String :=
  ((orderAliases model ms).get? item.1).filter (· ≠ "")

def orderMembers (ms : Members) (items : List (String × Bool)) : List OrderMember :=
  items.filterMap fun item =>
    if (namedColumn model ms item).isSome then none else (orderMember model ms item.1).toOption

/-- the datasets that a text names: they stand before a column of it -/
def namedDatasets (text : String) : Finset String :=
  (model.datasets.keys.filter fun key => (S.parse text).any fun e => e.columns.any (·.table = key)).toFinset

def dimensionMentions (d : Resolver.DimensionRef) : Finset String :=
  insert d.dataset (namedDatasets S model d.expression)

def measureMentions (m : Resolver.MeasureRef) : Finset String := insert m.dataset (namedDatasets S model m.expression)

def metricMentions (m : MetricRef) : Finset String := namedDatasets S model m.expression

def segmentMentions (s : Resolver.SegmentRef) : Finset String := insert s.dataset (namedDatasets S model s.condition)

def filterMentions : FilterMember → Finset String
  | .dimension d => dimensionMentions S model d
  | .measure m => measureMentions S model m
  | .metric m => metricMentions S model m

def orderMentions : OrderMember → Finset String
  | .timeDimension t => dimensionMentions S model t.dimension
  | .dimension d => dimensionMentions S model d
  | .measure m => measureMentions S model m
  | .metric m => metricMentions S model m

/-- the datasets that the members of a query mention -/
def mentioned (ms : Members) (items : List (String × Bool)) : Finset String :=
  (ms.dimensions.map (dimensionMentions S model) ++
    ms.timeDimensions.map (fun t => dimensionMentions S model t.dimension) ++
    ms.measures.map (measureMentions S model) ++ ms.metrics.map (metricMentions S model) ++
    ms.filters.map (filterMentions S model) ++ ms.segments.map (segmentMentions S model) ++
    (orderMembers model ms items).map (orderMentions S model)).foldr (· ∪ ·) ∅

/-! ## The promise -/

/-- the elements of an order; one of another shape has none -/
def orderItems (order : OrderSpec) : List (String × Bool) := (normalizeOrder order).toOption.getD []

/-- all members resolve, those to order by too, and the datasets they mention are connected -/
structure Connected (q : SemanticQuery) (ms : Members) : Prop where
  resolved : membersOf model q = .ok ms
  ordered : ∀ item ∈ orderItems q.order, namedColumn model ms item = none → (orderMember model ms item.1).isOk = true
  connected : ∀ a ∈ mentioned S model ms (orderItems q.order), ∀ b ∈ mentioned S model ms (orderItems q.order),
    Reaches (plannerOf model).relationships a b

def Statement.datasets (s : Statement) : Finset String :=
  insert s.base.dataset (s.joins.map fun j => j.table.dataset).toFinset

/-- a translation over the datasets that are mentioned and those on the paths to them -/
def Succeeds (q : SemanticQuery) (ms : Members) : Prop :=
  ∃ t, translate S model dialect q = .ok t ∧
    t.statement.base.dataset ∈ mentioned S model ms (orderItems q.order) ∧
    t.statement.datasets =
      (plannerOf model).reached t.statement.base.dataset (mentioned S model ms (orderItems q.order))

/-- **A query compiles**: it succeeds if its members resolve and are connected, and fails with semantic errors only. -/
def Compiles (q : SemanticQuery) : Prop :=
  (∀ ms, Connected S model q ms → Succeeds S model dialect q ms) ∧
    ∀ e, translate S model dialect q = .error e → e.isSemantic = true

/-! ## The checks -/

def readable (text : String) : Bool := (S.parse text).isSome

/-- the expression of a column: none, or one that can be read -/
def readableColumn (text : String) : Bool := text = "" || readable S text

/-- the values are enough for an operator -/
def fits (values : List String) (dataType : Option String) : Filters.Meaning → Bool
  | .found _ _ => !values.isEmpty
  | .compared _ => !values.isEmpty
  | .ranged _ => (dateRangeOf values dataType dialect).isOk
  | .member _ => true
  | .present _ => true

def predicateChecks (item : FilterItem) (dataType : Option String) : List Verdict :=
  match operatorOf (norm item.operator) with
  | none => [.refused]
  | some op => [brokenUnless (fits dialect (item.values.getD []) dataType op.meaning)]

/-- the text of a filter's member can be read -/
def termChecks : FilterMember → List Verdict
  | .dimension d => [brokenUnless (readableColumn S d.expression)]
  | .measure m => [brokenUnless (readableColumn S m.expression), brokenUnless (acceptsAggregation S m)]
  | .metric m => [brokenUnless (readable S m.expression)]

def filterChecks (item : FilterItem) : List Verdict :=
  match filterMember model item with
  | .error _ => [.refused]
  | .ok m => termChecks S m ++ predicateChecks dialect item m.dataType

def resolutionChecks (q : SemanticQuery) : List Verdict :=
  q.dimensions.map (fun member => refusedUnless (resolveDimension model member).isOk) ++
    q.timeDimensions.map (fun item => refusedUnless (resolveDimension model item.dimension).isOk) ++
    q.measures.map (fun member => refusedUnless (resolveMeasureOrMetric model member).isOk) ++
    q.filters.flatMap (filterChecks S model dialect) ++
    q.segments.map fun member => refusedUnless (resolveSegment model member).isOk

def supported (granularity : Option String) : Bool :=
  match given granularity with
  | none => true
  | some g => norm g ∈ supportedUnits

def selectChecks (ms : Members) : List Verdict :=
  ms.dimensions.map (fun d => brokenUnless (readableColumn S d.expression)) ++
    ms.timeDimensions.map (fun t => brokenUnless (supported t.granularity)) ++
    ms.measures.flatMap (fun m => [brokenUnless (readableColumn S m.expression), brokenUnless (acceptsAggregation S m)])
    ++ ms.metrics.map (fun m => brokenUnless (readable S m.expression)) ++
    [refusedUnless !(ms.dimensions.isEmpty && ms.timeDimensions.isEmpty && ms.measures.isEmpty && ms.metrics.isEmpty)]

def whereChecks (ms : Members) : List Verdict :=
  (ms.timeDimensions.flatMap fun t =>
      match t.range with
      | none => []
      | some range => [brokenUnless (readableColumn S t.rangeExpression),
        brokenUnless (buildDateRangeCondition range (some t.dimension.dataType) dialect).isOk]) ++
    ms.segments.map fun s => brokenUnless (readable S s.condition)

/-- a member to order by is of a joined dataset, and its text can be read -/
def orderMemberChecks (joined : Finset String) : OrderMember → List Verdict
  | .timeDimension t => [brokenUnless (t.dimension.dataset ∈ joined),
    brokenUnless (readableColumn S t.dimension.expression), brokenUnless (supported t.granularity)]
  | .dimension d => [brokenUnless (d.dataset ∈ joined), brokenUnless (readableColumn S d.expression)]
  | .measure m => [brokenUnless (m.dataset ∈ joined), brokenUnless (readableColumn S m.expression),
    brokenUnless (acceptsAggregation S m)]
  | .metric m => [brokenUnless (readable S m.expression)]

def orderItemChecks (ms : Members) (joined : Finset String) (item : String × Bool) : List Verdict :=
  match namedColumn model ms item with
  | some _ => []
  | none =>
    match orderMember model ms item.1 with
    | .error _ => [.refused]
    | .ok m => orderMemberChecks S joined m

def orderChecks (q : SemanticQuery) (ms : Members) (joined : Finset String) : List Verdict :=
  match normalizeOrder q.order with
  | .error _ => [.refused]
  | .ok items => items.flatMap (orderItemChecks S model ms joined)

/-- the joined datasets are datasets of the model, and the conditions of the joins can be read -/
def fromChecks (baseDataset : String) (steps : List JoinStep) : List Verdict :=
  refusedUnless (model.datasets.has baseDataset) :: steps.flatMap fun step =>
    [refusedUnless (model.datasets.has step.rightDataset),
      brokenUnless (readable S (joinConditionText step.relationship))]

def planChecks (q : SemanticQuery) (ms : Members) : List Verdict :=
  match chooseBaseDataset S model ms with
  | .error e => [if e.isSemantic = true then .refused else .broken]
  | .ok baseDataset =>
    match (plannerOf model).plan baseDataset (insert baseDataset (collectRequiredDatasets model ms)) with
    | .error _ => [.refused]
    | .ok steps => selectChecks S ms ++ whereChecks S dialect ms ++
      orderChecks S model q ms (joinedDatasets baseDataset steps) ++ fromChecks S model baseDataset steps

/-- what is checked before a query is translated, in the order in which it is -/
def checks (q : SemanticQuery) : List Verdict :=
  resolutionChecks S model dialect q ++
    match membersOf model q with
    | .error _ => []
    | .ok ms => planChecks S model dialect q ms

/-! ## Verdicts of the stages -/

/-- the verdict of a stage -/
def verdict {α : Type} (x : Except TranslateError α) : Verdict := judge (fun e => e.isSemantic = true) x

variable {α β : Type} {f : α → Except TranslateError β}

omit [PyNumerals] in
theorem verdict_bind {x : Except TranslateError α} {v : Verdict}
    (h : ∀ a, x = .ok a → verdict (f a) = v) : verdict (x >>= f) = verdict x * v := judge_bind _ h

omit [PyNumerals] in
/-- the last step of a stage gives its result -/
theorem verdict_pure (x : Except TranslateError α) (f : α → β) : verdict (x >>= fun a => pure (f a)) = verdict x := by
  cases x <;> rfl

omit [PyNumerals] in
theorem verdict_map (x : Except TranslateError α) (f : α → β) : verdict (x.map f) = verdict x :=
  judge_map _ x f

omit [PyNumerals] in
theorem verdict_mapM {checksOf : α → List Verdict} {l : List α}
    (h : ∀ a ∈ l, verdict (f a) = (checksOf a).prod) : verdict (l.mapM f) = (l.flatMap checksOf).prod := by
  rw [verdict, judge_mapM, List.flatMap, prod_flatten, List.map_map]
  exact congrArg List.prod (map_congr_left h)

omit [PyNumerals] in
theorem verdict_mapM_single {check : α → Verdict} {l : List α}
    (h : ∀ a ∈ l, verdict (f a) = check a) : verdict (l.mapM f) = (l.map check).prod := by
  rw [verdict, judge_mapM]
  exact congrArg List.prod (map_congr_left h)

omit [PyNumerals] in
/-- a resolution refuses -/
theorem verdict_model (x : Except SemanticModelError α) : verdict (x.mapError .model) = refusedUnless x.isOk := by
  cases x <;> rfl

omit [PyNumerals] in
theorem verdict_ensureExpression (text : String) :
    verdict (ensureExpression S text) = brokenUnless (readable S text) := by
  rw [ensureExpression, readable]
  cases S.parse text <;> rfl

theorem verdict_columnOver (aliasMap : Dict String String) (asName column expression : String)
    (dataType : Option String) :
    verdict (columnOver S aliasMap asName column expression dataType) = brokenUnless (readableColumn S expression) := by
  rw [columnOver, readableColumn]
  split_ifs with hempty
  · rw [decide_eq_true hempty]
    rfl
  · rw [verdict_map, verdict_ensureExpression, decide_eq_false hempty, Bool.false_or]

theorem verdict_aggregateOf (m : Resolver.MeasureRef) (column : Expr) :
    verdict (aggregateOf S m column) = brokenUnless (acceptsAggregation S m) := by
  rw [aggregateOf]
  cases acceptsAggregation S m <;> rfl

theorem verdict_columnExpression (aliasMap : Dict String String) (dataset column expression : String)
    (dataType : Option String) : verdict (columnExpression S aliasMap dataset column expression dataType) =
      brokenUnless (aliasMap.has dataset) * brokenUnless (readableColumn S expression) := by
  rw [columnExpression, verdict_bind fun asName _ => verdict_columnOver S aliasMap asName column expression dataType]
  rw [aliasAt]
  rw [Dict.has]
  cases aliasMap.get? dataset <;> rfl

/-! ## Resolving -/

theorem verdict_buildPredicate (item : FilterItem) (dataType : Option String) :
    verdict (buildPredicate dialect item dataType) = (predicateChecks dialect item dataType).prod := by
  rw [buildPredicate, predicateChecks]
  cases hop : operatorOf (norm item.operator) with
  | none =>
    rw [buildFilterExpression, hop]
    rfl
  | some op =>
    have hbuilds :=
      @buildFilterExpression_eq _ (item.values.getD []) dataType dialect (norm item.operator) op hop
    have hok : ∀ {built : Except FilterError Predicate}, (∃ p, built = .ok p) →
        verdict (built.mapError TranslateError.ofFilter) = .fine := by
      rintro _ ⟨p, rfl⟩
      rfl
    rw [prod_singleton]
    cases hm : op.meaning with
    | member yes =>
      rw [hm] at hbuilds
      obtain ⟨p, hp, -⟩ := hbuilds
      exact hok ⟨p, hp⟩
    | present yes =>
      rw [hm] at hbuilds
      obtain ⟨p, hp, -⟩ := hbuilds
      exact hok ⟨p, hp⟩
    | found place yes =>
      rw [hm] at hbuilds
      cases hvalues : item.values.getD [] with
      | nil =>
        have herror := hbuilds.1 hvalues
        rw [hvalues] at herror
        rw [herror]
        rfl
      | cons v rest =>
        obtain ⟨p, hp, -⟩ := hbuilds.2 v rest hvalues
        rw [← hvalues]
        rw [hok ⟨p, hp⟩, hvalues]
        rfl
    | compared op =>
      rw [hm] at hbuilds
      cases hvalues : item.values.getD [] with
      | nil =>
        have herror := hbuilds.1 hvalues
        rw [hvalues] at herror
        rw [herror]
        rfl
      | cons v rest =>
        have hp := hbuilds.2 v rest hvalues
        rw [← hvalues]
        rw [hok ⟨_, hp⟩, hvalues]
        rfl
    | ranged yes =>
      rw [hm] at hbuilds
      cases hrange : dateRangeOf (item.values.getD []) dataType dialect with
      | ok c =>
        obtain ⟨p, hp, -⟩ := hbuilds.1 c hrange
        rw [hok ⟨p, hp⟩, fits, hrange]
        rfl
      | error e =>
        rw [hbuilds.2 e hrange, fits, hrange]
        rw [dateRangeOf] at hrange
        cases hbuild : buildDateRangeCondition (rangeOf (item.values.getD [])) dataType dialect with
        | ok c =>
          rw [hbuild] at hrange
          cases hrange
        | error e' =>
          rw [hbuild] at hrange
          cases hrange
          rfl

theorem verdict_filterTerm (m : FilterMember) : verdict (filterTerm S m) = (termChecks S m).prod := by
  cases m with
  | dimension d => rw [filterTerm, verdict_map, verdict_columnOver, termChecks, prod_singleton]
  | metric m => rw [filterTerm, verdict_map, verdict_ensureExpression, termChecks, prod_singleton]
  | measure m =>
    rw [filterTerm, verdict_bind fun column _ => verdict_aggregateOf S m column, verdict_columnOver, termChecks,
      prod_cons, prod_singleton]

theorem verdict_resolveMeasureOrMetric (member : String) :
    verdict (resolveMeasureOrMetric model member) = refusedUnless (resolveMeasureOrMetric model member).isOk := by
  apply judge_of_refusal
  intro e he
  rw [resolveMeasureOrMetric] at he
  split at he
  · cases he
  · cases hmeasure : resolveMeasure model member with
    | ok m =>
      rw [hmeasure] at he
      cases he
    | error e' =>
      rw [hmeasure] at he
      cases he
      rfl

theorem verdict_filterMember (item : FilterItem) :
    verdict (filterMember model item) = refusedUnless (filterMember model item).isOk := by
  apply judge_of_refusal
  intro e he
  rw [filterMember] at he
  have hresolve : ∀ {member : String} {e : TranslateError},
      (resolveMeasureOrMetric model member).map FilterMember.ofMeasure = .error e → e.isSemantic = true := by
    intro member e h
    have hverdict := verdict_resolveMeasureOrMetric model member
    cases hm : resolveMeasureOrMetric model member with
    | ok m =>
      rw [hm] at h
      cases h
    | error e' =>
      rw [hm] at h hverdict
      cases h
      by_contra hnot
      rw [verdict, judge_error, if_neg hnot] at hverdict
      cases hverdict
  split at he
  · cases he
    rfl
  · rename_i member _
    split_ifs at he
    · cases hd : resolveDimension model member with
      | ok d =>
        rw [hd] at he
        cases he
      | error e' =>
        rw [hd] at he
        cases he
        rfl
    · exact hresolve he
    · split at he
      · cases he
      · cases he
      · exact hresolve he

theorem verdict_resolveFilterTarget (item : FilterItem) :
    verdict (resolveFilterTarget S model dialect item) = (filterChecks S model dialect item).prod := by
  have hmember := verdict_filterMember model item
  rw [resolveFilterTarget, filterChecks]
  cases hm : filterMember model item with
  | error e =>
    rw [hm] at hmember
    exact hmember
  | ok m =>
    have htarget : verdict (do
        let target ← filterTerm S m
        let predicate ← buildPredicate dialect item m.dataType
        return (⟨m, target, predicate⟩ : FilterTarget)) =
          verdict (filterTerm S m) * verdict (buildPredicate dialect item m.dataType) :=
      verdict_bind fun target _ => verdict_pure _ _
    rw [prod_append, ← verdict_filterTerm, ← verdict_buildPredicate, ← htarget]
    rfl

theorem verdict_resolveTimeDimension (item : TimeDimension) :
    verdict (resolveTimeDimension model item) = refusedUnless (resolveDimension model item.dimension).isOk := by
  rw [resolveTimeDimension, verdict_model]
  cases resolveDimension model item.dimension <;> rfl

/-- **Resolving a query** -/
theorem verdict_resolveQuery (q : SemanticQuery) :
    verdict (resolveQuery S model dialect q) = (resolutionChecks S model dialect q).prod := by
  rw [resolveQuery, verdict_bind fun _ _ => verdict_bind fun _ _ => verdict_bind fun _ _ => verdict_bind fun _ _ =>
    verdict_pure _ _]
  rw [verdict_mapM_single fun member _ => verdict_model (resolveDimension model member),
    verdict_mapM_single fun item _ => verdict_resolveTimeDimension model item,
    verdict_mapM_single fun member _ => verdict_resolveMeasureOrMetric model member,
    verdict_mapM fun item _ => verdict_resolveFilterTarget S model dialect item,
    verdict_mapM_single fun member _ => verdict_model (resolveSegment model member)]
  simp only [resolutionChecks, prod_append, mul_assoc]

variable {S model dialect} in
theorem membersOf_ok {q : SemanticQuery} {r : Resolved} (h : resolveQuery S model dialect q = .ok r) :
    membersOf model q = .ok r.members := by
  obtain ⟨dimensions, hdimensions, h⟩ := of_bind_ok h
  obtain ⟨timeDimensions, htimeDimensions, h⟩ := of_bind_ok h
  obtain ⟨members, hmembers, h⟩ := of_bind_ok h
  obtain ⟨filters, hfilters, h⟩ := of_bind_ok h
  obtain ⟨segments, hsegments, h⟩ := of_bind_ok h
  cases h
  have hfilter : q.filters.mapM (filterMember model) = .ok (filters.map FilterTarget.member) := by
    apply mapM_of_forall₂
    rw [List.forall₂_map_right_iff]
    refine (forall₂_of_mapM hfilters).imp fun item target htarget => ?_
    obtain ⟨m, hm, htarget⟩ := of_bind_ok htarget
    obtain ⟨term, -, htarget⟩ := of_bind_ok htarget
    obtain ⟨predicate, -, htarget⟩ := of_bind_ok htarget
    cases htarget
    exact hm
  rw [membersOf, hdimensions, htimeDimensions, hmembers, hfilter, hsegments]
  rfl

/-! ## Building -/

theorem verdict_truncate (granularity : Option String) (e : Expr) :
    verdict (truncate dialect granularity e) = brokenUnless (supported granularity) := by
  rw [truncate, supported]
  cases given granularity with
  | none => rfl
  | some g =>
    simp only [dateTrunc]
    by_cases hunit : norm g ∈ supportedUnits
    · rw [if_neg (not_not.2 hunit), decide_eq_true hunit]
      split_ifs <;> rfl
    · rw [if_pos hunit, decide_eq_false hunit]
      rfl

variable (aliasMap : Dict String String)

theorem verdict_measureExpression (m : Resolver.MeasureRef) : verdict (measureExpression S aliasMap m) =
    brokenUnless (aliasMap.has m.dataset) * (brokenUnless (readableColumn S m.expression) *
      brokenUnless (acceptsAggregation S m)) := by
  rw [measureExpression, verdict_bind fun column _ => verdict_aggregateOf S m column, verdict_columnExpression,
    mul_assoc]

omit [PyNumerals] in
theorem verdict_replaceRefs (text : String) :
    verdict (replaceRefs S aliasMap text) = brokenUnless (readable S text) := by
  rw [replaceRefs, verdict_map, verdict_ensureExpression]

variable {aliasMap} in
/-- **The select list** -/
theorem verdict_buildSelects (r : Resolved) (hdimensions : ∀ d ∈ r.dimensions, aliasMap.has d.dataset = true)
    (htimeDimensions : ∀ t ∈ r.timeDimensions, aliasMap.has t.dimension.dataset = true)
    (hmeasures : ∀ m ∈ r.measures, aliasMap.has m.dataset = true) :
    verdict (buildSelects S dialect aliasMap r) = (selectChecks S r.members).prod := by
  have hdimension : ∀ d ∈ r.dimensions,
      verdict (selectDimension S aliasMap d) = brokenUnless (readableColumn S d.expression) := by
    intro d hd
    rw [selectDimension, verdict_map, verdict_columnExpression, hdimensions d hd]
    rfl
  have htimeDimension : ∀ t ∈ r.timeDimensions,
      verdict (selectTimeDimension S dialect aliasMap t) = brokenUnless (supported t.granularity) := by
    intro t ht
    rw [selectTimeDimension, verdict_bind fun base _ => (verdict_pure _ _).trans (verdict_truncate dialect _ base),
      verdict_columnExpression, htimeDimensions t ht]
    rfl
  have hmeasure : ∀ m ∈ r.measures, verdict (selectMeasure S aliasMap m) =
      [brokenUnless (readableColumn S m.expression), brokenUnless (acceptsAggregation S m)].prod := by
    intro m hm
    rw [selectMeasure, verdict_map, verdict_measureExpression, hmeasures m hm, prod_cons, prod_singleton]
    rfl
  have hmetric : ∀ m ∈ r.metrics, verdict (selectMetric S aliasMap m) = brokenUnless (readable S m.expression) := by
    intro m _
    rw [selectMetric, verdict_map, verdict_replaceRefs]
  have hempty : ∀ {α β : Type} {f : α → Except TranslateError β} {l : List α} {l' : List β}, l.mapM f = .ok l' →
      l'.isEmpty = l.isEmpty := by
    intro α β f l l' h
    have hlength := (forall₂_of_mapM h).length_eq
    cases l <;> cases l' <;> simp_all
  rw [buildSelects, verdict_bind (v := (r.timeDimensions.map fun t => brokenUnless (supported t.granularity)).prod *
    ((r.measures.flatMap fun m =>
        [brokenUnless (readableColumn S m.expression), brokenUnless (acceptsAggregation S m)]).prod *
      ((r.metrics.map fun m => brokenUnless (readable S m.expression)).prod *
        refusedUnless !(r.dimensions.isEmpty && r.timeDimensions.isEmpty && r.measures.isEmpty && r.metrics.isEmpty))))]
  · rw [verdict_mapM_single hdimension]
    simp only [selectChecks, prod_append, prod_singleton, mul_assoc]
    rfl
  · intro ds hds
    rw [← verdict_mapM_single htimeDimension]
    apply verdict_bind
    intro ts hts
    rw [← verdict_mapM hmeasure]
    apply verdict_bind
    intro ms hms
    rw [← verdict_mapM_single hmetric]
    apply verdict_bind
    intro ks hks
    rw [← hempty hds, ← hempty hts, ← hempty hms, ← hempty hks]
    cases ds <;> cases ts <;> cases ms <;> cases ks <;> rfl

/-- **The conditions** -/
theorem verdict_buildWhereConditions (r : Resolved)
    (htimeDimensions : ∀ t ∈ r.timeDimensions, aliasMap.has t.dimension.dataset = true) :
    verdict (buildWhereConditions S dialect aliasMap r) = (whereChecks S dialect r.members).prod := by
  have hrange : ∀ e ∈ r.timeDimensions.filterMap (fun t => t.range.map fun range => (t, range)),
      verdict (rangeCondition S dialect aliasMap e.1 e.2) = [brokenUnless (readableColumn S e.1.rangeExpression),
        brokenUnless (buildDateRangeCondition e.2 (some e.1.dimension.dataType) dialect).isOk].prod := by
    intro e he
    obtain ⟨t, ht, hmap⟩ := mem_filterMap.1 he
    obtain ⟨range, -, rfl⟩ := Option.map_eq_some_iff.1 hmap
    have hcondition : verdict ((buildDateRangeCondition range (some t.dimension.dataType) dialect).mapError
        fun e => TranslateError.value e.message) =
          brokenUnless (buildDateRangeCondition range (some t.dimension.dataType) dialect).isOk := by
      cases buildDateRangeCondition range (some t.dimension.dataType) dialect <;> rfl
    rw [rangeCondition, verdict_bind fun column _ => (verdict_pure _ _).trans hcondition, verdict_columnExpression,
      htimeDimensions t ht, prod_cons, prod_singleton]
    rfl
  have hranges : ((r.timeDimensions.filterMap fun t => t.range.map fun range => (t, range)).flatMap fun e =>
      [brokenUnless (readableColumn S e.1.rangeExpression),
        brokenUnless (buildDateRangeCondition e.2 (some e.1.dimension.dataType) dialect).isOk]) =
      r.timeDimensions.flatMap fun t =>
        match t.range with
        | none => []
        | some range => [brokenUnless (readableColumn S t.rangeExpression),
          brokenUnless (buildDateRangeCondition range (some t.dimension.dataType) dialect).isOk] := by
    induction r.timeDimensions with
    | nil => rfl
    | cons t l ih =>
      rw [filterMap_cons, flatMap_cons]
      cases t.range with
      | none => exact ih
      | some range => exact congrArg ([_, _] ++ ·) ih
  have hsegment : ∀ s ∈ r.segments,
      verdict (segmentCondition S aliasMap s) = brokenUnless (readable S s.condition) := by
    intro s _
    rw [segmentCondition, verdict_map, verdict_replaceRefs]
  rw [buildWhereConditions, verdict_bind fun ranges _ => (verdict_pure _ _).trans (verdict_mapM_single hsegment),
    verdict_mapM hrange, hranges, whereChecks, prod_append]
  rfl

variable {aliasMap} {joined : Finset String}

/-- **The order** -/
theorem verdict_orderTerm (hjoined : ∀ d, aliasMap.has d = decide (d ∈ joined)) (ms : Members) (item : String × Bool) :
    verdict (orderTerm S model dialect aliasMap ms item) = (orderItemChecks S model ms joined item).prod := by
  rw [orderTerm, orderItemChecks, namedColumn]
  cases ((orderAliases model ms).get? item.1).filter (· ≠ "") with
  | some asName => rfl
  | none =>
    rw [verdict_map, resolveOrderMember]
    cases hm : orderMember model ms item.1 with
    | error e =>
      have hsemantic : e.isSemantic = true := by
        rw [orderMember] at hm
        split at hm <;> cases hm
        rfl
      change verdict (.error e : Except TranslateError Term) = _
      rw [verdict, judge_error, if_pos hsemantic]
      rfl
    | ok m =>
      change verdict (orderExpression S dialect aliasMap m) = (orderMemberChecks S joined m).prod
      cases m with
      | timeDimension t =>
        rw [orderExpression, verdict_bind fun column _ => (verdict_pure _ _).trans (verdict_truncate dialect _ column),
          verdict_columnExpression, hjoined, orderMemberChecks, prod_cons, prod_cons, prod_singleton,
          mul_assoc]
      | dimension d =>
        rw [orderExpression, verdict_map, verdict_columnExpression, hjoined, orderMemberChecks, prod_cons,
          prod_singleton]
      | measure m =>
        rw [orderExpression, verdict_measureExpression, hjoined, orderMemberChecks, prod_cons, prod_cons,
          prod_singleton]
      | metric m =>
        rw [orderExpression, verdict_map, verdict_replaceRefs, orderMemberChecks, prod_singleton]

theorem verdict_datasetRef (dataset : String) :
    verdict (datasetRef model dataset) = refusedUnless (model.datasets.has dataset) := by
  rw [datasetRef, Dict.has]
  cases model.datasets.get? dataset <;> rfl

theorem verdict_applyJoin (step : JoinStep) : verdict (applyJoin S model aliasMap step) =
    [refusedUnless (model.datasets.has step.rightDataset),
      brokenUnless (readable S (joinConditionText step.relationship))].prod := by
  rw [applyJoin, verdict_bind fun table _ => (verdict_pure _ _).trans (verdict_replaceRefs S aliasMap _),
    verdict_datasetRef, prod_cons, prod_singleton]

/-! ## The whole -/

omit [PyNumerals] in
theorem mem_keys_add (a : Aliasing) (dataset d : String) :
    d ∈ (a.add dataset).aliasMap.keys ↔ d ∈ a.aliasMap.keys ∨ d = dataset := by
  rw [Aliasing.add]
  split_ifs with hhas
  · rw [has_iff] at hhas
    refine ⟨.inl, ?_⟩
    rintro (h | rfl)
    · exact h
    · exact hhas
  · exact mem_keys_set _ _ _ _

omit [PyNumerals] in
theorem aliasMap_has {relationships : List Relationship} {baseDataset : String} {steps : List JoinStep}
    (htree : JoinTree relationships baseDataset steps) (d : String) :
    (buildAliasMap baseDataset steps).has d = decide (d ∈ joinedDatasets baseDataset steps) := by
  have hfold : ∀ (steps : List JoinStep) (a : Aliasing), d ∈ (steps.foldl Aliasing.addStep a).aliasMap.keys ↔
      d ∈ a.aliasMap.keys ∨ ∃ step ∈ steps, d = step.rightDataset ∨ d = step.leftDataset := by
    intro steps
    induction steps with
    | nil => simp
    | cons step steps ih =>
      intro a
      rw [foldl_cons, ih, Aliasing.addStep, mem_keys_add, mem_keys_add]
      simp only [mem_cons, exists_eq_or_imp, or_assoc]
  rw [Bool.eq_iff_iff, decide_eq_true_iff, has_iff, buildAliasMap, hfold, mem_keys_set]
  constructor
  · rintro ((hnone | rfl) | ⟨step, hstep, rfl | rfl⟩)
    · cases hnone
    · exact Finset.mem_insert_self _ _
    · exact (htree.mem_joined hstep).2.1
    · exact (htree.mem_joined hstep).1
  · intro hd
    rcases Finset.mem_insert.1 hd with rfl | hd
    · exact .inl (.inr rfl)
    · obtain ⟨step, hstep, rfl⟩ := mem_map.1 (mem_toFinset.1 hd)
      exact .inr ⟨step, hstep, .inl rfl⟩

theorem required_of_selected (r : Resolved) :
    (∀ d ∈ r.dimensions, d.dataset ∈ collectRequiredDatasets model r.members) ∧
      (∀ t ∈ r.timeDimensions, t.dimension.dataset ∈ collectRequiredDatasets model r.members) ∧
      ∀ m ∈ r.measures, m.dataset ∈ collectRequiredDatasets model r.members := by
  refine ⟨fun d hd => ?_, fun t ht => ?_, fun m hm => ?_⟩ <;>
    simp only [collectRequiredDatasets, Finset.mem_union, mem_toFinset]
  · exact .inl (.inl (.inl (.inl (.inl (mem_map_of_mem hd)))))
  · exact .inl (.inl (.inl (.inl (.inr (mem_map.2 ⟨t, ht, rfl⟩)))))
  · exact .inl (.inl (.inl (.inr (mem_map_of_mem hm))))

/-- **The statement over a plan** -/
theorem verdict_buildStatement (q : SemanticQuery) (r : Resolved) {baseDataset : String} {steps : List JoinStep}
    (hplan : (plannerOf model).plan baseDataset (insert baseDataset (collectRequiredDatasets model r.members)) =
      .ok steps) : verdict (buildStatement S model dialect q r baseDataset steps) =
        (selectChecks S r.members ++ whereChecks S dialect r.members ++
          orderChecks S model q r.members (joinedDatasets baseDataset steps) ++
            fromChecks S model baseDataset steps).prod := by
  obtain ⟨htree, hrequired⟩ := (plannerOf model).plan_ok hplan
  have hhas := aliasMap_has htree
  have haliased : ∀ d ∈ collectRequiredDatasets model r.members, (buildAliasMap baseDataset steps).has d = true :=
    fun d hd => (hhas d).trans (decide_eq_true (hrequired d (Finset.mem_insert_of_mem hd)))
  obtain ⟨hdimensions, htimeDimensions, hmeasures⟩ := required_of_selected model r
  have hselects := verdict_buildSelects S dialect r (fun d hd => haliased _ (hdimensions d hd))
    (fun t ht => haliased _ (htimeDimensions t ht)) fun m hm => haliased _ (hmeasures m hm)
  have hwhere := verdict_buildWhereConditions S dialect (buildAliasMap baseDataset steps) r
    fun t ht => haliased _ (htimeDimensions t ht)
  have hfrom : ∀ f : TableRef → List Join → Statement, verdict (do
      let base ← datasetRef model baseDataset
      let joins ← steps.mapM (applyJoin S model (buildAliasMap baseDataset steps))
      return f base joins) = (fromChecks S model baseDataset steps).prod := by
    intro f
    rw [verdict_bind fun base _ => verdict_pure _ (f base), verdict_datasetRef,
      verdict_mapM fun step _ => verdict_applyJoin S model step, fromChecks, prod_cons]
  rw [buildStatement, prod_append, prod_append, prod_append, mul_assoc, mul_assoc, ← hselects, ← hwhere]
  refine verdict_bind fun selects _ => verdict_bind fun conditions _ => ?_
  rw [orderChecks]
  cases hitems : normalizeOrder q.order with
  | error e =>
    have hsemantic : e.isSemantic = true := by
      rw [normalizeOrder.eq_def] at hitems
      split at hitems <;> cases hitems
      rfl
    change verdict (.error e : Except TranslateError Statement) = _
    rw [verdict, judge_error, if_pos hsemantic]
    rfl
  | ok items =>
    rw [← verdict_mapM fun item _ => verdict_orderTerm S model dialect hhas r.members item]
    change verdict (items.mapM (orderTerm S model dialect (buildAliasMap baseDataset steps) r.members) >>= _) = _
    exact verdict_bind fun orderBy _ => hfrom _

/-- **The verdict of a translation** is that of its checks. -/
theorem judge_translate (q : SemanticQuery) :
    verdict (translate S model dialect q) = (checks S model dialect q).prod := by
  rw [translate, checks, prod_append, ← verdict_resolveQuery]
  apply verdict_bind
  intro r hr
  rw [membersOf_ok hr]
  dsimp only
  rw [planChecks]
  cases hbase : chooseBaseDataset S model r.members with
  | error e => exact (prod_singleton).symm
  | ok baseDataset =>
    dsimp only
    change verdict ((((plannerOf model).plan baseDataset (insert baseDataset
      (collectRequiredDatasets model r.members))).mapError fun e => TranslateError.query e.message) >>= _) = _
    cases hplan : (plannerOf model).plan baseDataset (insert baseDataset (collectRequiredDatasets model r.members)) with
    | error e => rfl
    | ok steps => exact (verdict_pure _ _).trans (verdict_buildStatement S model dialect q r hplan)

variable {S model dialect} in
/-- **What a statement joins**: the base, the required datasets, and those on the paths to them. -/
theorem joined_translate {q : SemanticQuery} {t : Translation} (h : Translated S model dialect q t) :
    t.statement.base.dataset = t.baseDataset ∧
      t.statement.datasets = (plannerOf model).reached t.baseDataset
        (insert t.baseDataset (collectRequiredDatasets model t.resolved.members)) := by
  have href : ∀ {dataset : String} {table : TableRef}, datasetRef model dataset = .ok table →
      table.dataset = dataset := by
    intro dataset table htable
    rw [datasetRef] at htable
    split at htable
    · cases htable
      rw [tableRef]
      split_ifs <;> rfl
    · cases htable
  have hbase := href h.table
  refine ⟨hbase, ?_⟩
  have hjoins : t.statement.joins.map (fun j => j.table.dataset) = t.steps.map JoinStep.rightDataset := by
    refine map_eq_of_forall₂ (fun step j hj => ?_) (forall₂_of_mapM h.joins)
    obtain ⟨table, htable, hj⟩ := of_bind_ok hj
    obtain ⟨on, -, hj⟩ := of_bind_ok hj
    cases hj
    exact href htable
  rw [← (plannerOf model).plan_reached h.steps, Statement.datasets, hbase, hjoins]
  rfl

/-! ## Where queries compile -/

/-- **The condition**: no check breaks unless an earlier one refuses; and where the members resolve and are connected,
every check is fine, the base is among the datasets that are mentioned, and those that are looked for in the texts lead
to the same ones. -/
structure Compilable (q : SemanticQuery) : Prop where
  refuses : (checks S model dialect q).find? (· ≠ .fine) ≠ some .broken
  complete : ∀ ms, Connected S model q ms → (∀ v ∈ checks S model dialect q, v = .fine) ∧
    ∃ baseDataset, chooseBaseDataset S model ms = .ok baseDataset ∧
      baseDataset ∈ mentioned S model ms (orderItems q.order) ∧
      (plannerOf model).reached baseDataset (insert baseDataset (collectRequiredDatasets model ms)) =
        (plannerOf model).reached baseDataset (mentioned S model ms (orderItems q.order))

theorem translate_ok_iff (q : SemanticQuery) :
    (∃ t, translate S model dialect q = .ok t) ↔ ∀ v ∈ checks S model dialect q, v = .fine := by
  rw [← prod_eq_fine_iff, ← judge_translate]
  exact (judge_eq_fine_iff _ _).symm

theorem semantic_iff (q : SemanticQuery) : (∀ e, translate S model dialect q = .error e → e.isSemantic = true) ↔
    (checks S model dialect q).find? (· ≠ .fine) ≠ some .broken := by
  have hjudge := judge_ne_broken_iff (fun e : TranslateError => e.isSemantic = true) (translate S model dialect q)
  rw [← hjudge, show judge _ _ = verdict (translate S model dialect q) from rfl, judge_translate, prod_eq]
  cases (checks S model dialect q).find? (· ≠ .fine) with
  | none => simp
  | some v => simp

end Compilability

/-! ## A metric's key -/

section MetricKey

open scoped Ascii

/-- a metric under a key with a dot, over one dataset -/
def revenue : SemanticModel where
  datasets := Dict.ofList [("orders", ⟨none, none, none, none, none, none⟩)]
  relationships := none
  metrics := some (Dict.ofList [("finance.revenue", ⟨"orders.amount"⟩)])

def revenueRead : Surroundings := .ofTable [("orders.amount", Expr.column ⟨"amount", "orders", "", ""⟩)]

def revenueQuery : SemanticQuery := ⟨["finance.revenue"], [], [], [], [], .none, none, none⟩

def revenueMembers : Members := ⟨[], [], [], [⟨"finance.revenue", "orders.amount"⟩], [], []⟩

end MetricKey

end Langbridge.Semantic.Compiler
