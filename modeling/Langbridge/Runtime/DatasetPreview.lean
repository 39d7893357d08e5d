/-
The preview of a dataset (`DatasetQueryService._build_preview_sql`): the select list is made of the allowed columns, the
request's filters and sort are kept where they name an allowed column, and the policy's row filters are added.
-/
import Langbridge.Core.Json
import Langbridge.Runtime.SqlParams
import Langbridge.Runtime.SqlTree

namespace Langbridge.Runtime.DatasetPreview

open Core List PyText

/-! ## Datasets and requests -/

/-- `DatasetColumnMetadata` -/
structure DatasetColumn where
  name : String
  isAllowed : Bool
  isComputed : Bool
  expression : Option String

/-- `DatasetPolicyMetadata` -/
structure DatasetPolicy where
  maxRowsPreview : ℤ
  rowFilters : List String

/-- `CreateDatasetPreviewJobRequest` -/
structure PreviewRequest where
  workspaceId : String
  actorId : String
  enforcedLimit : ℤ
  filters : Dict String Json
  sort : List (List (String × Json))
  userContext : SqlParams.Params

/-- what `sqlglot.parse_one` may raise: a `ParseError`, or another exception -/
inductive ParseFailure where
  | parseError (message : String)
  | other (message : String)

inductive PreviewError where
  | missingParameter (message : String)
  | validation (message : String)
  | parser (message : String)

/-- one entry of the select list -/
inductive Projection where
  | star
  | column (name : String)
  | computed (expression : SqlTree) (asName : String)

/-- the select expression: `conditions` are the conjuncts of `WHERE`, `order` holds the column and `desc` -/
structure Preview where
  projections : List Projection
  table : String
  conditions : List SqlTree
  order : List (String × Bool)
  limit : ℤ

/-! ## Building the query -/

section Build

variable [PyText] (dumps : Json → String) (parse : String → String → Except ParseFailure SqlTree)

def DatasetColumn.computedBy (c : DatasetColumn) : Option String :=
  if c.isComputed then c.expression.filter fun e => e ≠ "" else none

/-- the projection of an allowed column; one whose expression does not parse has none -/
def projectionOf (dialect : String) (c : DatasetColumn) : Except PreviewError (Option Projection) :=
  match c.computedBy with
  | some text =>
    match parse text dialect with
    | .ok t => .ok (some (.computed t c.name))
    | .error (.parseError _) => .ok none
    | .error (.other m) => .error (.parser m)
  | none => .ok (some (.column c.name))

def projections (dialect : String) : List DatasetColumn → Except PreviewError (List Projection)
  | [] => .ok []
  | c :: cs => do
    let p ← projectionOf parse dialect c
    let ps ← projections dialect cs
    return p.toList ++ ps

def columnNode (name : String) : SqlTree := .node (.column name) []

def literalExpression : Json → SqlTree
  | .null => .node (.other "Null") []
  | .bool b => .node (.other "Boolean") [.node (.literal (if b then "TRUE" else "FALSE") false) []]
  | .int i => .node (.literal (toString i) false) []
  | .float t => .node (.literal t false) []
  | .arr l => .node (.literal (dumps (.arr l)) true) []
  | .obj es => .node (.literal (dumps (.obj es)) true) []
  | .str s => .node (.literal s true) []

/-- a comparison of a column -/
def compareNode (cls : String) (column : String) (value : Json) : SqlTree :=
  .node (.other cls) [columnNode column, literalExpression dumps value]

def inNode (column : String) (items : List Json) : SqlTree :=
  .node (.other "In") (columnNode column :: items.map (literalExpression dumps))

/-- the comparison that an operator stands for -/
def operatorClass (operator : String) : Option String :=
  if operator ∈ ["eq", "equals"] then some "EQ"
  else if operator ∈ ["neq", "not_equals"] then some "NEQ"
  else if operator ∈ ["gt", "greater_than"] then some "GT"
  else if operator ∈ ["gte", "greater_than_or_equal"] then some "GTE"
  else if operator ∈ ["lt", "less_than"] then some "LT"
  else if operator ∈ ["lte", "less_than_or_equal"] then some "LTE"
  else none

def applyOperatorFilter (column operator : String) (value : Json) : SqlTree :=
  match operatorClass operator with
  | some cls => compareNode dumps cls column value
  | none =>
    if operator ∈ ["contains", "like"] then compareNode dumps "Like" column (.str ("%" ++ value.text ++ "%"))
    else
      match operator, value with
      | "in", .arr items => inNode dumps column items
      | _, _ => compareNode dumps "EQ" column value

/-- a requested column, or none where it is blank or refused: with no allowed column nothing is refused -/
def usable (allowed : List DatasetColumn) (requested : String) : Option String :=
  let column := strip requested
  if column = "" then none
  else if allowed ≠ [] ∧ lower column ∉ allowed.map fun c => lower c.name then none
  else some column

/-- one filter of `_build_filter_expressions` -/
def filterExpression (column : String) : Json → SqlTree
  | .obj es =>
    applyOperatorFilter dumps column (norm (((es.lookup "operator").getD .null).orElse (.str "eq")).text)
      ((es.lookup "value").getD .null)
  | .arr items => inNode dumps column items
  | value => compareNode dumps "EQ" column value

def buildFilterExpressions (filters : Dict String Json) (allowed : List DatasetColumn) : List SqlTree :=
  filters.entries.filterMap fun e => (usable allowed e.1).map fun column => filterExpression dumps column e.2

def renderContext (request : PreviewRequest) : SqlParams.Params :=
  request.userContext.entries.foldl (fun params e => params.set e.1 e.2)
    ((Dict.empty.set "workspace_id".toList (.text request.workspaceId.toList)).set "actor_id".toList
      (.text request.actorId.toList))

/-- one template of `_build_row_filter_expressions` -/
def rowFilterExpression (dialect : String) (context : SqlParams.Params) (template : String) :
    Except PreviewError SqlTree :=
  match SqlParams.renderSqlWithParams template.toList context with
  | .error m => .error (.missingParameter m)
  | .ok rendered =>
    match parse (String.ofList rendered) dialect with
    | .ok t => .ok t
    | .error (.parseError m) => .error (.validation ("Invalid row filter policy expression: " ++ m))
    | .error (.other m) => .error (.parser m)

def buildRowFilterExpressions (dialect : String) (context : SqlParams.Params) :
    List String → Except PreviewError (List SqlTree)
  | [] => .ok []
  | template :: rest =>
    if strip template = "" then buildRowFilterExpressions dialect context rest
    else do
      let t ← rowFilterExpression parse dialect context template
      let ts ← buildRowFilterExpressions dialect context rest
      return t :: ts

/-- the `ORDER BY` of a preview -/
def orderItems (sort : List (List (String × Json))) (allowed : List DatasetColumn) : List (String × Bool) :=
  sort.filterMap fun item =>
    (usable allowed (((item.lookup "column").getD .null).orElse (.str "")).text).map fun column =>
      (column, PyText.norm (((item.lookup "direction").getD .null).orElse (.str "asc")).text = "desc")

/-- the limit of `_run_preview` -/
def effectiveLimit (policy : DatasetPolicy) (request : PreviewRequest) : ℤ :=
  min (max 1 request.enforcedLimit) (max 1 policy.maxRowsPreview)

def buildPreviewSql (tableKey dialect : String) (columns : List DatasetColumn) (policy : DatasetPolicy)
    (request : PreviewRequest) : Except PreviewError Preview := do
  let allowed := columns.filter DatasetColumn.isAllowed
  let shown ← projections parse dialect allowed
  let rowFilters ← buildRowFilterExpressions parse dialect (renderContext request) policy.rowFilters
  return {
    projections := if shown = [] then [.star] else shown
    table := tableKey
    conditions := buildFilterExpressions dumps request.filters allowed ++ rowFilters
    order := orderItems request.sort allowed
    limit := effectiveLimit policy request
  }

end Build

/-! ## What a preview reads -/

def Projection.names : Projection → List String
  | .star => []
  | .column n => [n]
  | .computed t _ => t.columns

/-- `*`, or a computed column whose expression is `*` -/
def Projection.isStar : Projection → Bool
  | .star => true
  | .column _ => false
  | .computed t _ => t.label = .star || t.label = .column "*"

/-- the columns that a preview returns, filters on or sorts by -/
def Preview.names (p : Preview) : List String :=
  p.projections.flatMap Projection.names ++ (p.conditions.flatMap SqlTree.columns ++ p.order.map Prod.fst)

def Preview.hasStar (p : Preview) : Bool := p.projections.any Projection.isStar

section Excluded

variable [PyText]

/-- a mention stands for the column with its very name, or, where no column has it, for those that equal it up to case -/
def Denotes (columns : List DatasetColumn) (mention : String) (c : DatasetColumn) : Prop :=
  c.name = mention ∨ (lower c.name = lower mention ∧ ∀ d ∈ columns, d.name ≠ mention)

def Hidden (columns : List DatasetColumn) (mention : String) : Prop :=
  ∃ c ∈ columns, c.isAllowed = false ∧ Denotes columns mention c

/-- a preview leaves the columns alone that are not allowed: it mentions none, and selects everything only where all of
them are computed, so that the table does not have them -/
structure Excludes (columns : List DatasetColumn) (p : Preview) : Prop where
  star : p.hasStar = true → ∀ c ∈ columns, c.isAllowed = false → c.isComputed = true
  names : ∀ m ∈ p.names, ¬ Hidden columns m

end Excluded

/-! ## Where the names come from -/

section Names

variable [PyText] {dumps : Json → String} {parse : String → String → Except ParseFailure SqlTree}

omit [PyText] in
theorem columns_node (l : SqlNode) (cs : List SqlTree) :
    SqlTree.columns (.node l cs) = (SqlTree.column? l).toList ++ cs.flatMap SqlTree.columns := by
  have hflat : ∀ ts : List SqlTree, ((ts.map Rose.labels).flatten).filterMap SqlTree.column? =
      ts.flatMap SqlTree.columns := by
    intro ts
    induction ts with
    | nil => rfl
    | cons t ts ih =>
      rw [map_cons, flatten_cons, filterMap_append, ih]
      rfl
  rw [SqlTree.columns, Rose.labels_node, filterMap_cons, hflat]
  cases SqlTree.column? l <;> rfl

omit [PyText] in
theorem columns_literal (v : Json) : (literalExpression dumps v).columns = [] := by
  cases v with
  | bool b => cases b <;> rfl
  | _ => rfl

omit [PyText] in
theorem columns_literals (items : List Json) : (items.map (literalExpression dumps)).flatMap SqlTree.columns = [] := by
  rw [flatMap_eq_nil_iff]
  intro t ht
  obtain ⟨v, _, rfl⟩ := mem_map.1 ht
  exact columns_literal v

omit [PyText] in
theorem columns_compare (cls column : String) (v : Json) : (compareNode dumps cls column v).columns = [column] := by
  unfold compareNode
  rw [columns_node]
  simp only [flatMap_cons, flatMap_nil, columns_literal]
  rfl

omit [PyText] in
theorem columns_in (column : String) (items : List Json) : (inNode dumps column items).columns = [column] := by
  unfold inNode
  rw [columns_node, flatMap_cons, columns_literals]
  rfl

theorem columns_operator (column operator : String) (v : Json) :
    (applyOperatorFilter dumps column operator v).columns = [column] := by
  unfold applyOperatorFilter
  cases operatorClass operator with
  | some cls => exact columns_compare _ _ _
  | none =>
    simp only
    split_ifs
    · exact columns_compare _ _ _
    · split
      · exact columns_in _ _
      · exact columns_compare _ _ _

/-- a filter mentions its column and no other -/
theorem columns_filter (column : String) (v : Json) : (filterExpression dumps column v).columns = [column] := by
  cases v with
  | obj es => exact columns_operator _ _ _
  | arr items => exact columns_in _ _
  | _ => exact columns_compare _ _ _

def requested (request : PreviewRequest) : List String :=
  request.filters.keys ++
    request.sort.map fun item => (((item.lookup "column").getD .null).orElse (.str "")).text

theorem names_filters (filters : Dict String Json) (allowed : List DatasetColumn) :
    (buildFilterExpressions dumps filters allowed).flatMap SqlTree.columns = filters.keys.filterMap (usable allowed) := by
  unfold buildFilterExpressions Dict.keys
  induction filters.entries with
  | nil => rfl
  | cons e entries ih =>
    rw [map_cons, filterMap_cons, filterMap_cons]
    cases usable allowed e.1 with
    | none => exact ih
    | some column =>
      simp only [Option.map_some, flatMap_cons, columns_filter, singleton_append]
      rw [ih]

theorem names_order (sort : List (List (String × Json))) (allowed : List DatasetColumn) :
    (orderItems sort allowed).map Prod.fst =
      (sort.map fun item => (((item.lookup "column").getD .null).orElse (.str "")).text).filterMap (usable allowed) := by
  unfold orderItems
  induction sort with
  | nil => rfl
  | cons item sort ih =>
    rw [map_cons, filterMap_cons, filterMap_cons]
    cases usable allowed (((item.lookup "column").getD .null).orElse (.str "")).text with
    | none => exact ih
    | some column =>
      simp only [Option.map_some, map_cons]
      rw [ih]

omit [PyText] in
theorem mem_projections {dialect : String} (cs : List DatasetColumn) (ps : List Projection)
    (h : projections parse dialect cs = .ok ps) (p : Projection) :
    p ∈ ps ↔ ∃ c ∈ cs, projectionOf parse dialect c = .ok (some p) := by
  induction cs generalizing ps with
  | nil =>
    cases h
    constructor
    · intro hp
      cases hp
    · rintro ⟨c, hc, _⟩
      cases hc
  | cons c cs ih =>
    rw [projections] at h
    cases hc : projectionOf parse dialect c with
    | error e =>
      rw [hc] at h
      cases h
    | ok q =>
      rw [hc] at h
      cases hcs : projections parse dialect cs with
      | error e =>
        rw [hcs] at h
        cases h
      | ok qs =>
        rw [hcs] at h
        cases h
        rw [mem_append, ih qs hcs, exists_mem_cons_iff, hc, Option.mem_toList, Except.ok.injEq]

theorem mem_rowFilters {dialect : String} {context : SqlParams.Params} (templates : List String) (ts : List SqlTree)
    (h : buildRowFilterExpressions parse dialect context templates = .ok ts) (t : SqlTree) :
    t ∈ ts ↔ ∃ template ∈ templates, strip template ≠ "" ∧
      rowFilterExpression parse dialect context template = .ok t := by
  induction templates generalizing ts with
  | nil =>
    cases h
    constructor
    · intro ht
      cases ht
    · rintro ⟨template, htemplate, _⟩
      cases htemplate
  | cons template templates ih =>
    rw [buildRowFilterExpressions] at h
    rw [exists_mem_cons_iff]
    by_cases hblank : strip template = ""
    · rw [if_pos hblank] at h
      rw [ih ts h]
      constructor
      · intro hrest
        exact .inr hrest
      · rintro (⟨hne, _⟩ | hrest)
        · exact absurd hblank hne
        · exact hrest
    · rw [if_neg hblank] at h
      cases ht : rowFilterExpression parse dialect context template with
      | error e =>
        rw [ht] at h
        cases h
      | ok u =>
        rw [ht] at h
        cases hts : buildRowFilterExpressions parse dialect context templates with
        | error e =>
          rw [hts] at h
          cases h
        | ok us =>
          rw [hts] at h
          cases h
          rw [mem_cons, ih us hts, Except.ok.injEq]
          constructor
          · rintro (rfl | hrest)
            · exact .inl ⟨hblank, rfl⟩
            · exact .inr hrest
          · rintro (⟨_, rfl⟩ | hrest)
            · exact .inl rfl
            · exact .inr hrest

end Names

/-! ## Exactly when a preview is clean -/

section Exact

variable [PyText] (dumps : Json → String) (parse : String → String → Except ParseFailure SqlTree)

/-- the conditions: the select list is not empty and no computed column is a bare star, unless every column that is not
allowed is computed; no allowed column goes by the name of one that is not; no expression of an allowed column and no
row filter mentions a column that is not allowed; and a requested column that stands for one is refused, so some column
is allowed and none equals it up to case -/
structure Clean (dialect : String) (columns : List DatasetColumn) (policy : DatasetPolicy) (request : PreviewRequest) :
    Prop where
  star : (∃ c ∈ columns, c.isAllowed = true ∧ ∃ p, projectionOf parse dialect c = .ok (some p)) ∧
      (∀ c ∈ columns, c.isAllowed = true → ∀ p, projectionOf parse dialect c = .ok (some p) → p.isStar = false) ∨
    ∀ c ∈ columns, c.isAllowed = false → c.isComputed = true
  stored : ∀ c ∈ columns, c.isAllowed = true → c.computedBy = none → ¬ Hidden columns c.name
  computed : ∀ c ∈ columns, c.isAllowed = true → ∀ text t, c.computedBy = some text → parse text dialect = .ok t →
    ∀ m ∈ t.columns, ¬ Hidden columns m
  rowFilters : ∀ template ∈ policy.rowFilters, strip template ≠ "" →
    ∀ t, rowFilterExpression parse dialect (renderContext request) template = .ok t →
      ∀ m ∈ t.columns, ¬ Hidden columns m
  requests : ∀ r ∈ requested request, strip r ≠ "" → Hidden columns (strip r) →
    (∃ c ∈ columns, c.isAllowed = true) ∧
      ∀ c ∈ columns, c.isAllowed = true → lower c.name ≠ lower (strip r)

variable {dumps parse}

/-- what a preview that is built holds -/
theorem buildPreviewSql_ok {tableKey dialect : String} {columns : List DatasetColumn} {policy : DatasetPolicy}
    {request : PreviewRequest} {p : Preview}
    (h : buildPreviewSql dumps parse tableKey dialect columns policy request = .ok p) :
    ∃ shown rowFilters, projections parse dialect (columns.filter DatasetColumn.isAllowed) = .ok shown ∧
      buildRowFilterExpressions parse dialect (renderContext request) policy.rowFilters = .ok rowFilters ∧
      p.projections = (if shown = [] then [.star] else shown) ∧
      p.conditions =
        buildFilterExpressions dumps request.filters (columns.filter DatasetColumn.isAllowed) ++ rowFilters ∧
      p.order = orderItems request.sort (columns.filter DatasetColumn.isAllowed) := by
  unfold buildPreviewSql at h
  cases hshown : projections parse dialect (columns.filter DatasetColumn.isAllowed) with
  | error e =>
    simp only [hshown] at h
    cases h
  | ok shown =>
    simp only [hshown] at h
    cases hrows : buildRowFilterExpressions parse dialect (renderContext request) policy.rowFilters with
    | error e =>
      simp only [hrows] at h
      cases h
    | ok rowFilters =>
      simp only [hrows] at h
      cases h
      exact ⟨shown, rowFilters, rfl, rfl, rfl, rfl, rfl⟩

/-- **Names.** The columns that a preview mentions are those of its projections, of the usable requests and of the row
filters. -/
theorem names_preview {shown : List Projection} {rowFilters : List SqlTree} {allowed : List DatasetColumn}
    {request : PreviewRequest} {p : Preview} (hprojections : p.projections = if shown = [] then [.star] else shown)
    (hconditions : p.conditions = buildFilterExpressions dumps request.filters allowed ++ rowFilters)
    (horder : p.order = orderItems request.sort allowed) (m : String) :
    m ∈ p.names ↔ (∃ q ∈ shown, m ∈ q.names) ∨ (∃ r ∈ requested request, usable allowed r = some m) ∨
      ∃ t ∈ rowFilters, m ∈ t.columns := by
  have hshown : p.projections.flatMap Projection.names = shown.flatMap Projection.names := by
    rw [hprojections]
    split_ifs with h
    · rw [h]
      rfl
    · rfl
  have hrequests : m ∈ (requested request).filterMap (usable allowed) ↔
      m ∈ request.filters.keys.filterMap (usable allowed) ∨ m ∈ p.order.map Prod.fst := by
    rw [requested, filterMap_append, mem_append, horder, names_order]
  rw [← mem_filterMap, hrequests, Preview.names, hshown, hconditions, flatMap_append, names_filters,
    mem_append, mem_append, mem_append, mem_flatMap, mem_flatMap]
  exact or_congr_right or_right_comm

/-- a request is used unless it is blank, or refused because columns are allowed and none equals it up to case -/
theorem usable_eq_some {allowed : List DatasetColumn} {r m : String} :
    usable allowed r = some m ↔ strip r = m ∧ m ≠ "" ∧
      (allowed = [] ∨ ∃ c ∈ allowed, lower c.name = lower m) := by
  unfold usable
  constructor
  · intro h
    simp only at h
    split_ifs at h with hblank hrefused
    cases h
    refine ⟨rfl, hblank, ?_⟩
    by_cases hnil : allowed = []
    · exact .inl hnil
    · right
      by_contra hno
      refine hrefused ⟨hnil, fun hmem => ?_⟩
      obtain ⟨c, hc, hname⟩ := mem_map.1 hmem
      exact hno ⟨c, hc, hname⟩
  · rintro ⟨rfl, hne, hok⟩
    rw [if_neg hne, if_neg]
    rintro ⟨hnil, hno⟩
    rcases hok with h | ⟨c, hc, hname⟩
    · exact hnil h
    · exact hno (mem_map.2 ⟨c, hc, hname⟩)

omit [PyText] in
theorem hasStar_iff {shown : List Projection} {p : Preview}
    (hprojections : p.projections = if shown = [] then [.star] else shown) :
    p.hasStar = false ↔ shown ≠ [] ∧ ∀ q ∈ shown, q.isStar = false := by
  rw [Preview.hasStar, hprojections]
  split_ifs with h
  · rw [h]
    constructor
    · intro hno
      cases hno
    · rintro ⟨hne, _⟩
      exact absurd rfl hne
  · rw [any_eq_false]
    constructor
    · intro hall
      exact ⟨h, fun q hq => Bool.eq_false_iff.2 (hall q hq)⟩
    · rintro ⟨_, hall⟩ q hq
      rw [hall q hq]
      exact Bool.false_ne_true

omit [PyText] in
theorem projectionOf_some {dialect : String} {c : DatasetColumn} {q : Projection} :
    projectionOf parse dialect c = .ok (some q) ↔ (c.computedBy = none ∧ q = .column c.name) ∨
      ∃ text t, c.computedBy = some text ∧ parse text dialect = .ok t ∧ q = .computed t c.name := by
  unfold projectionOf
  cases hc : c.computedBy with
  | none =>
    constructor
    · intro h
      exact .inl ⟨rfl, (Option.some.inj (Except.ok.inj h)).symm⟩
    · rintro (⟨_, rfl⟩ | ⟨_, _, h, _⟩)
      · rfl
      · cases h
  | some text =>
    simp only
    constructor
    · intro h
      right
      split at h
      · rename_i t hparse
        exact ⟨text, t, rfl, hparse, (Option.some.inj (Except.ok.inj h)).symm⟩
      · cases Except.ok.inj h
      · cases h
    · rintro (⟨h, _⟩ | ⟨text', t, h, hparse, rfl⟩)
      · cases h
      · cases h
        rw [hparse]

/-- **Previews.** A preview that is built leaves the columns alone that are not allowed if and only if the conditions
hold. -/
theorem preview_excludes_iff (dumps : Json → String) (parse : String → String → Except ParseFailure SqlTree)
    (tableKey dialect : String) (columns : List DatasetColumn) (policy : DatasetPolicy) (request : PreviewRequest)
    (p : Preview) (h : buildPreviewSql dumps parse tableKey dialect columns policy request = .ok p) :
    Excludes columns p ↔ Clean parse dialect columns policy request := by
  obtain ⟨shown, rowFilters, hshown, hrows, hprojections, hconditions, horder⟩ := buildPreviewSql_ok h
  have hmem := mem_projections _ _ hshown
  have hfilters := mem_rowFilters _ _ hrows
  have hnames := names_preview hprojections hconditions horder
  have hallowed : ∀ {c}, c ∈ columns.filter DatasetColumn.isAllowed ↔ c ∈ columns ∧ c.isAllowed = true :=
    mem_filter
  constructor
  · intro hex
    refine ⟨?_, ?_, ?_, ?_, ?_⟩
    · cases hstar : p.hasStar with
      | true => exact .inr (hex.star hstar)
      | false =>
        left
        obtain ⟨hne, hall⟩ := (hasStar_iff hprojections).1 hstar
        obtain ⟨q, hq⟩ := exists_mem_of_ne_nil _ hne
        obtain ⟨c, hc, hcq⟩ := (hmem q).1 hq
        refine ⟨⟨c, (hallowed.1 hc).1, (hallowed.1 hc).2, q, hcq⟩, fun c hc hca q hcq => ?_⟩
        exact hall q ((hmem q).2 ⟨c, hallowed.2 ⟨hc, hca⟩, hcq⟩)
    · intro c hc hca hstored
      refine hex.names _ ((hnames _).2 (.inl ⟨.column c.name, ?_, mem_singleton.2 rfl⟩))
      exact (hmem _).2 ⟨c, hallowed.2 ⟨hc, hca⟩, projectionOf_some.2 (.inl ⟨hstored, rfl⟩)⟩
    · intro c hc hca text t htext hparse m hm
      refine hex.names _ ((hnames _).2 (.inl ⟨.computed t c.name, ?_, hm⟩))
      exact (hmem _).2 ⟨c, hallowed.2 ⟨hc, hca⟩, projectionOf_some.2 (.inr ⟨text, t, htext, hparse, rfl⟩)⟩
    · intro template htemplate hblank t ht m hm
      exact hex.names _ ((hnames _).2 (.inr (.inr ⟨t, (hfilters t).2 ⟨template, htemplate, hblank, ht⟩, hm⟩)))
    · intro r hr hne hhidden
      have hrefused : ¬ (columns.filter DatasetColumn.isAllowed = [] ∨
          ∃ c ∈ columns.filter DatasetColumn.isAllowed, lower c.name = lower (strip r)) := by
        intro hok
        exact hex.names _ ((hnames _).2 (.inr (.inl ⟨r, hr, usable_eq_some.2 ⟨rfl, hne, hok⟩⟩))) hhidden
      rw [not_or] at hrefused
      obtain ⟨c, hc⟩ := exists_mem_of_ne_nil _ hrefused.1
      refine ⟨⟨c, (hallowed.1 hc).1, (hallowed.1 hc).2⟩, fun d hd hda hname => ?_⟩
      exact hrefused.2 ⟨d, hallowed.2 ⟨hd, hda⟩, hname⟩
  · intro hclean
    refine ⟨fun hstar => ?_, fun m hm => ?_⟩
    · rcases hclean.star with ⟨⟨c, hc, hca, q, hcq⟩, hall⟩ | hcomputed
      · have hno : p.hasStar = false := by
          refine (hasStar_iff hprojections).2 ⟨?_, fun q hq => ?_⟩
          · exact ne_nil_of_mem ((hmem q).2 ⟨c, hallowed.2 ⟨hc, hca⟩, hcq⟩)
          · obtain ⟨d, hd, hdq⟩ := (hmem q).1 hq
            exact hall d (hallowed.1 hd).1 (hallowed.1 hd).2 q hdq
        rw [hno] at hstar
        cases hstar
      · exact hcomputed
    · rcases (hnames m).1 hm with ⟨q, hq, hmq⟩ | ⟨r, hr, husable⟩ | ⟨t, ht, hmt⟩
      · obtain ⟨c, hc, hcq⟩ := (hmem q).1 hq
        obtain ⟨hc, hca⟩ := hallowed.1 hc
        rcases projectionOf_some.1 hcq with ⟨hstored, rfl⟩ | ⟨text, t, htext, hparse, rfl⟩
        · rw [mem_singleton.1 hmq]
          exact hclean.stored c hc hca hstored
        · exact hclean.computed c hc hca text t htext hparse m hmq
      · obtain ⟨rfl, hne, hok⟩ := usable_eq_some.1 husable
        intro hhidden
        obtain ⟨⟨c, hc, hca⟩, hnone⟩ := hclean.requests r hr hne hhidden
        rcases hok with hnil | ⟨d, hd, hname⟩
        · have hcin := hallowed.2 ⟨hc, hca⟩
          rw [hnil] at hcin
          cases hcin
        · exact hnone d (hallowed.1 hd).1 (hallowed.1 hd).2 hname
      · obtain ⟨template, htemplate, hblank, hrender⟩ := (hfilters t).1 ht
        exact hclean.rowFilters template htemplate hblank t hrender m hmt

end Exact

/-! ## A dataset without an allowed column -/

section Salaries

open scoped Ascii

def salaryColumns (nameAllowed : Bool) : List DatasetColumn :=
  [⟨"name", nameAllowed, false, none⟩, ⟨"salary", false, false, none⟩]

def noPolicy : DatasetPolicy := ⟨1000, []⟩

def salaryRequest : PreviewRequest where
  workspaceId := "w"
  actorId := "a"
  enforcedLimit := 10
  filters := Dict.empty.set "salary" (.int 5)
  sort := []
  userContext := Dict.empty

def noParser (_ _ : String) : Except ParseFailure SqlTree := .error (.parseError "")

/-- no column is allowed: everything is selected, and the filter on the salary is kept -/
theorem noColumnAllowed_selects_all : ∃ p,
    buildPreviewSql Json.text noParser "staff" "tsql" (salaryColumns false) noPolicy salaryRequest = .ok p ∧
      p.projections = [.star] ∧ p.names = ["salary"] ∧ ¬ Excludes (salaryColumns false) p := by
  refine ⟨_, rfl, rfl, rfl, fun h => ?_⟩
  have hcomputed := h.star rfl ⟨"salary", false, false, none⟩ (mem_cons_of_mem _ mem_cons_self) rfl
  cases hcomputed

/-- the name is allowed: it is selected, and the filter is refused -/
theorem nameAllowed_excludes : ∃ p,
    buildPreviewSql Json.text noParser "staff" "tsql" (salaryColumns true) noPolicy salaryRequest = .ok p ∧
      Excludes (salaryColumns true) p := by
  refine ⟨_, rfl, ?_⟩
  refine (preview_excludes_iff Json.text noParser "staff" "tsql" (salaryColumns true) noPolicy salaryRequest _ rfl).2 ?_
  have hcolumn : ∀ c ∈ salaryColumns true, c.isAllowed = true → c = ⟨"name", true, false, none⟩ := by
    intro c hc hallowed
    rcases mem_cons.1 hc with rfl | hc
    · rfl
    · rw [mem_singleton.1 hc] at hallowed
      cases hallowed
  have hname : ¬ Hidden (salaryColumns true) "name" := by
    rintro ⟨c, hc, hallowed, hdenotes⟩
    rcases mem_cons.1 hc with rfl | hc
    · cases hallowed
    · rw [mem_singleton.1 hc] at hdenotes
      rcases hdenotes with h | ⟨h, _⟩
      · exact absurd h (by decide)
      · exact absurd h (by decide)
  refine ⟨.inl ⟨⟨_, mem_cons_self, rfl, .column "name", rfl⟩, ?_⟩, ?_, ?_, ?_, ?_⟩
  · intro c hc hallowed q hq
    rw [hcolumn c hc hallowed] at hq
    obtain rfl := Option.some.inj (Except.ok.inj hq)
    rfl
  · intro c hc hallowed _
    rw [hcolumn c hc hallowed]
    exact hname
  · intro c hc hallowed text t htext
    rw [hcolumn c hc hallowed] at htext
    cases htext
  · intro template htemplate
    cases htemplate
  · intro r hr _ _
    rw [mem_singleton.1 hr]
    refine ⟨⟨_, mem_cons_self, rfl⟩, fun c hc hallowed => ?_⟩
    rw [hcolumn c hc hallowed]
    decide

end Salaries

end Langbridge.Runtime.DatasetPreview
