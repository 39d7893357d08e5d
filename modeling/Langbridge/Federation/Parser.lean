/-
From a query to a logical plan (`federation/planner/parser.py`): which `SELECT` is planned, how the tables it names
are resolved in the virtual dataset, and the readings the optimizer takes of the query.

The text-to-tree step is sqlglot's; a query here is already parsed, and its text is what is printed of it again.
-/
import Langbridge.Federation.VirtualDataset

namespace Langbridge.Federation

open Core Federation.Sql PyText

/-- why a query is refused (`QueryParsingError`) -/
inductive PlanError where
  | notSelect
  | noFrom
  | notTable
  | notMapped
  | ambiguous
  | noTables
  | aliasConflict
deriving DecidableEq

/-- `TableRef` -/
structure TableRef where
  aliasName : String
  tableKey : String
  sourceId : String
  connectorId : Option String
  schemaName : Option String
  table : String
  catalog : Option String
deriving DecidableEq

/-- `JoinRef`; an absent condition is printed as `1=1` -/
structure JoinRef where
  leftAlias : String
  rightAlias : String
  joinType : String
  on : Option Expr

/-- `LogicalPlan`; `rest` holds the planned select's `GROUP BY`, `HAVING`, `ORDER BY`, `LIMIT` and `OFFSET` -/
structure LogicalPlan where
  sql : Query
  fromAlias : String
  tables : Dict String TableRef
  joins : List JoinRef
  where_ : Option Expr
  rest : List (String × List Expr)
  hasCte : Bool

/-! ## The planned select -/

/-- the queries under a body that are not `WITH` bodies -/
def operands : Query → List Query
  | .node b cs => cs.drop b.cteNames.length

def asSelect : Query → Option (Select)
  | .node (.select s) _ => some s
  | _ => none

/-- `expression.find(exp.Select)`: the first select, level by level -/
def findSelect (q : Query) : Option Select :=
  (List.range q.height).findSome? fun n => ((operands q).flatMap fun c => c.atDepth n).findSome? asSelect

def extractSelect : Query → Option Select
  | .node (.select s) _ => some s
  | .node .wrap _ => none
  | .node (.setOp op ctes rest) cs =>
    if op = "UNION" then (operands (.node (.setOp op ctes rest) cs)).head?.bind asSelect
    else findSelect (.node (.setOp op ctes rest) cs)

section Resolve

variable [PyText]

def extractCteNames (s : Select) : List String :=
  (s.ctes.map strip).filter (· ≠ "") |>.map lower

/-! ## Tables -/

/-- the bindings a table may mean once no key names it -/
def candidates (t : TableNode) (vd : VirtualDataset) : List VirtualTableBinding :=
  vd.tables.entries.filterMap fun e =>
    if e.1 = t.name then some e.2
    else if e.2.table ≠ t.name then none
    else if t.db ≠ "" ∧ e.2.schemaName.getD "" ≠ t.db then none
    else if t.catalog ≠ "" ∧ e.2.catalog.getD "" ≠ t.catalog then none
    else some e.2

/-- the binding `_resolve_table` finds for a table -/
def resolveBinding (t : TableNode) (vd : VirtualDataset) : Except PlanError VirtualTableBinding :=
  match vd.virtualTables.get? (lower t.name) with
  | some b => .ok b
  | none =>
    match vd.tables.get? (if t.db = "" then t.name else t.db ++ "." ++ t.name) with
    | some b => .ok b
    | none =>
      match candidates t vd with
      | [b] => .ok b
      | [] => .error .notMapped
      | _ => .error .ambiguous

/-- `_resolve_table`: the alias of a source and its binding -/
def resolveTable (f : FromItem) (vd : VirtualDataset) : Except PlanError (String × VirtualTableBinding) :=
  match f with
  | .table t => (resolveBinding t vd).map fun b => (t.aliasOrName, b)
  | _ => .error .notTable

def tableRef (aliasName : String) (b : VirtualTableBinding) : TableRef where
  aliasName := aliasName
  tableKey := b.tableKey
  sourceId := b.sourceId
  connectorId := b.connectorId
  schemaName := b.schemaName
  table := b.table
  catalog := b.catalog

/-- a table that names a `WITH` entry of the planned select -/
def isCteName (cteNames : List String) (t : TableNode) : Bool :=
  let name := strip t.name
  name ≠ "" && lower name ∈ cteNames && strip t.db = "" && strip t.catalog = ""

/-- one table of `_resolve_physical_tables` -/
def addPhysicalTable (vd : VirtualDataset) (tableMap : Dict String TableRef) (t : TableNode) :
    Except PlanError (Dict String TableRef) := do
  let (aliasName, binding) ← resolveTable (.table t) vd
  let candidate := tableRef aliasName binding
  match tableMap.get? aliasName with
  | none => return tableMap.set aliasName candidate
  | some existing => if existing.tableKey = candidate.tableKey then return tableMap else throw .aliasConflict

def resolvePhysicalTables (q : Query) (vd : VirtualDataset) (cteNames : List String) :
    Except PlanError (Dict String TableRef) :=
  (q.tables.filter fun t => !isCteName cteNames t).foldlM (addPhysicalTable vd) Dict.empty

/-- one join of the planned select: its table and its `JoinRef` -/
def addJoin (vd : VirtualDataset) (baseAlias : String) (acc : Dict String TableRef × List JoinRef) (j : Join) :
    Except PlanError (Dict String TableRef × List JoinRef) := do
  let (aliasName, binding) ← resolveTable j.this vd
  let left := (acc.2.getLast?.map JoinRef.rightAlias).getD baseAlias
  let kind := if j.kind = "" then "inner" else lower j.kind
  return (acc.1.set aliasName (tableRef aliasName binding), acc.2 ++ [⟨left, aliasName, kind, j.on⟩])

/-- the tables, the base alias and the joins of a planned select without `WITH` -/
def resolveFromJoins (s : Select) (vd : VirtualDataset) :
    Except PlanError (String × Dict String TableRef × List JoinRef) := do
  match s.source with
  | none => throw .noFrom
  | some base =>
    let (baseAlias, binding) ← resolveTable base vd
    let tables : Dict String TableRef := Dict.empty.set baseAlias (tableRef baseAlias binding)
    let (tables, joins) ← s.joins.foldlM (addJoin vd baseAlias) (tables, [])
    return (baseAlias, tables, joins)

/-- `logical_plan_from_sql` -/
def logicalPlan (q : Query) (vd : VirtualDataset) : Except PlanError LogicalPlan := do
  match extractSelect q with
  | none => throw .notSelect
  | some s =>
    let cteNames := extractCteNames s
    if cteNames ≠ [] then
      let tables ← resolvePhysicalTables q vd cteNames
      match tables.keys with
      | [] => throw .noTables
      | baseAlias :: _ => return ⟨q, baseAlias, tables, [], s.cond, s.rest, true⟩
    else
      let (baseAlias, tables, joins) ← resolveFromJoins s vd
      return ⟨q, baseAlias, tables, joins, s.cond, s.rest, false⟩

end Resolve

/-! ## Readings of a query -/

/-- `extract_required_columns`: the columns an alias must provide (`*` for all) -/
def requiredColumns (q : Query) (aliasName : String) : List String :=
  (if q.hasStar then ["*"] else []) ++
    (q.columns.filter fun c => c.name ≠ "" ∧ c.table ≠ "" ∧ c.table = aliasName).map ColumnRef.name

/-- `extract_required_columns`: some column has no qualifier -/
def hasUnqualified (q : Query) : Bool := q.columns.any fun c => c.name ≠ "" ∧ c.table = ""

/-- `split_conjunctive_predicates` -/
def splitConjunctive : Expr → List Expr
  | .node .and [l, r] => splitConjunctive l ++ splitConjunctive r
  | e => [e]

def predicateAliases (predicate : Expr) (aliases : List String) : List String :=
  ((predicate.columns.map ColumnRef.table).filter (· ∈ aliases)).dedup

end Langbridge.Federation
