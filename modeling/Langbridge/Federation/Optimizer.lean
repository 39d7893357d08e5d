/-
Splitting a logical plan into source stages and a local stage (`federation/planner/optimizer.py`): the test for
pushing the whole query to one source, and otherwise one scan for each table of the plan, with its projection and
the `WHERE` conjuncts that mention its alias alone, under a local stage that is the query over the scans.

`_transpile` is the identity: a whole query is only pushed to a source of the query's own dialect. The statistics and
the join order they give are explanation only and left out.
-/
import Langbridge.Federation.SqlRenderer

namespace Langbridge.Federation

open Core Federation.Sql PyText

/-- `SourceSubplan` -/
structure SourceSubplan where
  stageId : String
  sourceId : String
  aliasName : String
  tableKey : String
  sql : Query
  projectedColumns : List String
  pushedFilters : List Expr

/-- `OptimizedPlan` -/
structure OptimizedPlan where
  logicalPlan : LogicalPlan
  sourceSubplans : List SourceSubplan
  localStageSql : Query
  pushdownFullQuery : Bool

variable [PyText]

/-! ## The full-query test -/

/-- a value that is given and is not the declared one -/
def differs (v : Json) (declared : Option String) : Bool :=
  match v with
  | .null => false
  | .str s => declared ≠ some s
  | _ => true

def requiresScanLevelRewrite (b : VirtualTableBinding) : Bool :=
  (b.metadataGet "physical_sql" none).truthy || b.skipCatalog ||
    differs (b.metadataGet "physical_catalog" none) b.catalog ||
    differs (b.metadataGet "physical_schema" none) b.schemaName ||
    differs (b.metadataGet "physical_table" none) (some b.table)

/-- the normalised texts of the values whose text is not blank; an absent value is the text `None` -/
def nameSet (l : List Json) : List String :=
  (l.filter fun v => strip v.text ≠ "").map fun v => norm v.text

def logicalNames (b : VirtualTableBinding) : List String :=
  nameSet [.str b.tableKey, b.metadataGet "dataset_alias" none]

def physicalNames (b : VirtualTableBinding) : List String :=
  nameSet [.str b.table, b.metadataGet "physical_table" none]

def requiresLogicalNameRewrite (b : VirtualTableBinding) : Bool :=
  !(logicalNames b).isEmpty && !(physicalNames b).isEmpty && !(logicalNames b).all (· ∈ physicalNames b)

def normalizeDialect (value : Option String) : String :=
  let d := norm (value.getD "")
  if d = "" then "tsql" else d

/-! ## Filters -/

/-- `_CROSS_DIALECT_SIMPLE_PREDICATE_NODES` -/
def isSimpleNode : Node → Bool
  | .column _ | .literal _ | .paren => true
  | .op cls => cls ∈ ["EQ", "NEQ", "GT", "GTE", "LT", "LTE", "Is", "Not", "In", "Neg", "Or"]
  | _ => false

def canPushFilter (predicate : Expr) (inputDialect targetDialect : Option String) : Bool :=
  normalizeDialect targetDialect = normalizeDialect inputDialect || predicate.labels.all isSimpleNode

/-- the qualifiers `_rewrite_filter_for_scan` takes for the scanned table -/
def validTables (aliasName : String) (b : VirtualTableBinding) : List String :=
  [norm aliasName, norm b.tableKey, norm b.table, norm b.physicalTable.text]

/-- a declared and a physical name, normalised, unless blank -/
def validParts (declared : Option String) (physical : Json) : List String :=
  nameSet [(declared.map Json.str).getD .null, physical]

/-- `_rewrite_filter_for_scan` on one column -/
def rewriteColumnForScan (aliasName : String) (b : VirtualTableBinding) (c : ColumnRef) : ColumnRef :=
  let table := norm c.table
  let schema := norm c.db
  let catalog := norm c.catalog
  let schemas := validParts b.schemaName b.physicalSchema
  let catalogs := validParts b.catalog b.physicalCatalog
  let rebind := table ≠ "" && table ∈ validTables aliasName b &&
    !(schema ≠ "" && !schemas.isEmpty && schema ∉ schemas) &&
    !(catalog ≠ "" && !catalogs.isEmpty && catalog ∉ catalogs)
  { c with table := if rebind then aliasName else c.table, db := "", catalog := "" }

def rewriteFilterForScan (aliasName : String) (b : VirtualTableBinding) (e : Expr) : Expr :=
  e.mapColumns (rewriteColumnForScan aliasName b)

/-- parenthesise a connective that becomes an operand -/
def wrapConnector (e : Expr) : Expr :=
  match e.label with
  | .and => .node .paren [e]
  | .op "Or" => .node .paren [e]
  | _ => e

/-- `exp.and_(*conditions)` -/
def andAll : List Expr → Option Expr
  | [] => none
  | [e] => some e
  | e :: es => some (es.foldl (fun acc x => Expr.and acc (wrapConnector x)) (wrapConnector e))

/-! ## Scans -/

def buildScanSql (aliasName : String) (b : VirtualTableBinding) (projectedColumns : List String)
    (pushedFilters : List Expr) : Query :=
  let source : FromItem :=
    match b.relation with
    | .query sql => .raw sql aliasName
    | .table name schema catalog => .table ⟨name, schema, catalog, aliasName⟩
  let items : List Item :=
    if projectedColumns.isEmpty || "*" ∈ projectedColumns then [.star]
    else projectedColumns.map fun c => .expr (Expr.column ⟨c, aliasName, "", ""⟩) ""
  .node (.select
    { ctes := []
      items := items
      source := some source
      joins := []
      cond := andAll (pushedFilters.map (rewriteFilterForScan aliasName b))
      rest := [] }) []

/-- `sorted(required_columns[alias])`, or everything once some column has no qualifier -/
def projectedColumns (q : Query) (aliasName : String) : List String :=
  let required := (requiredColumns q aliasName).dedup.insertionSort (· ≤ ·)
  if hasUnqualified q && "*" ∉ required then ["*"] else required

def predicateMap (where_ : Option Expr) (aliases : List String) (aliasName : String) : List Expr :=
  (where_.toList.flatMap splitConjunctive).filter fun e => predicateAliases e aliases = [aliasName]

def scanStage (aliasName : String) : String := "scan_" ++ aliasName

def scanSubplan (plan : LogicalPlan) (q : Query) (sourceDialects : Dict String String) (inputDialect : String)
    (aliasName : String) (ref : TableRef) (b : VirtualTableBinding) : SourceSubplan :=
  let projected := projectedColumns q aliasName
  let target := (sourceDialects.get? ref.sourceId).getD inputDialect
  let pushable := (predicateMap plan.where_ plan.tables.keys aliasName).filter fun e =>
    canPushFilter e (some inputDialect) (some target)
  { stageId := scanStage aliasName
    sourceId := ref.sourceId
    aliasName := aliasName
    tableKey := ref.tableKey
    sql := buildScanSql aliasName b projected pushable
    projectedColumns := projected
    pushedFilters := pushable }

def boundTables (plan : LogicalPlan) (vd : VirtualDataset) : Option (List (String × TableRef × VirtualTableBinding)) :=
  plan.tables.entries.mapM fun e => (vd.tables.get? e.2.tableKey).map fun b => (e.1, e.2, b)

/-- the condition of `pushdown_full_query` -/
def pushdownFullQuery (plan : LogicalPlan) (bound : List (String × TableRef × VirtualTableBinding))
    (sourceDialects : Dict String String) (inputDialect : String) : Bool :=
  (bound.map fun e => e.2.1.sourceId).dedup.length = 1 && !plan.hasCte &&
    !(bound.any fun e => requiresScanLevelRewrite e.2.2) &&
    !(bound.any fun e => requiresLogicalNameRewrite e.2.2) &&
    !(bound.any fun e =>
      normalizeDialect (sourceDialects.get? e.2.1.sourceId) ≠ normalizeDialect (some inputDialect))

def fullQuerySubplan (plan : LogicalPlan) (q : Query) (ref : TableRef) : SourceSubplan where
  stageId := "scan_full_query"
  sourceId := ref.sourceId
  aliasName := plan.fromAlias
  tableKey := ref.tableKey
  sql := q
  projectedColumns := []
  pushedFilters := []

/-- `SELECT * FROM scan_full_query` -/
def fullQueryLocalStage : Query :=
  .node (.select
    { ctes := []
      items := [.star]
      source := some (.table ⟨"scan_full_query", "", "", ""⟩)
      joins := []
      cond := none
      rest := [] }) []

/-- the stage of every alias of the plan -/
def stageTableMap (plan : LogicalPlan) : Dict String String :=
  ⟨plan.tables.entries.map fun e => (e.1, scanStage e.1), by
    simpa [List.map_map, Function.comp_def] using plan.tables.nodup⟩

/-- `FederatedOptimizer.optimize`; `none` is a `KeyError` on a table key without a binding -/
def optimize (plan : LogicalPlan) (q : Query) (vd : VirtualDataset) (sourceDialects : Dict String String)
    (inputDialect : String) : Option OptimizedPlan := do
  let bound ← boundTables plan vd
  if pushdownFullQuery plan bound sourceDialects inputDialect then
    let ref ← plan.tables.get? plan.fromAlias
    return ⟨plan, [fullQuerySubplan plan q ref], fullQueryLocalStage, true⟩
  else
    return ⟨plan, bound.map fun e => scanSubplan plan q sourceDialects inputDialect e.1 e.2.1 e.2.2,
      rewriteTablesToStage q (stageTableMap plan), false⟩

end Langbridge.Federation
