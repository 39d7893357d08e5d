/-
Semantic models built from database metadata (`runtime/services/semantic_model_builder.py`): a dataset for each table of
a scope, with its columns as dimensions and measures, and relationships for the foreign keys between them.

Datasets are kept under keys that are made from the names, in which characters other than letters, digits and
underscores are lost. A foreign key is listed column by column, under its name, and each column becomes a relationship.
Descriptions, synonyms and primary keys are left out.
-/
import Langbridge.Runtime.VectorIndexNames
import Langbridge.Semantic.Model

namespace Langbridge.Semantic.ModelBuilder

open Core Langbridge.Runtime List

/-! ## The metadata of a scope -/

structure ColumnMetadata where
  name : String
  dataType : String

structure ForeignKeyMetadata where
  name : String
  column : String
  foreignKey : String
  schema : String
  table : String

/-- what is found in a database -/
structure SqlConnector where
  fetchSchemas : List String
  fetchTables : String → List String
  fetchColumns : String → String → List ColumnMetadata
  fetchForeignKeys : String → String → List ForeignKeyMetadata
  columns_nodup : ∀ schema table, ((fetchColumns schema table).map (·.name)).Nodup

/-- the scope of a request; what is not given is empty -/
structure Scope where
  schemas : List String
  tables : List (String × String)
  columns : List (String × String × String)

structure ScopedTableMetadata where
  schema : String
  tableName : String
  columns : List ColumnMetadata
  foreignKeys : List ForeignKeyMetadata

variable (c : SqlConnector) (scope : Scope)

/-- the tables of `_collect_scope_metadata`, in their order -/
def scopedTables : List (String × String) :=
  let schemas := if scope.schemas = [] then c.fetchSchemas else scope.schemas
  if scope.tables = [] then schemas.flatMap fun schema => (c.fetchTables schema).map fun table => (schema, table)
  else
    let requested := (scope.tables.map Prod.fst).dedup
    let kept := schemas.filter (· ∈ requested)
    let sorted := requested.mergeSort fun a b => decide (a ≤ b)
    (if kept = [] then sorted else kept).flatMap fun schema => scope.tables.filter (·.1 = schema)

def scopedColumns (t : String × String) : List ColumnMetadata :=
  let allowed := (scope.columns.filter fun e => (e.1, e.2.1) = t).map (·.2.2)
  let columns := c.fetchColumns t.1 t.2
  if allowed = [] then columns else columns.filter (·.name ∈ allowed)

def scopedTable (t : String × String) : ScopedTableMetadata :=
  ⟨t.1, t.2, scopedColumns c scope t, c.fetchForeignKeys t.1 t.2⟩

def collectScopeMetadata : List ScopedTableMetadata := (scopedTables c scope).map (scopedTable c scope)

/-! ## The model -/

section Building

variable [PyText]

def mentions (text : String) (tokens : List String) : Bool :=
  tokens.any fun token => decide (token.toList <:+: text.toList)

/-- what equals a token has it in it -/
def mapColumnType (dataType : String) : String :=
  let normalized := PyText.lower dataType
  if mentions normalized ["number", "decimal", "numeric", "int", "integer", "float", "double", "real"] then
    if mentions normalized ["int"] && !mentions normalized ["point"] then "integer"
    else if mentions normalized ["double", "float"] then "float"
    else "decimal"
  else if mentions normalized ["boolean", "bool"] then "boolean"
  else if mentions normalized ["date", "datetime", "timestamp", "time"] then "date"
  else "string"

def isMeasure (column : ColumnMetadata) : Bool :=
  decide (mapColumnType column.dataType ∈ ["integer", "decimal", "float"]) &&
    !mentions (PyText.lower column.name) ["_id"]

def measureOf (column : ColumnMetadata) : Measure :=
  ⟨column.name, some column.name, mapColumnType column.dataType, some "sum"⟩

def dimensionOf (column : ColumnMetadata) : Dimension :=
  ⟨column.name, some column.name, mapColumnType column.dataType, none⟩

/-- `xs or None` -/
def given {α : Type} (xs : List α) : Option (List α) := if xs.isEmpty then none else some xs

def semanticTable (s : ScopedTableMetadata) : Dataset where
  relationName := some s.tableName
  schemaName := some s.schema
  catalogName := none
  dimensions := given ((s.columns.filter fun column => !isMeasure column).map dimensionOf)
  measures := given ((s.columns.filter isMeasure).map measureOf)
  filters := none

variable (connectorName : String)

/-- `_make_table_key`; the text that is lowered is ASCII -/
def makeTableKey (t : String × String) : String :=
  String.ofList ((VectorIndex.subUnsafe false (connectorName ++ "_" ++ t.1 ++ "_" ++ t.2).toList).map Char.toLower)

def buildSemanticTables (metadata : List ScopedTableMetadata) : Dict String Dataset :=
  Dict.ofList (metadata.map fun s => (makeTableKey connectorName (s.schema, s.tableName), semanticTable s))

def relationshipOf (source target : String) (k : ForeignKeyMetadata) : Relationship where
  name := source ++ "_to_" ++ target ++ "_" ++ k.column
  sourceDataset := source
  sourceField := k.column
  targetDataset := target
  targetField := k.foreignKey
  type := .manyToOne

def inferRelationships (tables : Dict String Dataset) (metadata : List ScopedTableMetadata) : List Relationship :=
  metadata.flatMap fun s =>
    let source := makeTableKey connectorName (s.schema, s.tableName)
    if source ∈ tables.keys then
      s.foreignKeys.filterMap fun k =>
        let target := makeTableKey connectorName (k.schema, k.table)
        if target ∈ tables.keys then some (relationshipOf source target k) else none
    else []

def buildForScope : SemanticModel :=
  let metadata := collectScopeMetadata c scope
  let tables := buildSemanticTables connectorName metadata
  ⟨tables, given (inferRelationships connectorName tables metadata), none⟩

/-! ## What the model is to have -/

/-- the dataset under a key is that of a table -/
def IsOf (m : SemanticModel) (key : String) (t : String × String) : Prop :=
  ∃ d, m.datasets.get? key = some d ∧ d.schemaName = some t.1 ∧ d.relationName = some t.2

/-- the columns of a dataset, with those that occur more than once -/
def fieldNames (d : Dataset) : List String :=
  (d.dimensions.getD []).map (·.name) ++ (d.measures.getD []).map (·.name)

/-- the pairs of columns of the foreign key that a column belongs to -/
def columnPairs (t : String × String) (k : ForeignKeyMetadata) : List (String × String) :=
  ((c.fetchForeignKeys t.1 t.2).filter (·.name = k.name)).map fun k => (k.column, k.foreignKey)

/-- The model has one dataset for each table and no others, each column of a table once, and relationships that each
join the datasets of a foreign key on its columns. -/
structure BuildsRight (m : SemanticModel) : Prop where
  one : ∀ t ∈ scopedTables c scope, ∃! key, IsOf m key t
  only : ∀ key ∈ m.datasets.keys, ∃ t ∈ scopedTables c scope, IsOf m key t
  columns : ∀ key t d, IsOf m key t → m.datasets.get? key = some d →
    (∀ column ∈ scopedColumns c scope t, (fieldNames d).count column.name = 1) ∧
      ∀ name ∈ fieldNames d, ∃ column ∈ scopedColumns c scope t, column.name = name
  relationships : ∀ r ∈ m.relationships.getD [], ∃ t ∈ scopedTables c scope, ∃ k ∈ c.fetchForeignKeys t.1 t.2,
    IsOf m r.sourceDataset t ∧ IsOf m r.targetDataset (k.schema, k.table) ∧
      columnPairs c t k = [(r.sourceField, r.targetField)]

/-- Different tables have different keys, and each column of a foreign key that leads to the key of a table is the one
column of a foreign key that leads to a table with that key. -/
structure Keyed : Prop where
  apart : ∀ t ∈ scopedTables c scope, ∀ t' ∈ scopedTables c scope,
    makeTableKey connectorName t = makeTableKey connectorName t' → t = t'
  single : ∀ t ∈ scopedTables c scope, ∀ k ∈ c.fetchForeignKeys t.1 t.2,
    makeTableKey connectorName (k.schema, k.table) ∈ (scopedTables c scope).map (makeTableKey connectorName) →
      ∃ k' ∈ c.fetchForeignKeys t.1 t.2, (k'.schema, k'.table) ∈ scopedTables c scope ∧
        makeTableKey connectorName (k'.schema, k'.table) = makeTableKey connectorName (k.schema, k.table) ∧
        columnPairs c t k' = [(k.column, k.foreignKey)]

variable {c scope connectorName} {t : String × String} {key : String} {d : Dataset}

omit [PyText] in
@[simp] theorem getD_given {α : Type} (xs : List α) : (given xs).getD [] = xs := by
  cases xs <;> rfl

theorem get?_datasets (h : (buildForScope c scope connectorName).datasets.get? key = some d) :
    ∃ t ∈ scopedTables c scope, makeTableKey connectorName t = key ∧ d = semanticTable (scopedTable c scope t) := by
  rw [buildForScope, buildSemanticTables, collectScopeMetadata, List.map_map, Dict.get?_ofList,
    Option.map_eq_some_iff] at h
  obtain ⟨e, hlast, rfl⟩ := h
  obtain ⟨hmem, hkey⟩ := mem_filter.1 (mem_of_getLast? hlast)
  obtain ⟨t, ht, rfl⟩ := mem_map.1 hmem
  exact ⟨t, ht, of_decide_eq_true hkey, rfl⟩

theorem mem_keys : key ∈ (buildForScope c scope connectorName).datasets.keys ↔
    ∃ t ∈ scopedTables c scope, makeTableKey connectorName t = key := by
  rw [buildForScope, buildSemanticTables, collectScopeMetadata, List.map_map, Dict.mem_keys_ofList]
  simp [scopedTable]

theorem isOf_iff : IsOf (buildForScope c scope connectorName) key t ↔ t ∈ scopedTables c scope ∧
    makeTableKey connectorName t = key ∧
    (buildForScope c scope connectorName).datasets.get? key = some (semanticTable (scopedTable c scope t)) := by
  constructor
  · rintro ⟨d, hd, hschema, hname⟩
    obtain ⟨t', ht', hkey, rfl⟩ := get?_datasets hd
    obtain rfl : t' = t := Prod.ext (Option.some.inj hschema) (Option.some.inj hname)
    exact ⟨ht', hkey, hd⟩
  · exact fun ⟨_, _, hd⟩ => ⟨_, hd, rfl, rfl⟩

theorem semanticTable_inj {t' : String × String}
    (h : some (semanticTable (scopedTable c scope t)) = some (semanticTable (scopedTable c scope t'))) : t = t' := by
  have hd := Option.some.inj h
  exact Prod.ext (Option.some.inj (congrArg Dataset.schemaName hd)) (Option.some.inj (congrArg Dataset.relationName hd))

/-- where keys are apart, each table has its dataset -/
theorem isOf_key (h : ∀ t ∈ scopedTables c scope, ∀ t' ∈ scopedTables c scope,
    makeTableKey connectorName t = makeTableKey connectorName t' → t = t') (ht : t ∈ scopedTables c scope) :
    IsOf (buildForScope c scope connectorName) (makeTableKey connectorName t) t := by
  obtain ⟨d, hd⟩ := (Dict.mem_keys_iff _ _).1 (mem_keys.2 ⟨t, ht, rfl⟩)
  obtain ⟨t', ht', hkey, rfl⟩ := get?_datasets hd
  obtain rfl := h t' ht' t ht hkey
  exact isOf_iff.2 ⟨ht, rfl, hd⟩

theorem fieldNames_perm (s : ScopedTableMetadata) : (fieldNames (semanticTable s)).Perm (s.columns.map (·.name)) := by
  have hperm := (filter_append_perm (fun column => !isMeasure column) s.columns).map (·.name)
  simpa [fieldNames, semanticTable, dimensionOf, measureOf, Function.comp_def] using hperm

omit [PyText] in
theorem scopedColumns_nodup (t : String × String) : ((scopedColumns c scope t).map (·.name)).Nodup := by
  rw [scopedColumns]
  split_ifs
  · exact c.columns_nodup t.1 t.2
  · exact (c.columns_nodup t.1 t.2).sublist (filter_sublist.map _)

theorem mem_relationships {r : Relationship} :
    r ∈ (buildForScope c scope connectorName).relationships.getD [] ↔
      ∃ t ∈ scopedTables c scope, ∃ k ∈ c.fetchForeignKeys t.1 t.2,
        makeTableKey connectorName (k.schema, k.table) ∈ (scopedTables c scope).map (makeTableKey connectorName) ∧
        r = relationshipOf (makeTableKey connectorName t) (makeTableKey connectorName (k.schema, k.table)) k := by
  have hkeys : ∀ key, key ∈ (buildSemanticTables connectorName (collectScopeMetadata c scope)).keys ↔
      key ∈ (scopedTables c scope).map (makeTableKey connectorName) := fun key => mem_keys.trans mem_map.symm
  rw [buildForScope, getD_given, inferRelationships, collectScopeMetadata, flatMap_map, mem_flatMap]
  refine exists_congr fun t => and_congr_right fun ht => ?_
  rw [← collectScopeMetadata]
  simp only [scopedTable, Prod.mk.eta, hkeys, mem_map_of_mem ht, if_true, mem_filterMap,
    Option.ite_none_right_eq_some, Option.some.injEq]
  exact exists_congr fun k => and_congr_right fun _ => and_congr_right fun _ => eq_comm

/-- **Models from metadata.** -/
theorem builds_iff (c : SqlConnector) (scope : Scope) (connectorName : String) :
    BuildsRight c scope (buildForScope c scope connectorName) ↔ Keyed c scope connectorName := by
  constructor
  · intro h
    have hkey : ∀ t ∈ scopedTables c scope,
        (buildForScope c scope connectorName).datasets.get? (makeTableKey connectorName t) =
          some (semanticTable (scopedTable c scope t)) := by
      intro t ht
      obtain ⟨key, hkey, -⟩ := h.one t ht
      obtain ⟨-, rfl, hd⟩ := isOf_iff.1 hkey
      exact hd
    refine ⟨fun t ht t' ht' heq => ?_, fun t ht k hk hmem => ?_⟩
    · exact semanticTable_inj ((hkey t ht).symm.trans (heq ▸ hkey t' ht'))
    · obtain ⟨t', ht', k', hk', hsource, htarget, hpairs⟩ :=
        h.relationships _ (mem_relationships.2 ⟨t, ht, k, hk, hmem, rfl⟩)
      obtain rfl : t' = t := semanticTable_inj ((isOf_iff.1 hsource).2.2.symm.trans (hkey t ht))
      obtain ⟨htable, htargetKey, -⟩ := isOf_iff.1 htarget
      exact ⟨k', hk', htable, htargetKey, hpairs⟩
  · intro h
    refine ⟨fun t ht => ?_, fun key hkey => ?_, ?_, ?_⟩
    · exact ⟨_, isOf_key h.apart ht, fun key hkey => (isOf_iff.1 hkey).2.1.symm⟩
    · obtain ⟨t, ht, rfl⟩ := mem_keys.1 hkey
      exact ⟨t, ht, isOf_key h.apart ht⟩
    · intro key t d hof hd
      rw [(isOf_iff.1 hof).2.2, Option.some.injEq] at hd
      subst hd
      have hperm := fieldNames_perm (scopedTable c scope t)
      refine ⟨fun column hcolumn => ?_, fun name hname => ?_⟩
      · rw [hperm.count_eq]
        exact count_eq_one_of_mem (scopedColumns_nodup t) (mem_map_of_mem hcolumn)
      · exact mem_map.1 (hperm.mem_iff.1 hname)
    · intro r hr
      obtain ⟨t, ht, k, hk, hmem, rfl⟩ := mem_relationships.1 hr
      obtain ⟨k', hk', htable, hkey, hpairs⟩ := h.single t ht k hk hmem
      exact ⟨t, ht, k', hk', isOf_key h.apart ht, hkey ▸ isOf_key h.apart htable, hpairs⟩

end Building

/-! ## Two columns -/

section TwoColumns

open scoped Ascii

/-- the lines of orders, which are told apart by a region and a number -/
def orders : SqlConnector where
  fetchSchemas := ["sales"]
  fetchTables _ := ["orders", "lines"]
  fetchColumns _ _ := [⟨"region", "text"⟩, ⟨"number", "integer"⟩]
  fetchForeignKeys _ table :=
    if table = "lines" then ["region", "number"].map fun column => ⟨"lines_order", column, column, "sales", "orders"⟩
    else []
  columns_nodup _ _ := by decide

theorem two_columns : ¬BuildsRight orders ⟨[], [], []⟩ (buildForScope orders ⟨[], [], []⟩ "shop") := by
  intro h
  obtain ⟨t, ht, k, hk, -, -, hpairs⟩ := h.relationships
    (relationshipOf "shop_sales_lines" "shop_sales_orders" ⟨"lines_order", "region", "region", "sales", "orders"⟩)
    (by decide +kernel)
  simp only [columnPairs, orders] at hk hpairs
  split_ifs at hk hpairs
  · obtain ⟨column, -, rfl⟩ := mem_map.1 hk
    simp at hpairs
  · cases hk

end TwoColumns

end Langbridge.Semantic.ModelBuilder
