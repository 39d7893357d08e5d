/-
Measures in canonical SQL (`orchestrator/tools/sql_analyst/tool.py`): a column reference whose qualifier is, as it is
written, the key of a table with a measure of its name is replaced by the measure's expression. Aliases of the query are
not resolved, and the expression gets no parentheses. sqlglot's tokenizer is a parameter.
-/
import Langbridge.Core.Dict
import Langbridge.Orchestrator.CanonicalSql

namespace Langbridge.Orchestrator.MeasureReferences

open Core Phrases CanonicalSql Option

/-- a measure; an absent expression is empty -/
structure Measure where
  name : String
  expression : String

structure SemanticTable where
  key : String
  measures : List Measure

section Pass

variable [PyText] (lex : String → SqlText)

open PyText

/-- `str(measure.expression or measure.name).strip()` -/
def Measure.sql (m : Measure) : String := strip (if m.expression = "" then m.name else m.expression)

def measureMap (tables : List SemanticTable) : Dict (String × String) String :=
  Dict.ofList (tables.flatMap fun table =>
    (table.measures.filter fun m => m.sql ≠ "").map fun m => ((norm table.key, norm m.name), m.sql))

/-- `_qualify` of a column; `none` is a `ParseError` -/
def qualify (tableName : String) (node : Column) : Option Sql :=
  if node.table = "" then read (lex (tableName ++ "." ++ node.name)) else some (.leaf node)

/-- `_build_measure_expression` of an expression that is read -/
def buildMeasureExpression (tableName : String) (expression : Sql) : Option Sql :=
  bindLeaves (qualify lex tableName) expression

def transformColumn (measures : Dict (String × String) String) (node : Column) : Option Sql :=
  let tableName := norm node.table
  let columnName := norm node.name
  if tableName = "" ∨ columnName = "" then some (.leaf node)
  else
    match measures.get? (tableName, columnName) with
    | none => some (.leaf node)
    | some expressionSql =>
      if lower expressionSql = columnName then some (.leaf node)
      else
        match read (lex expressionSql) with
        | none => some (.leaf node)
        | some expression => buildMeasureExpression lex tableName expression

/-- `expression.transform(_transform)` -/
def expandTree (measures : Dict (String × String) String) (expression : Sql) : Option Sql :=
  bindLeaves (transformColumn lex measures) expression

/-- `_expand_semantic_measure_references`; `none` is a `ParseError` -/
def expandSemanticMeasureReferences (semanticModel : Option (List SemanticTable)) (sql : SqlText) : Option SqlText :=
  match semanticModel with
  | none => some sql
  | some tables =>
    match read sql with
    | none => some sql
    | some expression =>
      if (measureMap tables).entries = [] then some sql
      else (expandTree lex (measureMap tables) expression).map print

/-! ## What references denote -/

/-- what is known at a place of a query is its scope -/
def scopes : Inherit Scope Column Construct PrefixOperator Operator where
  part scope label parts i := partScope (fun _ _ => false) scope label parts i
  operand scope _ := scope
  inside scope _ := scope

abbrev Reference := Phrases.Place Scope Column Operator

/-- the column references of a query -/
def references (t : Sql) : List Reference := places scopes ⟨[], []⟩ 0 none t

/-- a query with other phrases for its column references -/
def substitute (f : Reference → Sql) (t : Sql) : Sql := mapLeaves scopes f ⟨[], []⟩ 0 none t

def denotedTable (p : Reference) : Option String :=
  if norm p.leaf.table = "" ∨ norm p.leaf.name = "" then none
  else (p.attr.source p.leaf.table).bind fun s => s.table

variable (tables : List SemanticTable)

/-- the expression of the measure that a reference denotes; one that is its own name stands for itself -/
def denotedExpression (p : Reference) : Option String :=
  ((denotedTable p).bind fun table => (measureMap tables).get? (table, norm p.leaf.name)).filter
    fun sql => lower sql ≠ norm p.leaf.name

/-- a column of an expression, which belongs to the measure's table unless it says otherwise -/
def qualified (tableName : String) (node : Column) : Column :=
  if node.table = "" then ⟨tableName, node.name⟩ else node

/-- what a reference means: itself, or the expression of the measure that it denotes -/
def meaning (p : Reference) : Option Sql :=
  match denotedExpression tables p with
  | none => some (.leaf p.leaf)
  | some sql => (read (lex sql)).map (rename (qualified (norm p.leaf.table)))

/-- every reference is replaced by what it means, and the text of this query is read as the query -/
def Meant (semanticModel : Option (List SemanticTable)) (sql : SqlText) : Prop :=
  let tables := semanticModel.getD []
  ∀ t, read sql = some t → ∃ out f, expandSemanticMeasureReferences lex semanticModel sql = some out ∧
    expandTree lex (measureMap tables) t = some (substitute f t) ∧
    (∀ p ∈ references t, meaning lex tables p = some (f p)) ∧ read out = some (substitute f t)

def writtenExpression (p : Reference) : Option String :=
  (if norm p.leaf.table = "" ∨ norm p.leaf.name = "" then none
    else (measureMap tables).get? (norm p.leaf.table, norm p.leaf.name)).filter fun sql => lower sql ≠ norm p.leaf.name

/-- what the measure under the qualifier as it is written is replaced by -/
def expansion (p : Reference) : Option Sql :=
  match (writtenExpression tables p).bind fun sql => read (lex sql) with
  | none => some (.leaf p.leaf)
  | some body => buildMeasureExpression lex (norm p.leaf.table) body

theorem transformColumn_eq (p : Reference) :
    transformColumn lex (measureMap tables) p.leaf = expansion lex tables p := by
  simp only [transformColumn, expansion, writtenExpression]
  split_ifs with hblank
  · rfl
  · cases hmeasure : (measureMap tables).get? (norm p.leaf.table, norm p.leaf.name) with
    | none => rfl
    | some sql =>
      by_cases hname : lower sql = norm p.leaf.name
      · simp [Option.filter, hname]
      · simp only [Option.filter, ne_eq, hname, not_false_eq_true, decide_true, if_true, bind_some]
        rfl

/-- the measure under the written qualifier is replaced by what the reference means, and no operator of the query takes
a part of it, nor it a part of the query -/
def Sound (p : Reference) : Prop :=
  ∃ e, expansion lex tables p = some e ∧ meaning lex tables p = some e ∧ Settled p.least p.next e

variable {tables}

/-- without measures nothing is replaced -/
theorem expandTree_of_empty {measures : Dict (String × String) String} (h : measures.entries = []) (t : Sql) :
    expandTree lex measures t = some t := by
  have hleaf : ∀ c, transformColumn lex measures c = some (.leaf c) := by
    simp [transformColumn, Dict.get?, h]
  unfold expandTree
  induction t using Phrase.induction with
  | leaf c => exact hleaf c
  | closed label parts ih =>
    have hparts : ∀ ps : List Sql, (∀ p ∈ ps, p ∈ parts) → bindParts (transformColumn lex measures) ps = some ps := by
      intro ps hps
      induction ps with
      | nil => rfl
      | cons p ps ihps =>
        rcases List.forall_mem_cons.1 hps with ⟨hp, hps⟩
        rw [bindParts, ih p hp, ihps hps]
        rfl
    rw [bindLeaves, hparts parts fun p hp => hp]
    rfl
  | pre u e ih =>
    rw [bindLeaves, ih]
    rfl
  | bin b l r ihl ihr =>
    rw [bindLeaves, ihl, ihr]
    rfl

/-- the text of the pass is that of the expanded query -/
theorem read_expand {semanticModel : Option (List SemanticTable)} {sql : SqlText} {t t' : Sql}
    (hread : read sql = some t)
    (htree : expandTree lex (measureMap (semanticModel.getD [])) t = some t') (hgrouped : Grouped t') :
    ∃ out, expandSemanticMeasureReferences lex semanticModel sql = some out ∧ read out = some t' := by
  cases semanticModel with
  | none =>
    rw [expandTree_of_empty lex rfl, Option.some.injEq] at htree
    exact ⟨sql, rfl, htree ▸ hread⟩
  | some tables =>
    change expandTree lex (measureMap tables) t = some t' at htree
    by_cases hempty : (measureMap tables).entries = []
    · rw [expandTree_of_empty lex hempty, Option.some.injEq] at htree
      refine ⟨sql, ?_, htree ▸ hread⟩
      simp only [expandSemanticMeasureReferences, hread, if_pos hempty]
    · refine ⟨print t', ?_, read_print hgrouped⟩
      simp only [expandSemanticMeasureReferences, hread, if_neg hempty]
      exact congrArg (Option.map print) htree

/-- in a query that means what it should, every reference is replaced soundly -/
theorem sound_of_meant {semanticModel : Option (List SemanticTable)} {sql : SqlText} (h : Meant lex semanticModel sql)
    {t : Sql} (hread : read sql = some t) : ∀ p ∈ references t, Sound lex (semanticModel.getD []) p := by
  obtain ⟨out, f, -, htree, hmeaning, hout⟩ := h t hread
  rcases (bindLeaves_eq_some_iff scopes _ ⟨[], []⟩ 0 none t _).1 htree with ⟨hfound, hsame⟩
  have hf := (mapLeaves_eq_iff scopes f _ ⟨[], []⟩ 0 none t).1 hsame
  have ht : Settled 0 none t := ⟨grouped_of_read hread, atLeast_zero t, fun _ hb => nomatch hb⟩
  have hsettled : Settled 0 none (substitute f t) := ⟨grouped_of_read hout, atLeast_zero _, fun _ hb => nomatch hb⟩
  intro p hp
  obtain ⟨e, he⟩ := isSome_iff_exists.1 (hfound p hp)
  have hfe : f p = e := by rw [hf p hp, found, he, getD_some]
  refine ⟨e, (transformColumn_eq lex _ p).symm.trans he, hfe ▸ hmeaning p hp, ?_⟩
  exact hfe ▸ (settled_mapLeaves scopes f ⟨[], []⟩ ht).1 hsettled p hp

end Pass

/-! ## A difference in a product -/

section Regrouped

open scoped Ascii

/-- the tokens of the texts of this example -/
def lexRevenue (text : String) : SqlText :=
  if text = "price - cost" then [.leaf ⟨"", "price"⟩, .bin .sub, .leaf ⟨"", "cost"⟩]
  else if text = "orders.price" then [.leaf ⟨"orders", "price"⟩]
  else if text = "orders.cost" then [.leaf ⟨"orders", "cost"⟩]
  else []

def revenue : List SemanticTable := [⟨"orders", [⟨"revenue", "price - cost"⟩]⟩]

/-- `SELECT e FROM orders` -/
def fromOrders (e : Sql) : Sql :=
  .closed .select [.closed .projections [e], .closed .fromClause [.closed (.table "orders" "") []]]

def two : Sql := .closed (.literal "2") []

end Regrouped

end Langbridge.Orchestrator.MeasureReferences
