/-
The columns of the local stage and those of the scans (`federation/planner/parser.py`, `sql_renderer.py`). What a scan
projects is collected from the columns whose qualifier is its alias, letter for letter; the local stage resolves a
qualifier by alias, table name or qualified name, in any letter case.
-/
import Langbridge.Federation.FilterPushdown

namespace Langbridge.Federation

open Core Federation.Sql List

/-! ## Columns of a rewritten query -/

section Columns

variable (fc : ColumnRef → ColumnRef) (ft : TableNode → TableNode)

theorem Expr.columns_mapColumns (e : Expr) : (e.mapColumns fc).columns = e.columns.map fc := by
  rw [Expr.columns, Expr.columns, Expr.mapColumns, Rose.labels_map, filterMap_map, map_filterMap]
  refine filterMap_congr fun n _ => ?_
  cases n <;> rfl

theorem Item.columns_mapRefs (i : Item) : (i.mapRefs fc).columns = i.columns.map fc := by
  cases i with
  | star => rfl
  | tableStar r => rfl
  | expr e a => exact Expr.columns_mapColumns fc e

theorem columns_mapRest (rest : List (String × List Expr)) :
    ((mapRest fc rest).flatMap Prod.snd).flatMap Expr.columns =
      ((rest.flatMap Prod.snd).flatMap Expr.columns).map fc := by
  induction rest with
  | nil => rfl
  | cons clause rest ih =>
    rw [mapRest, map_cons, flatMap_cons, flatMap_append, flatMap_cons, flatMap_append,
      map_append, ← ih, flatMap_map, map_flatMap]
    simp only [Expr.columns_mapColumns, mapRest]

theorem Select.columns_mapRefs (s : Select) : (s.mapRefs fc ft).columns = s.columns.map fc := by
  have hitems : (s.items.map (Item.mapRefs fc)).flatMap Item.columns = (s.items.flatMap Item.columns).map fc := by
    rw [flatMap_map, map_flatMap]
    simp only [Item.columns_mapRefs]
  have hexprs : ∀ l : List Expr, (l.map (Expr.mapColumns fc)).flatMap Expr.columns =
      (l.flatMap Expr.columns).map fc := by
    intro l
    rw [flatMap_map, map_flatMap]
    simp only [Expr.columns_mapColumns]
  have hons : (s.joins.map (Join.mapRefs fc ft)).filterMap Join.on =
      (s.joins.filterMap Join.on).map (Expr.mapColumns fc) := by
    rw [filterMap_map, map_filterMap]
    rfl
  have hcond : (s.cond.map (Expr.mapColumns fc)).toList = s.cond.toList.map (Expr.mapColumns fc) := by
    cases s.cond <;> rfl
  rw [Select.columns, Select.columns, Select.clauseExprs, Select.clauseExprs, Select.mapRefs]
  simp only [hitems, hons, hcond, flatMap_append, map_append, hexprs, columns_mapRest]

theorem Body.columns_mapRefs (b : Body) : (b.mapRefs fc ft).columns = b.columns.map fc := by
  cases b with
  | select s => exact Select.columns_mapRefs fc ft s
  | setOp op ctes rest => exact columns_mapRest fc rest
  | wrap => rfl

/-- rewriting rewrites each column -/
theorem Query.columns_mapRefs (q : Query) : (q.mapRefs fc ft).columns = q.columns.map fc := by
  rw [Query.columns, Query.columns, Query.mapRefs, Rose.labels_map, flatMap_map, map_flatMap]
  simp only [Body.columns_mapRefs]

end Columns

section Plan

variable [PyText]

/-! ## What the scans project -/

/-- the select list of a scan has a star or the column, in any letter case -/
def Projects (scan : Query) (name : String) : Prop :=
  ∃ s, asSelect scan = some s ∧ ∃ i ∈ s.items, i = .star ∨
    ∃ c a, i = .expr (Expr.column c) a ∧ sameName c.name name = true

/-- the alias that the qualifier of a column in the local stage stands for: the one that is spelled so, or else one that
differs in letter case only -/
def ResolvesTo (plan : LogicalPlan) (c : ColumnRef) (a : String) : Prop :=
  a ∈ plan.tables.keys ∧ (c.table = a ∨ (c.table ∉ plan.tables.keys ∧ sameName c.table a = true))

instance (plan : LogicalPlan) (c : ColumnRef) (a : String) : Decidable (ResolvesTo plan c a) :=
  inferInstanceAs (Decidable (_ ∧ (_ ∨ (_ ∧ _))))

/-- each column that the local stage resolves to an alias is projected by the scan of the alias -/
def ScansProject (op : OptimizedPlan) : Prop :=
  ∀ c ∈ op.localStageSql.columns, ∀ a, ResolvesTo op.logicalPlan c a →
    ∀ scan ∈ op.sourceSubplans, scan.aliasName = a → Projects scan.sql c.name

def rewrittenTo (plan : LogicalPlan) (q : Query) (c : ColumnRef) : ColumnRef :=
  rewriteColumnForStage (stageTableMap plan) (aliasLookup q) c

/-- a column of the alias as it is spelled is a star or has the name, or there is none -/
def Spelled (q : Query) (a name : String) : Prop :=
  (∃ c ∈ q.columns, c.name ≠ "" ∧ c.table ≠ "" ∧ c.table = a ∧ (c.name = "*" ∨ sameName c.name name = true)) ∨
    ∀ c ∈ q.columns, c.table ≠ "" → c.table = a → c.name = ""

instance (q : Query) (a name : String) : Decidable (Spelled q a name) := inferInstanceAs (Decidable (_ ∨ _))

omit [PyText] in
theorem mem_requiredColumns {q : Query} (h : ¬ keepsAll q) (a name : String) :
    name ∈ requiredColumns q a ↔ ∃ c ∈ q.columns, (c.name ≠ "" ∧ c.table ≠ "" ∧ c.table = a) ∧ c.name = name := by
  have hstar : q.hasStar = false := by
    rw [← Bool.not_eq_true]
    exact fun hstar => h (.inl hstar)
  rw [requiredColumns, hstar]
  simp [and_assoc]

/-- **A scan** projects a column exactly if the query has a star or an unqualified column, or spells the alias with the
column, or with none. -/
theorem projects_scan_iff (q : Query) (a name : String) (b : VirtualTableBinding) (filters : List Expr) :
    Projects (buildScanSql a b (projectedColumns q a) filters) name ↔ keepsAll q ∨ Spelled q a name := by
  have hitems : Projects (buildScanSql a b (projectedColumns q a) filters) name ↔
      projectedColumns q a = [] ∨ "*" ∈ projectedColumns q a ∨ ∃ p ∈ projectedColumns q a, sameName p name = true := by
    generalize projectedColumns q a = projected
    by_cases hstar : projected.isEmpty || "*" ∈ projected
    · refine iff_of_true ⟨_, rfl, .star, ?_, .inl rfl⟩ ?_
      · rw [if_pos hstar]
        exact mem_singleton_self _
      · rw [Bool.or_eq_true, List.isEmpty_iff, decide_eq_true_eq] at hstar
        exact hstar.imp_right .inl
    · have hnone : projected ≠ [] ∧ "*" ∉ projected := by simpa [not_or] using hstar
      constructor
      · rintro ⟨s, hs, i, hi, hproj⟩
        cases hs
        rw [if_neg hstar] at hi
        obtain ⟨p, hp, rfl⟩ := mem_map.1 hi
        rcases hproj with hproj | ⟨c, asName, hproj, hsame⟩
        · cases hproj
        · obtain ⟨hc, -⟩ := Item.expr.inj hproj
          obtain rfl : ColumnRef.mk p a "" "" = c := Node.column.inj (Rose.node.inj hc).1
          exact .inr (.inr ⟨p, hp, hsame⟩)
      · rintro (hempty | hmem | ⟨p, hp, hsame⟩)
        · exact absurd hempty hnone.1
        · exact absurd hmem hnone.2
        · refine ⟨_, rfl, _, ?_, .inr ⟨⟨p, a, "", ""⟩, "", rfl, hsame⟩⟩
          rw [if_neg hstar]
          exact mem_map_of_mem hp
  rw [hitems]
  by_cases hall : keepsAll q
  · exact iff_of_true (.inr (.inl (star_mem_projectedColumns a hall))) (.inl hall)
  · have hmem : ∀ p, p ∈ projectedColumns q a ↔
        ∃ c ∈ q.columns, (c.name ≠ "" ∧ c.table ≠ "" ∧ c.table = a) ∧ c.name = p :=
      fun p => (mem_projectedColumns a p hall).trans (mem_requiredColumns hall a p)
    have hempty : projectedColumns q a = [] ↔ ∀ c ∈ q.columns, c.table ≠ "" → c.table = a → c.name = "" := by
      rw [eq_nil_iff_forall_not_mem]
      constructor
      · intro h c hc hne ha
        by_contra hname
        exact h c.name ((hmem c.name).2 ⟨c, hc, ⟨hname, hne, ha⟩, rfl⟩)
      · rintro h p hp
        obtain ⟨c, hc, ⟨hname, hne, ha⟩, -⟩ := (hmem p).1 hp
        exact hname (h c hc hne ha)
    rw [hempty]
    constructor
    · rintro (h | h | ⟨p, hp, hsame⟩)
      · exact .inr (.inr h)
      · obtain ⟨c, hc, ⟨hname, hne, ha⟩, hstar⟩ := (hmem "*").1 h
        exact .inr (.inl ⟨c, hc, hname, hne, ha, .inl hstar⟩)
      · obtain ⟨c, hc, ⟨hname, hne, ha⟩, rfl⟩ := (hmem p).1 hp
        exact .inr (.inl ⟨c, hc, hname, hne, ha, .inr hsame⟩)
    · rintro (h | ⟨c, hc, hname, hne, ha, hstar | hsame⟩ | h)
      · exact absurd h hall
      · exact .inr (.inl ((hmem "*").2 ⟨c, hc, ⟨hname, hne, ha⟩, hstar⟩))
      · exact .inr (.inr ⟨c.name, (hmem c.name).2 ⟨c, hc, ⟨hname, hne, ha⟩, rfl⟩, hsame⟩)
      · exact .inl h

/-- the scans of a plan that is not pushed down whole -/
theorem mem_scans {q : Query} {plan : LogicalPlan} {vd : VirtualDataset} {dialects : Dict String String}
    {dialect : String} {op : OptimizedPlan} (hop : optimize plan q vd dialects dialect = some op)
    (hnp : op.pushdownFullQuery = false) :
    op.logicalPlan = plan ∧ op.localStageSql = rewriteTablesToStage q (stageTableMap plan) ∧
      (∀ scan ∈ op.sourceSubplans, ∃ b filters,
        scan.sql = buildScanSql scan.aliasName b (projectedColumns q scan.aliasName) filters) ∧
      ∀ a ∈ plan.tables.keys, ∃ scan ∈ op.sourceSubplans, scan.aliasName = a := by
  obtain ⟨bound, hbound, hop⟩ := Option.bind_eq_some_iff.1 hop
  split_ifs at hop with hpush
  · obtain ⟨ref, -, hop⟩ := Option.bind_eq_some_iff.1 hop
    cases hop
    cases hnp
  · cases hop
    refine ⟨rfl, rfl, fun scan hscan => ?_, fun a ha => ?_⟩
    · obtain ⟨e, -, rfl⟩ := mem_map.1 hscan
      exact ⟨_, _, rfl⟩
    · have hkeys : bound.map Prod.fst = plan.tables.keys := by
        refine Json.map_eq_of_mapM _ Prod.fst Prod.fst _ _ (fun e bound hb => ?_) hbound
        obtain ⟨b, -, rfl⟩ := Option.map_eq_some_iff.1 hb
        rfl
      rw [← hkeys] at ha
      obtain ⟨e, he, rfl⟩ := mem_map.1 ha
      exact ⟨_, mem_map_of_mem he, rfl⟩

end Plan

/-! ## An alias in capitals -/

section Capitals

open scoped Ascii

/-- `SELECT c.id, o.total, <alias>.status FROM customers c LEFT JOIN orders o ON c.id = o.customer_id` -/
def statusOf (aliasName : String) : Query := single
  { ctes := []
    items := [.expr (col "c" "id") "", .expr (col "o" "total") "", .expr (col aliasName "status") ""]
    source := some (.table ⟨"customers", "", "", "c"⟩)
    joins := [⟨.table ⟨"orders", "", "", "o"⟩, .left, "", some (.op "EQ" [col "c" "id", col "o" "customer_id"])⟩]
    cond := none
    rest := [] }

/-- the plan of `statusOf` -/
def statusPlan (aliasName : String) : LogicalPlan :=
  ⟨statusOf aliasName, "c",
    (Dict.empty.set "c" (tableRef "c" (plainBinding "customers" "crm"))).set "o"
      (tableRef "o" (plainBinding "orders" "sales")),
    [⟨"c", "o", "inner", some (.op "EQ" [col "c" "id", col "o" "customer_id"])⟩], none, [], false⟩

end Capitals

end Langbridge.Federation
