/-
Pushing a whole query to one source (`FederatedOptimizer.optimize`, `pushdown_full_query`): the text that is sent is
the query as written, so every base table in it should be bound to that source and be called there what the query
calls it. The test looks at the bindings of the planned `FROM` and `JOIN` tables alone, and at no written schema or
catalog.
-/
import Langbridge.Federation.FilterPushdown

namespace Langbridge.Federation

open Core Federation.Sql List PyText

section Model

variable [PyText]

/-- equal up to surrounding blanks and case -/
def sameText (a b : String) : Prop := norm a = norm b

instance (a b : String) : Decidable (sameText a b) := inferInstanceAs (Decidable (_ = _))

def calledThere (t : TableNode) (b : VirtualTableBinding) : Prop :=
  match b.relation with
  | .query _ => False
  | .table name schema catalog => sameText t.name name ∧ sameText t.db schema ∧ sameText t.catalog catalog

instance (t : TableNode) (b : VirtualTableBinding) : Decidable (calledThere t b) := by
  unfold calledThere
  split <;> infer_instance

/-- the base tables of a query: those that name no `WITH` entry in scope -/
def baseTables (q : Query) : List TableNode :=
  (q.scopedBodies []).flatMap fun x => x.2.tables.filter fun t => !isCteRef x.1 t

/-- what pushing the whole query relies on: every base table is bound to the source the query is sent to, and called
there what the query calls it -/
def MeansBoundTables (vd : VirtualDataset) (q : Query) (op : OptimizedPlan) : Prop :=
  ∀ sp ∈ op.sourceSubplans, ∀ t ∈ baseTables q, ∃ b, resolveBinding t vd = .ok b ∧ b.sourceId = sp.sourceId ∧
    calledThere t b

def Planned? (vd : VirtualDataset) (plan : LogicalPlan) (b : VirtualTableBinding) : Prop :=
  ∃ ref ∈ plan.tables.values, vd.tables.get? ref.tableKey = some b ∧ ref.sourceId = b.sourceId

/-! ## The test -/

theorem mem_nameSet (v : Json) (l : List Json) (hv : v ∈ l) (hs : strip v.text ≠ "") :
    norm v.text ∈ nameSet l :=
  mem_map.2 ⟨v, mem_filter.2 ⟨hv, by simpa using hs⟩, rfl⟩

omit [PyText] in
theorem differs_eq_false {v : Json} {declared : Option String} (h : differs v declared = false) :
    v = .null ∨ ∃ s, v = .str s ∧ declared = some s := by
  cases v with
  | null => exact .inl rfl
  | str s => exact .inr ⟨s, rfl, by simpa [differs] using h⟩
  | _ => simp [differs] at h

/-- a table whose name the test compares with the physical one: it is found under the table key, and neither its name
nor an absent physical name is read as the text `None` -/
structure Compared (t : TableNode) (b : VirtualTableBinding) : Prop where
  key : sameName t.name b.tableKey = true
  nonblank : norm t.name ≠ ""
  notNone : norm t.name ≠ norm "None"
  table : strip b.table ≠ ""
  physical : b.metadata.get? "physical_table" ≠ some .null

/-- the test passes for every planned binding -/
theorem guard_of_planned {vd : VirtualDataset} {plan : LogicalPlan}
    {bound : List (String × TableRef × VirtualTableBinding)} {dialects : Dict String String} {dialect : String}
    (hb : boundTables plan vd = some bound) (hpush : pushdownFullQuery plan bound dialects dialect = true)
    (b : VirtualTableBinding) (hp : Planned? vd plan b) :
    requiresScanLevelRewrite b = false ∧ requiresLogicalNameRewrite b = false := by
  obtain ⟨ref, href, hbind, _⟩ := hp
  obtain ⟨e, he, rfl⟩ := mem_map.1 href
  have hmem : ∃ x ∈ bound, x.2.2 = b := by
    obtain ⟨i, hi⟩ := getElem?_of_mem he
    obtain ⟨x, hx, hex⟩ := getElem?_of_mapM _ _ bound hb i e hi
    rw [hbind] at hex
    cases hex
    exact ⟨_, mem_of_getElem? hx, rfl⟩
  obtain ⟨x, hx, rfl⟩ := hmem
  simp only [pushdownFullQuery, Bool.and_eq_true, Bool.not_eq_true', any_eq_false] at hpush
  exact ⟨by simpa using hpush.1.1.2 x hx, by simpa using hpush.1.2 x hx⟩

theorem relation_of_guard (b : VirtualTableBinding) (h : requiresScanLevelRewrite b = false) :
    b.relation = .table (namePart b.physicalTable) (namePart b.physicalSchema) (namePart b.physicalCatalog) := by
  simp only [requiresScanLevelRewrite, Bool.or_eq_false_iff] at h
  have hsql : b.physicalSql? = none := by
    have htruthy := h.1.1.1.1
    rw [VirtualTableBinding.metadataGet] at htruthy
    rw [VirtualTableBinding.physicalSql?]
    split
    · rename_i s hs
      rw [hs] at htruthy
      have hempty : s = "" := by simpa [Json.truthy] using htruthy
      rw [hempty, PyText.strip_empty, if_pos rfl]
    · rfl
  simp only [VirtualTableBinding.relation, hsql, h.1.1.1.2, Bool.false_eq_true, if_false]

theorem Compared.sameText {t : TableNode} {b : VirtualTableBinding} (h : Compared t b)
    (hscan : requiresScanLevelRewrite b = false) (hlogical : requiresLogicalNameRewrite b = false) :
    Langbridge.Federation.sameText t.name (namePart b.physicalTable) := by
  -- the physical name is the declared one
  have hphys : b.metadata.get? "physical_table" = none ∨ b.metadata.get? "physical_table" = some (.str b.table) := by
    simp only [requiresScanLevelRewrite, Bool.or_eq_false_iff] at hscan
    have hdiff := hscan.2
    rw [VirtualTableBinding.metadataGet] at hdiff
    cases hg : b.metadata.get? "physical_table" with
    | none => exact .inl rfl
    | some v =>
      rw [hg, Option.getD_some] at hdiff
      rcases differs_eq_false hdiff with rfl | ⟨s, rfl, hs⟩
      · exact absurd hg h.physical
      · exact .inr (by rw [← Option.some.inj hs])
  have hname : namePart b.physicalTable = b.table := by
    have hval : b.physicalTable = .str b.table := by
      rw [VirtualTableBinding.physicalTable, VirtualTableBinding.metadataGet]
      rcases hphys with hg | hg <;> rw [hg] <;> rfl
    rw [hval, namePart, Json.truthy, Json.text]
    split_ifs with hne
    · rfl
    · exact (by simpa using hne : b.table = "").symm
  -- the key is among the logical names, hence among the physical ones
  have hkey : norm t.name = norm b.tableKey := by
    have hlower : lower t.name = lower b.tableKey := of_decide_eq_true h.key
    rw [← PyText.norm_lower, hlower, PyText.norm_lower]
  have hstrip : strip b.tableKey ≠ "" := by
    intro hs
    refine h.nonblank ?_
    rw [hkey, PyText.norm, hs, PyText.lower_empty]
  have hlog : norm b.tableKey ∈ logicalNames b := mem_nameSet (.str b.tableKey) _ (by simp) hstrip
  have htab : norm b.table ∈ physicalNames b := mem_nameSet (.str b.table) _ (by simp) h.table
  have hmem : norm b.tableKey ∈ physicalNames b := by
    have hne : (logicalNames b).isEmpty = false := isEmpty_eq_false_iff.2 (ne_nil_of_mem hlog)
    have hne' : (physicalNames b).isEmpty = false := isEmpty_eq_false_iff.2 (ne_nil_of_mem htab)
    have hall : (logicalNames b).all (· ∈ physicalNames b) = true := by
      simpa [requiresLogicalNameRewrite, hne, hne'] using hlogical
    simpa using all_eq_true.1 hall _ hlog
  rw [hname, Langbridge.Federation.sameText, hkey]
  obtain ⟨v, hv, hvn⟩ := mem_map.1 hmem
  have hv' := (mem_filter.1 hv).1
  rcases mem_cons.1 hv' with rfl | hv'
  · exact hvn.symm
  · obtain rfl := mem_singleton.1 hv'
    rw [VirtualTableBinding.metadataGet] at hvn
    rcases hphys with hg | hg
    · rw [hg] at hvn
      exact absurd (hkey.trans hvn.symm) h.notNone
    · rw [hg] at hvn
      exact hvn.symm

/-! ## The pushed query -/

/-- what the written text must satisfy beyond the test: a base table with a planned binding is written with the schema
and the catalog it has in the source (and with its name, where the test does not compare it); any other base table is
bound to the source and called there what the query calls it -/
def Placed (vd : VirtualDataset) (plan : LogicalPlan) (sourceId : String) (t : TableNode) : Prop :=
  ∃ b, resolveBinding t vd = .ok b ∧
    ((Planned? vd plan b ∧ sameText t.db (namePart b.physicalSchema) ∧ sameText t.catalog (namePart b.physicalCatalog) ∧
        (Compared t b ∨ sameText t.name (namePart b.physicalTable))) ∨
      (¬ Planned? vd plan b ∧ b.sourceId = sourceId ∧ calledThere t b))

theorem source_of_planned {vd : VirtualDataset} {plan : LogicalPlan}
    {bound : List (String × TableRef × VirtualTableBinding)} {dialects : Dict String String} {dialect : String}
    (hb : boundTables plan vd = some bound) (hpush : pushdownFullQuery plan bound dialects dialect = true)
    (b : VirtualTableBinding) (hp : Planned? vd plan b) (a : String) (ref : TableRef)
    (ha : plan.tables.get? a = some ref) : b.sourceId = ref.sourceId := by
  obtain ⟨ref', href', _, hsrc⟩ := hp
  have hsources : bound.map (fun e => e.2.1.sourceId) = plan.tables.entries.map fun e => e.2.sourceId := by
    refine Json.map_eq_of_mapM _ _ _ _ _ (fun e x hx => ?_) hb
    obtain ⟨_, _, rfl⟩ := Option.map_eq_some_iff.1 hx
    rfl
  simp only [pushdownFullQuery, Bool.and_eq_true, decide_eq_true_eq, hsources] at hpush
  obtain ⟨id, hid⟩ := length_eq_one_iff.1 hpush.1.1.1.1
  have hall : ∀ r ∈ plan.tables.values, r.sourceId = id := by
    intro r hr
    obtain ⟨e, he, rfl⟩ := mem_map.1 hr
    have hmem : e.2.sourceId ∈ (plan.tables.entries.map fun e => e.2.sourceId).dedup :=
      mem_dedup.2 (mem_map.2 ⟨e, he, rfl⟩)
    rw [hid] at hmem
    exact mem_singleton.1 hmem
  rw [← hsrc, hall ref' href', hall ref ((Dict.mem_values _ _).2 ⟨a, ha⟩)]

/-- **Full-query pushdown.** A query that is pushed whole means the tables its names are bound to exactly when every
base table of it is placed. -/
theorem fullQuery_iff (vd : VirtualDataset) (q : Query) (plan : LogicalPlan) (dialects : Dict String String)
    (dialect : String) (op : OptimizedPlan) (hop : optimize plan q vd dialects dialect = some op)
    (hpush : op.pushdownFullQuery = true) :
    MeansBoundTables vd q op ↔
      ∀ sp ∈ op.sourceSubplans, ∀ t ∈ baseTables q, Placed vd plan sp.sourceId t := by
  obtain ⟨bound, hb, hop⟩ := Option.bind_eq_some_iff.1 hop
  have hguard : pushdownFullQuery plan bound dialects dialect = true ∧ ∃ ref, plan.tables.get? plan.fromAlias = some ref ∧
      op.sourceSubplans = [fullQuerySubplan plan q ref] := by
    split_ifs at hop with hg
    · obtain ⟨ref, href, hop⟩ := Option.bind_eq_some_iff.1 hop
      cases hop
      exact ⟨hg, ref, href, rfl⟩
    · cases hop
      cases hpush
  obtain ⟨hguard, ref, href, hsubplans⟩ := hguard
  rw [MeansBoundTables, hsubplans]
  refine forall₂_congr fun sp hsp => forall₂_congr fun t _ => exists_congr fun b => and_congr_right fun _ => ?_
  obtain rfl := mem_singleton.1 hsp
  by_cases hp : Planned? vd plan b
  · obtain ⟨hscan, hlogical⟩ := guard_of_planned hb hguard b hp
    have hsrc : b.sourceId = (fullQuerySubplan plan q ref).sourceId := source_of_planned hb hguard b hp _ ref href
    rw [calledThere, relation_of_guard b hscan]
    constructor
    · rintro ⟨_, hname, hdb, hcat⟩
      exact .inl ⟨hp, hdb, hcat, .inr hname⟩
    · rintro (⟨_, hdb, hcat, hname⟩ | ⟨hn, _⟩)
      · exact ⟨hsrc, hname.elim (fun hc => hc.sameText hscan hlogical) id, hdb, hcat⟩
      · exact absurd hp hn
  · constructor
    · rintro ⟨hsrc, hcalled⟩
      exact .inr ⟨hp, hsrc, hcalled⟩
    · rintro (⟨hp', _⟩ | ⟨_, hsrc, hcalled⟩)
      · exact absurd hp' hp
      · exact ⟨hsrc, hcalled⟩

end Model

/-! ## A subquery -/

section Subquery

open scoped Ascii

/-- `SELECT o.customer_id FROM orders o` -/
def buyers : Select where
  ctes := []
  items := [.expr (col "o" "customer_id") ""]
  source := some (.table ⟨"orders", "", "", "o"⟩)
  joins := []
  cond := none
  rest := []

/-- `SELECT c.id FROM customers c WHERE c.id IN (SELECT o.customer_id FROM orders o)` -/
def customersWithOrders : Query :=
  .node (.select
    { ctes := []
      items := [.expr (col "c" "id") ""]
      source := some (.table ⟨"customers", "", "", "c"⟩)
      joins := []
      cond := some (.op "In" [col "c" "id", .node (.sub 0) []])
      rest := [] }) [single buyers]

/-- the whole query is sent to the customers' source, which does not have the orders -/
theorem subqueryTable_elsewhere : ∃ plan op,
    logicalPlan customersWithOrders ordersDataset = .ok plan ∧
      optimize plan customersWithOrders ordersDataset Dict.empty "tsql" = some op ∧ op.pushdownFullQuery = true ∧
      op.sourceSubplans.map SourceSubplan.sourceId = ["crm"] ∧
      ¬ MeansBoundTables ordersDataset customersWithOrders op := by
  refine ⟨_, _, rfl, rfl, rfl, rfl, fun h => ?_⟩
  obtain ⟨b, hb, hsrc, _⟩ := h _ (mem_singleton_self _) ⟨"orders", "", "", "o"⟩ (by decide)
  cases hb
  exact absurd hsrc (by decide)

def buyersPlan : LogicalPlan :=
  ⟨single buyers, "o", Dict.empty.set "o" (tableRef "o" (plainBinding "orders" "sales")), [], none, [], false⟩

/-- a query over one table is pushed as it is meant -/
theorem buyers_placed : logicalPlan (single buyers) ordersDataset = .ok buyersPlan ∧
    ∃ op, optimize buyersPlan (single buyers) ordersDataset Dict.empty "tsql" = some op ∧
      op.pushdownFullQuery = true ∧ MeansBoundTables ordersDataset (single buyers) op := by
  refine ⟨rfl, _, rfl, rfl,
    (fullQuery_iff ordersDataset (single buyers) buyersPlan Dict.empty "tsql" _ rfl rfl).2 fun sp hsp t ht => ?_⟩
  obtain rfl := mem_singleton.1 ht
  refine ⟨plainBinding "orders" "sales", rfl, .inl ⟨?_, by decide, by decide, .inr (by decide)⟩⟩
  exact ⟨_, mem_singleton_self _, rfl, rfl⟩

end Subquery

end Langbridge.Federation
