/-
Queries with more than one `SELECT` (`logical_plan_from_sql`, `FederatedOptimizer.optimize`): the plan takes its
`WHERE` clause from one select, and every scope that reads an alias shares that alias's scan.

`ScopesSafe` is when sharing is right: every scope that reads a scanned alias has the scan's filters among the conjuncts
of its own `WHERE` clause, reads the table the alias is planned for, and its `WITH` entries go by other names.
-/
import Langbridge.Federation.FilterPushdown

namespace Langbridge.Federation

open Core Core.Joins Federation.Sql List Option

section Model

variable [PyText]

section Shared

variable (I : Interp) (S : Sources) (vd : VirtualDataset) (q : Query) (plan : LogicalPlan)
  (dialects : Dict String String) (dialect : String)

/-- the selects of a query with the `WITH` names in scope there -/
def scopedSelects (q : Query) : List (List String × Select) :=
  (q.scopedBodies []).filterMap fun x =>
    match x.2 with
    | .select s => some (x.1, s)
    | _ => none

structure ScopesSafe : Prop where
  /-- every scan runs on its source and keeps what the query reads -/
  scans : ∀ a ref, plan.tables.get? a = some ref → ∃ b T, ScanOk S vd q plan dialects dialect a ref b T
  /-- the scanned aliases differ up to case -/
  distinct : ∀ a ∈ plan.tables.keys, ∀ a' ∈ plan.tables.keys, sameName a a' = true → a = a'
  /-- the renaming of the local stage takes no qualifier for another alias -/
  names : NamesKept q
  columnsNamed : ∀ r ∈ q.columns, r.name ≠ ""
  /-- a `WITH` entry goes by no scanned alias -/
  entries : ∀ x ∈ scopedSelects q, ∀ t ∈ x.2.tables, isCteRef x.1 t = true → t.aliasOrName ∉ plan.tables.keys
  /-- a base table goes by an alias that is planned for its binding -/
  planned : ∀ x ∈ scopedSelects q, ∀ t ∈ x.2.tables, isCteRef x.1 t = false →
    ∃ ref b, plan.tables.get? t.aliasOrName = some ref ∧ vd.tables.get? ref.tableKey = some b ∧
      resolveBinding t vd = .ok b
  /-- no `WITH` entry hides a scan -/
  visible : ∀ x ∈ scopedSelects q, ∀ t ∈ x.2.tables, isCteRef x.1 t = false →
    (x.1.any fun n => sameName n (scanStage t.aliasOrName)) = false
  /-- every scope that reads a scanned alias has the filters of the scan -/
  shared : ∀ x ∈ scopedSelects q, ∀ t ∈ x.2.tables, isCteRef x.1 t = false →
    ∀ c ∈ pushedOn plan dialects dialect t.aliasOrName, c ∈ x.2.conjuncts
  /-- where the table is null-supplied, some filter is not true of the null-extended row -/
  rejects : ∀ x ∈ scopedSelects q, ∀ (i : ℕ) t, x.2.sources[i]? = some (.table t) → isCteRef x.1 t = false →
    i ∈ nullable x.2.joinShape → pushedOn plan dialects dialect t.aliasOrName ≠ [] →
      ∃ c ∈ pushedOn plan dialects dialect t.aliasOrName, rowHolds I none c = false

/-- the scan of every alias holds each base row that some scope needs: a row that takes part in a joined row on which
the scope's `WHERE` clause is true passes the filters of the scan -/
def ScansHoldNeeded : Prop :=
  ∀ x ∈ scopedSelects q, ∀ Γ subs p δ, Γ.ctes.map Prod.fst = x.1 →
    selectParts (directWorld S vd) x.2 subs Γ = some p → selectScoped x.2 subs Γ p.frame = true →
      ∀ e ∈ keptRows I x.2 subs Γ p δ, ∀ (i : ℕ) t row, x.2.sources[i]? = some (.table t) →
        isCteRef x.1 t = false → e i = some row →
          passesFilters I (pushedOn plan dialects dialect t.aliasOrName) row = true

variable {I S vd q plan dialects dialect}

omit [PyText] in
theorem mem_scopedSelects (scope : List String) (s : Select) :
    (scope, s) ∈ scopedSelects q ↔ (scope, Body.select s) ∈ q.scopedBodies [] := by
  rw [scopedSelects, mem_filterMap]
  constructor
  · rintro ⟨⟨scope', b⟩, hx, hs⟩
    cases b with
    | select s' =>
      cases hs
      exact hx
    | setOp _ _ _ => cases hs
    | wrap => cases hs
  · exact fun h => ⟨_, h, rfl⟩

theorem ScopesSafe.sound (h : ScopesSafe I S vd q plan dialects dialect) : Sound I S vd q plan dialects dialect := by
  refine ⟨h.scans, h.distinct, h.names, h.columnsNamed, ?_⟩
  rintro ⟨scope, b⟩ hx s rfl
  have hmem := (mem_scopedSelects scope s).2 hx
  refine ⟨h.entries _ hmem, h.planned _ hmem, h.visible _ hmem, ?_⟩
  intro i t en hi hc hen hne
  have htab := mem_tables t (mem_of_getElem? hi)
  obtain ⟨ref, href, _⟩ := bind_eq_some_iff.1 hen
  obtain ⟨b, T, hscan⟩ := h.scans _ ref href
  rw [filters_of_entry hen] at hne
  exact Absorbs.of_scan hscan href hen (h.shared _ hmem t htab hc) fun hn => h.rejects _ hmem i t hi hc hn hne

theorem Sound.scansHoldNeeded (h : Sound I S vd q plan dialects dialect) :
    ScansHoldNeeded I S vd q plan dialects dialect := by
  rintro ⟨scope, s⟩ hx Γ subs p δ hscope hp hsc e he i t row hi hc hrow
  have hbody := (mem_scopedSelects scope s).1 hx
  have hok := h.bodyOk _ hbody
  have hsel := h.selects _ hbody s rfl
  obtain ⟨ref, b, href, _, _⟩ := hsel.bound t (mem_tables t (mem_of_getElem? hi)) hc
  obtain ⟨b', T, hscan⟩ := h.scans _ ref href
  have hen := hscan.entry href
  obtain ⟨ps, hps, hp⟩ := bind_eq_some_iff.1 hp
  obtain ⟨outs, _, hp⟩ := bind_eq_some_iff.1 hp
  obtain ⟨leaves, _, hp⟩ := bind_eq_some_iff.1 hp
  cases hp
  have hentry : entryOf (planEntry S vd q plan dialects dialect) scope (.table t) =
      planEntry S vd q plan dialects dialect t.aliasOrName := by
    rw [entryOf, hc]
    rfl
  rw [← filters_of_entry hen]
  exact passes_of_kept s hok hscope _ hps hsc δ e he i t _ hi (hentry.trans hen) row hrow

end Shared

end Model

/-! ## A union -/

section Union

open scoped Ascii

def unionDialects : Dict String String := Dict.ofList [("sales", "postgres")]

/-- `SELECT o.id FROM orders o` with an optional condition -/
def orderIds (cond : Option Expr) : Select where
  ctes := []
  items := [.expr (col "o" "id") ""]
  source := some (.table ⟨"orders", "", "", "o"⟩)
  joins := []
  cond := cond
  rest := []

def isPaid : Expr := .op "EQ" [col "o" "status", .lit (.text "paid")]

/-- the `UNION ALL` of two selects -/
def unionAll (l r : Select) : Query := .node (.setOp "UNION" [] []) [single l, single r]

def twoOrders : Sources
  | "sales", .table "orders" "" "" =>
    some ⟨["id", "status"], [[("id", .int 1), ("status", .text "paid")], [("id", .int 2), ("status", .text "open")]]⟩
  | _, _ => none

/-- two branches with the same filter may share the scan -/
theorem samePaid_safe (plan : LogicalPlan)
    (hplan : logicalPlan (unionAll (orderIds (some isPaid)) (orderIds (some isPaid))) ordersDataset = .ok plan) :
    ScopesSafe plainInterp twoOrders ordersDataset (unionAll (orderIds (some isPaid)) (orderIds (some isPaid))) plan
      unionDialects "tsql" := by
  cases hplan
  have hselects : ∀ x ∈ scopedSelects (unionAll (orderIds (some isPaid)) (orderIds (some isPaid))),
      x = ([], orderIds (some isPaid)) := by
    intro x hx
    rcases mem_cons.1 hx with rfl | hx
    · rfl
    · exact mem_singleton.1 hx
  have htable : ∀ t ∈ (orderIds (some isPaid)).tables, t = ⟨"orders", "", "", "o"⟩ := by decide
  refine ⟨?_, by decide, ⟨by decide, by decide⟩, by decide, by decide, ?_, by decide, ?_, ?_⟩
  · intro a ref href
    obtain ⟨rfl, rfl⟩ := Prod.mk.inj (mem_singleton.1 ((Dict.get?_eq_some_iff _ _ _).1 href))
    refine ⟨plainBinding "orders" "sales", _, rfl, rfl, rfl, by decide, by decide, by decide, ?_⟩
    intro c hc
    obtain rfl := mem_singleton.1 hc
    exact ⟨rfl, by decide⟩
  · intro x hx t ht _
    obtain rfl := hselects x hx
    obtain rfl := htable t ht
    exact ⟨_, plainBinding "orders" "sales", rfl, rfl, rfl⟩
  · intro x hx t ht _ c hc
    obtain rfl := hselects x hx
    obtain rfl := htable t ht
    exact hc
  · intro x hx i t hi _ hn _
    obtain rfl := hselects x hx
    exact absurd hn (by simp [Select.joinShape, onConds, orderIds, nullable, nullStep])

end Union

end Langbridge.Federation
