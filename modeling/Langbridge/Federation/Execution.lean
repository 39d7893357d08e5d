/-
Running an optimized plan: every source stage on its source, the local stage over their outputs; and the reference it
is compared with, the query itself on the tables its names are bound to.

A source gives a table for each relation it can be asked for; the same operators mean the same on every engine.
`scan_run` is what the scan built for a binding returns: the bound table's rows that pass the pushed filters, cut down
to the projected columns.
-/
import Langbridge.Federation.SelectSimulation

namespace Langbridge.Federation

open Core Core.Joins Federation.Sql List Function

variable [PyText]

abbrev Sources := String → Relation → Option Table

/-- a source as the scans see it -/
def sourceWorld (S : Sources) (sourceId : String) : World where
  table t := S sourceId (.table t.name t.db t.catalog)
  raw sql := S sourceId (.query sql)

def boundTable (S : Sources) (b : VirtualTableBinding) : Option Table := S b.sourceId b.relation

def directWorld (S : Sources) (vd : VirtualDataset) : World where
  table t := (resolveBinding t vd).toOption.bind (boundTable S)
  raw _ := none

/-- the local engine: the stage outputs under their names, a later registration replacing an earlier one -/
def localWorld (stages : List (String × Table)) : World where
  table t := if t.db = "" ∧ t.catalog = "" then (stages.reverse.find? fun e => sameName e.1 t.name).map Prod.snd else none
  raw _ := none

/-- the query on the tables its names are bound to -/
def direct (I : Interp) (S : Sources) (vd : VirtualDataset) (q : Query) : Option Table := run I (directWorld S vd) q

/-- a source stage: its name and its output -/
def runStage (I : Interp) (S : Sources) (sp : SourceSubplan) : Option (String × Table) :=
  (run I (sourceWorld S sp.sourceId) sp.sql).map fun T => (sp.stageId, T)

def federated (I : Interp) (S : Sources) (plan : OptimizedPlan) : Option Table := do
  let stages ← plan.sourceSubplans.mapM (runStage I S)
  run I (localWorld stages) plan.localStageSql

/-! ## What a query reads -/

section Reads

variable (I : Interp) (W W' : World)

/-- a select depends on its sources through what they elaborate to -/
theorem elabSelect_congr (s s' : Select) (subs : List Meaning) (Γ : Static)
    (hsources : s.sources.mapM (elabSource W subs Γ) = s'.sources.mapM (elabSource W' subs Γ))
    (hitems : s.items = s'.items) (hconds : onConds s = onConds s') (hcond : s.cond = s'.cond)
    (hrest : s.rest = s'.rest) : elabSelect I W s subs Γ = elabSelect I W' s' subs Γ := by
  have hrows : ∀ p, selectRows I s subs Γ p = selectRows I s' subs Γ p := by
    intro p
    funext δ
    rw [selectRows, selectRows, keptRows, keptRows, hconds, hcond, hrest]
  have hscoped : ∀ f, selectScoped s subs Γ f = selectScoped s' subs Γ f := by
    intro f
    rw [selectScoped, selectScoped, hconds, hcond]
  have hparts : selectParts W s subs Γ = selectParts W' s' subs Γ := by
    rw [selectParts, selectParts, hsources, hitems, hrest]
  rw [elabSelect, elabSelect, hparts]
  simp only [hrows, hscoped]

variable {W W'} in
/-- a query depends on the tables and the bracketed texts it names -/
theorem denote_congr (q : Query) (ht : ∀ t ∈ q.tables, W.table t = W'.table t)
    (hr : ∀ sql ∈ q.raws, W.raw sql = W'.raw sql) : denote I W q = denote I W' q := by
  refine Rose.fold_congr _ _ q fun b hb ms => ?_
  funext Γ
  refine congrArg _ (funext fun ⟨Δ, k, subs⟩ => ?_)
  have hcontent : elabContent I W b subs Δ = elabContent I W' b subs Δ := by
    cases b with
    | setOp op ctes rest => rfl
    | wrap => rfl
    | select s =>
      refine elabSelect_congr I W W' s s _ _ ?_ rfl rfl rfl rfl
      have hsource : ∀ y ∈ s.sources, elabSource W subs Δ y = elabSource W' subs Δ y := by
        intro y hy
        cases y with
        | derived i a => rfl
        | table t =>
          have htable := ht t (mem_flatMap.2 ⟨_, hb, mem_filterMap.2 ⟨_, hy, rfl⟩⟩)
          simp only [elabSource, htable]
        | raw sql a =>
          have hraw := hr sql (mem_flatMap.2 ⟨_, hb, mem_filterMap.2 ⟨_, hy, rfl⟩⟩)
          simp only [elabSource, hraw]
      exact mapM_congr _ _ _ hsource
  simp only [hcontent]

end Reads

/-! ## Scans -/

/-- the columns a scan returns -/
def scanCols (projected cols : List String) : List String :=
  if projected.isEmpty || "*" ∈ projected then cols else projected

/-- a filter a scan can evaluate: its columns are columns of the table, qualified by the alias or not at all -/
structure Scannable (a : String) (cols : List String) (c : Expr) : Prop where
  closed : c.hasSub = false
  own : ∀ r ∈ c.columns, hasCol cols r.name = true ∧ (r.table = "" ∨ sameName a r.table = true)

theorem rewriteColumnForScan_table (a : String) (b : VirtualTableBinding) (r : ColumnRef) (ha : a ≠ "")
    (hr : r.table = "" ∨ sameName a r.table = true) :
    ((rewriteColumnForScan a b r).table = "" ∧ r.table = "") ∨
      ((rewriteColumnForScan a b r).table ≠ "" ∧ sameName a (rewriteColumnForScan a b r).table = true) := by
  by_cases ht : r.table = ""
  · simp [rewriteColumnForScan, ht]
  · refine .inr ?_
    simp only [rewriteColumnForScan]
    split_ifs
    · exact ⟨ha, sameName_refl a⟩
    · exact ⟨ht, hr.resolve_left ht⟩

section Scan

variable (I : Interp) (S : Sources) (a : String) (b : VirtualTableBinding) (P : List String) (fs : List Expr) (T : Table)

def scanSource (a : String) (T : Table) : Source := ⟨a, "", "", T.cols⟩

theorem resolve_scan (fs : List Frame) (c : String) (table : String) (hc : hasCol T.cols c = true)
    (ht : table = "" ∨ sameName a table = true) :
    resolve ([scanSource a T] :: fs) ⟨c, table, "", ""⟩ = some ⟨0, 0, c⟩ := by
  have hl : lookupFrame [scanSource a T] ⟨c, table, "", ""⟩ = .at 0 := by
    rw [lookupFrame]
    by_cases h : table = ""
    · rw [if_pos h]
      have hidx : indicesOf (fun s => hasCol s.cols c) [scanSource a T] = [0] := by
        simp [indicesOf, range_succ, scanSource, hc]
      simp only [hidx]
    · rw [if_neg h]
      have hs := ht.resolve_left h
      simp [scanSource, findIdx?_cons, hs, Source.agrees, hc]
  simp [resolve, hl]

def scanItems (a : String) (P : List String) : List Item :=
  if P.isEmpty || "*" ∈ P then [.star] else P.map fun c => .expr (Expr.column ⟨c, a, "", ""⟩) ""

def scanOut (c : String) : OutCol := ⟨c, Expr.column blankRef, [.slot ⟨0, 0, c⟩]⟩

theorem elabItems_scan (hP : P.isEmpty = true ∨ "*" ∈ P ∨ ∀ c ∈ P, hasCol T.cols c = true) (Γ : Static) :
    ∃ oss, (scanItems a P).mapM (elabItem [] (Γ.push [scanSource a T]) [scanSource a T]) = some oss ∧
      oss.flatten = (scanCols P T.cols).map scanOut := by
  rw [scanItems, scanCols]
  by_cases h : (P.isEmpty || decide ("*" ∈ P)) = true
  · rw [if_pos h, if_pos h]
    exact ⟨[T.cols.map scanOut], by simp [elabItem, starOf, scanSource, scanOut], by simp⟩
  · rw [if_neg h, if_neg h]
    have hcols : ∀ c ∈ P, hasCol T.cols c = true := by
      simp only [Bool.or_eq_true, decide_eq_true_eq, not_or] at h
      exact (hP.resolve_left h.1).resolve_left h.2
    refine ⟨P.map fun c => [scanOut c], ?_, ?_⟩
    · refine Json.mapM_map_eq _ _ _ P fun c hc => ?_
      have hres := resolve_scan a T Γ.frames c a (hcols c hc) (.inr (sameName_refl a))
      have hleaf : leavesOf [] (Γ.push [scanSource a T]) [] false (Expr.column ⟨c, a, "", ""⟩) =
          some [.slot ⟨0, 0, c⟩] := by
        simp [leavesOf, Expr.column, leafOf, Static.push, hres, hasCol]
      rw [elabItem, hleaf]
      rfl
    · rw [← flatMap_def, ← map_eq_flatMap]

def scanSelect (a : String) (b : VirtualTableBinding) (P : List String) (fs : List Expr) : Select where
  ctes := []
  items := scanItems a P
  source := some (match b.relation with
    | .query sql => .raw sql a
    | .table name schema catalog => .table ⟨name, schema, catalog, a⟩)
  joins := []
  cond := andAll (fs.map (rewriteFilterForScan a b))
  rest := []

theorem buildScanSql_eq : buildScanSql a b P fs = .node (.select (scanSelect a b P fs)) [] := rfl

variable {S a b T} in
theorem elabSource_scan (ha : a ≠ "") (hT : boundTable S b = some T) :
    (scanSelect a b P fs).sources.mapM (elabSource (sourceWorld S b.sourceId) [] ⟨[], []⟩) =
      some [(scanSource a T, fun _ => T.rows)] := by
  rw [boundTable] at hT
  simp only [Select.sources, scanSelect, Option.toList_some, map_nil, append_nil]
  cases hr : b.relation with
  | query sql => simp [elabSource, sourceWorld, ← hr, hT, scanSource]
  | table name schema catalog =>
    simp [elabSource, sourceWorld, Static.cte?, ← hr, hT, scanSource, TableNode.aliasOrName, ha]

theorem holds_scan (δ : Dyn) (row : Row) (c : Expr) (ha : a ≠ "") (hc : Scannable a T.cols c) :
    holds I (colValue (Static.push ⟨[], []⟩ [scanSource a T]) (δ.push (Function.update blank 0 (some row))))
      (subValue [] (Static.push ⟨[], []⟩ [scanSource a T]) (δ.push (Function.update blank 0 (some row))))
      (rewriteFilterForScan a b c) = rowHolds I (some row) c := by
  have hval : ∀ r ∈ c.columns,
      colValue (Static.push ⟨[], []⟩ [scanSource a T]) (δ.push (Function.update blank 0 (some row)))
        (rewriteColumnForScan a b r) = Row.getOr (some row) r.name := by
    intro r hr
    obtain ⟨hcol, htab⟩ := hc.own r hr
    have ht : (rewriteColumnForScan a b r).table = "" ∨ sameName a (rewriteColumnForScan a b r).table = true :=
      (rewriteColumnForScan_table a b r ha htab).imp And.left And.right
    have hres := resolve_scan a T [] r.name (rewriteColumnForScan a b r).table hcol ht
    have hslot : resolve (Static.push ⟨[], []⟩ [scanSource a T]).frames (rewriteColumnForScan a b r) =
        some ⟨0, 0, r.name⟩ := hres
    rw [colValue, hslot]
    simp [Dyn.value, Dyn.push]
  have hrw : ∀ col sub, holds I col sub (rewriteFilterForScan a b c) =
      holds I (fun r => col (rewriteColumnForScan a b r)) sub c := by
    intro col sub
    rw [holds, rewriteFilterForScan, evalExpr_mapColumns, holds]
  rw [hrw]
  exact holds_eq_rowHolds I _ _ (some row) c hc.closed hval

theorem wellScoped_scan (c : Expr) (ha : a ≠ "") (hc : Scannable a T.cols c) :
    wellScoped [] (Static.push ⟨[], []⟩ [scanSource a T]) (rewriteFilterForScan a b c) = true := by
  rw [wellScoped, rewriteFilterForScan, Expr.mapColumns, Rose.labels_map, all_map, all_eq_true]
  intro n hn
  cases n with
  | column r =>
    obtain ⟨hcol, htab⟩ := hc.own r ((Expr.mem_columns c r).2 hn)
    have ht : (rewriteColumnForScan a b r).table = "" ∨ sameName a (rewriteColumnForScan a b r).table = true :=
      (rewriteColumnForScan_table a b r ha htab).imp And.left And.right
    have hslot : resolve (Static.push ⟨[], []⟩ [scanSource a T]).frames (rewriteColumnForScan a b r) =
        some ⟨0, 0, r.name⟩ := resolve_scan a T [] r.name _ hcol ht
    simp only [comp_apply, Node.mapColumn, hslot, Option.isSome_some]
  | sub i =>
    have hany : c.hasSub = true := any_eq_true.2 ⟨_, hn, rfl⟩
    rw [hc.closed] at hany
    cases hany
  | _ => rfl

theorem join_scan (Γ : Static) (δ : Dyn) (f : Frame) :
    join (joinSteps I [] Γ δ f [((fun _ => T.rows), Kind.inner, none)]) =
      T.rows.map fun row => Function.update blank 0 (some row) := by
  simp [joinSteps, join, joinStep, matching, condTrue]

theorem finish_scan (δ : Dyn) (Γ : Static) (cols : List String) (row : Row) :
    ((cols.map scanOut).flatMap OutCol.leaves).map
      (Leaf.cell [] Γ (δ.push (Function.update blank 0 (some row)))) =
        cols.map fun c => Cell.val (row.get c) := by
  rw [flatMap_map]
  simp only [scanOut]
  rw [← map_eq_flatMap, List.map_map]
  simp [Leaf.cell, Dyn.value, Dyn.push, Row.getOr]

omit [PyText] in
theorem zip_names (cols : List String) (v : String → Val) :
    (cols.map (OutCol.name ∘ scanOut)).zip (cols.map (Cell.toVal ∘ fun c => Cell.val (v c))) =
      cols.map fun c => (c, v c) := by
  induction cols with
  | nil => rfl
  | cons c cols ih => simp [ih, scanOut, Cell.toVal]

/-- the scan of a table that is given, with its filters rewritten already -/
def scanOver (a : String) (P : List String) (filters : List Expr) (T : Table) : Option Table :=
  run I ⟨fun _ => none, fun _ => some T⟩
    (.node (.select ⟨[], scanItems a P, some (.raw "" a), [], andAll filters, []⟩) [])

/-- a query that is one select without `WITH` -/
theorem run_single (W : World) (s : Select) (hctes : s.ctes = []) :
    run I W (.node (.select s) []) = (elabSelect I W s [] ⟨[], []⟩).map fun d => ⟨d.cols, d.rows ⟨[], []⟩⟩ := by
  have hc : elabCtes (Body.select s).cteNames [] ⟨[], []⟩ = some (⟨[], []⟩, id, []) := by
    simp [Body.cteNames, hctes, elabCtes]
  rw [run, denote, Rose.fold_node, map_nil]
  simp only [elabBody, hc, elabContent, Option.bind_eq_bind, Option.bind_some]
  cases elabSelect I W s [] ⟨[], []⟩ <;> rfl

variable {a} in
/-- a scan depends on the bound table, the projection and its rewritten filters -/
theorem run_scan_eq (ha : a ≠ "") :
    run I (sourceWorld S b.sourceId) (buildScanSql a b P fs) =
      (boundTable S b).bind (scanOver I a P (fs.map (rewriteFilterForScan a b))) := by
  rw [buildScanSql_eq, run_single I _ _ rfl]
  cases hT : boundTable S b with
  | none =>
    have hnone : (scanSelect a b P fs).sources.mapM (elabSource (sourceWorld S b.sourceId) [] ⟨[], []⟩) = none := by
      rw [boundTable] at hT
      simp only [Select.sources, scanSelect, Option.toList_some, map_nil, append_nil]
      cases hr : b.relation with
      | query sql => simp [elabSource, sourceWorld, ← hr, hT]
      | table name schema catalog => simp [elabSource, sourceWorld, Static.cte?, ← hr, hT]
    rw [elabSelect, selectParts, hnone]
    rfl
  | some T =>
    rw [Option.bind_some, scanOver, run_single I _ _ rfl]
    refine congrArg _ (elabSelect_congr I _ _ _ _ _ _ ?_ rfl rfl rfl rfl)
    rw [elabSource_scan P fs ha hT]
    rfl

variable {S a b T} in
/-- **A scan.** It returns the rows of the bound table that pass the filters, cut down to the projected columns. -/
theorem scan_run (ha : a ≠ "") (hT : boundTable S b = some T)
    (hP : P.isEmpty = true ∨ "*" ∈ P ∨ ∀ c ∈ P, hasCol T.cols c = true) (hfs : ∀ c ∈ fs, Scannable a T.cols c) :
    run I (sourceWorld S b.sourceId) (buildScanSql a b P fs) =
      some ⟨scanCols P T.cols, (T.rows.filter (passesFilters I fs)).map (Row.project (scanCols P T.cols))⟩ := by
  set s := scanSelect a b P fs with hs
  obtain ⟨oss, hoss, hflat⟩ := elabItems_scan a P T hP ⟨[], []⟩
  set p : Parts := ⟨[(scanSource a T, fun _ => T.rows)], (scanCols P T.cols).map scanOut, []⟩ with hp
  have hparts : selectParts (sourceWorld S b.sourceId) s [] ⟨[], []⟩ = some p := by
    have hitems : s.items.mapM (elabItem [] (Static.push ⟨[], []⟩ [scanSource a T]) [scanSource a T]) = some oss :=
      hoss
    rw [selectParts, elabSource_scan P fs ha hT, Option.bind_eq_bind, Option.bind_some]
    simp only [map_cons, map_nil, hitems, Option.bind_eq_bind, Option.bind_some, hflat]
    rfl
  have hscoped : selectScoped s [] ⟨[], []⟩ p.frame = true := by
    have hcond : s.cond.all (wellScoped [] (Static.push ⟨[], []⟩ [scanSource a T])) = true := by
      refine andAll_labels _ rfl rfl _ fun e he => ?_
      obtain ⟨c, hc, rfl⟩ := mem_map.1 he
      exact wellScoped_scan a b T c ha (hfs c hc)
    simp only [selectScoped, Bool.and_eq_true]
    exact ⟨⟨by simp [distinctAliases, hp, Parts.frame], rfl⟩, hcond⟩
  have hkept : keptRows I s [] ⟨[], []⟩ p ⟨[], []⟩ =
      (T.rows.filter (passesFilters I fs)).map fun row => Function.update blank 0 (some row) := by
    have hjoin := join_scan I T ⟨[], []⟩ ⟨[], []⟩ p.frame
    have hchain : (p.sources.map Prod.snd).zip (onConds s) = [((fun _ => T.rows), Kind.inner, none)] := rfl
    rw [keptRows, hchain, hjoin, filter_map]
    refine congrArg (List.map _) (filter_congr fun row _ => ?_)
    have hall := holds_andAll I
      (colValue (Static.push ⟨[], []⟩ [scanSource a T]) (Dyn.push ⟨[], []⟩ (Function.update blank 0 (some row))))
      (subValue [] (Static.push ⟨[], []⟩ [scanSource a T])
        (Dyn.push ⟨[], []⟩ (Function.update blank 0 (some row)))) (fs.map (rewriteFilterForScan a b))
    refine hall.trans ?_
    rw [all_map, passesFilters, Bool.eq_iff_iff, all_eq_true, all_eq_true]
    exact forall₂_congr fun c hc => by rw [comp_apply, holds_scan I a b T ⟨[], []⟩ row c ha (hfs c hc)]
  have hrows : selectRows I s [] ⟨[], []⟩ p ⟨[], []⟩ =
      (T.rows.filter (passesFilters I fs)).map (Row.project (scanCols P T.cols)) := by
    have hproj : isProjection p.outs s.rest = true := by
      simp [isProjection, hp, scanOut, Expr.column, Rose.label, hs, scanSelect]
    have hleaves : p.leaves = ((scanCols P T.cols).map scanOut).flatMap OutCol.leaves := append_nil _
    rw [selectRows, hkept, finishRows, if_pos hproj, List.map_map, List.map_map, List.map_map]
    refine map_congr_left fun row _ => ?_
    simp only [comp_apply]
    rw [hleaves, finish_scan]
    simp only [hp, List.map_map, Row.project]
    exact zip_names (scanCols P T.cols) fun c => row.get c
  have hden : denote I (sourceWorld S b.sourceId) (buildScanSql a b P fs) ⟨[], []⟩ =
      some ⟨p.outs.map OutCol.name, selectRows I s [] ⟨[], []⟩ p⟩ := by
    have hsel : elabSelect I (sourceWorld S b.sourceId) s [] ⟨[], []⟩ =
        some ⟨p.outs.map OutCol.name, selectRows I s [] ⟨[], []⟩ p⟩ := by
      rw [elabSelect, hparts, Option.bind_eq_bind, Option.bind_some]
      exact if_pos hscoped
    have hctes : elabCtes (Body.select s).cteNames [] ⟨[], []⟩ = some (⟨[], []⟩, id, []) := rfl
    rw [buildScanSql_eq, denote, Rose.fold_node, ← hs]
    simp only [elabBody, map_nil, hctes, elabContent, hsel, Option.bind_eq_bind, Option.bind_some]
    rfl
  have hnames : p.outs.map OutCol.name = scanCols P T.cols := by simp [hp, scanOut, comp_def]
  rw [run, hden, Option.map_some]
  simp only [hrows, hnames]

end Scan

end Langbridge.Federation
