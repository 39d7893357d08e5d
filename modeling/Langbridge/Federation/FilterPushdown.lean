/-
Filter pushdown for a single `SELECT` (`FederatedOptimizer.optimize`): each table's scan takes the `WHERE` conjuncts
that mention its alias alone, whatever the joins are.

`PushdownSafe` is when that is right. Its main clause is `rejects`: a table on a null-supplied side of an outer join
needs one pushed conjunct that is not true of a null-extended row. The others are about names: a pushed conjunct reads
only columns of its table (an unqualified column of another table counts for no alias), and the columns of a table are
mentioned under the alias's own spelling.
-/
import Langbridge.Federation.LocalStage

namespace Langbridge.Federation

open Core Core.Joins Federation.Sql List Dict PyText Option

section Model

variable [PyText]

/-! ## What a query that has a meaning satisfies -/

section Resolved

variable {subs : List Meaning} {Γ : Static} {I : Interp} {W : World} {s : Select} {p : Parts} {d : Den}

/-- a select with a meaning has its parts, and they are well scoped -/
theorem parts_of_elabSelect (h : elabSelect I W s subs Γ = some d) :
    ∃ p, selectParts W s subs Γ = some p ∧ selectScoped s subs Γ p.frame = true := by
  obtain ⟨p, hp, h⟩ := bind_eq_some_iff.1 h
  split_ifs at h with hs
  exact ⟨p, hp, hs⟩

/-- the sources of a select are those of its frame, in order -/
theorem source_of_parts (h : selectParts W s subs Γ = some p) (i : ℕ) (x : FromItem) (hx : s.sources[i]? = some x) :
    ∃ src rows, p.sources[i]? = some (src, rows) ∧ elabSource W subs Γ x = some (src, rows) := by
  obtain ⟨sources, hsources, h⟩ := bind_eq_some_iff.1 h
  obtain ⟨outs, _, h⟩ := bind_eq_some_iff.1 h
  obtain ⟨leaves, _, h⟩ := bind_eq_some_iff.1 h
  cases h
  obtain ⟨src, hsrc, helab⟩ := getElem?_of_mapM _ _ _ hsources i x hx
  exact ⟨src.1, src.2, hsrc, helab⟩

theorem resolve_of_leavesOf {outs : List String} {first : Bool} {e : Expr} {ls : List Leaf}
    (h : leavesOf subs Γ outs first e = some ls) (r : ColumnRef) (hr : r ∈ e.columns) (ht : r.table ≠ "") :
    (resolve Γ.frames r).isSome = true := by
  obtain ⟨lss, hlss, _⟩ := map_eq_some_iff.1 h
  obtain ⟨l, hl⟩ := Json.isSome_of_mapM _ _ _ hlss _ ((Expr.mem_columns e r).1 hr)
  have hout : ¬(r.table = "" ∧ hasCol outs r.name = true) := fun hc => ht hc.1
  cases hres : resolve Γ.frames r with
  | some _ => rfl
  | none =>
    simp only [leafOf, if_neg hout, hres, map_none] at hl
    cases first <;> simp at hl

theorem resolve_of_wellScoped {e : Expr} (h : wellScoped subs Γ e = true) (r : ColumnRef) (hr : r ∈ e.columns) :
    (resolve Γ.frames r).isSome = true :=
  all_eq_true.1 h _ ((Expr.mem_columns e r).1 hr)

/-- a qualified column that resolves in a lone frame is a column of the source it is qualified by -/
theorem source_of_resolve (f f' : Frame) (hsub : ∀ src ∈ f, src ∈ f') (r : ColumnRef) (ht : r.table ≠ "")
    (h : (resolve [f] r).isSome = true) :
    ∃ src ∈ f', sameName src.aliasName r.table = true ∧ hasCol src.cols r.name = true := by
  have hl : ∃ i, lookupFrame f r = .at i := by
    rw [resolve] at h
    cases hl : lookupFrame f r with
    | «at» i => exact ⟨i, rfl⟩
    | no => simp [resolve, hl] at h
    | error => simp [hl] at h
  obtain ⟨i, hl⟩ := hl
  obtain ⟨src, hsrc, hcol⟩ := hasCol_of_lookupFrame f r i hl
  refine ⟨src, hsub src (mem_of_getElem? hsrc), ?_, hcol⟩
  rw [lookupFrame, if_neg ht] at hl
  cases hi : f.findIdx? fun s => sameName s.aliasName r.table with
  | none => rw [hi] at hl; cases hl
  | some j =>
    simp only [hi] at hl
    split_ifs at hl
    obtain rfl : j = i := by simpa using hl
    obtain ⟨hlt, hp, _⟩ := findIdx?_eq_some_iff_getElem.1 hi
    rw [getElem?_eq_getElem hlt, Option.some.injEq] at hsrc
    rwa [hsrc] at hp

/-- in a select that stands alone and has no star, every qualified column is a column of the source it names -/
theorem column_of_select (hp : selectParts W s [] ⟨[], []⟩ = some p)
    (hs : selectScoped s [] ⟨[], []⟩ p.frame = true) (hstar : s.hasStar = false) (r : ColumnRef) (hr : r ∈ s.columns)
    (ht : r.table ≠ "") :
    ∃ src ∈ p.frame, sameName src.aliasName r.table = true ∧ hasCol src.cols r.name = true := by
  obtain ⟨sources, _, hp⟩ := bind_eq_some_iff.1 hp
  obtain ⟨outs, houts, hp⟩ := bind_eq_some_iff.1 hp
  obtain ⟨leaves, hleaves, hp⟩ := bind_eq_some_iff.1 hp
  cases hp
  have hframe := source_of_resolve (sources.map Prod.fst) (sources.map Prod.fst) (fun _ h => h) r ht
  simp only [selectScoped, Bool.and_eq_true] at hs
  rcases mem_append.1 hr with hr | hr
  · obtain ⟨it, hit, hr⟩ := mem_flatMap.1 hr
    have hstarItem : it.hasStar = false := by
      rw [Select.hasStar, Bool.or_eq_false_iff] at hstar
      simpa using any_eq_false.1 hstar.1 it hit
    cases it with
    | star => cases hstarItem
    | tableStar _ => cases hstarItem
    | expr e a =>
      obtain ⟨os, hos⟩ := Json.isSome_of_mapM _ _ _ houts _ hit
      obtain ⟨ls, hls, _⟩ := map_eq_some_iff.1 hos
      exact hframe (resolve_of_leavesOf hls r hr ht)
  · obtain ⟨e, he, hr⟩ := mem_flatMap.1 hr
    rcases mem_append.1 he with he | he
    · rcases mem_append.1 he with he | he
      · obtain ⟨j, hj, hon⟩ := mem_filterMap.1 he
        have hmem : (j.side, j.on) ∈ onConds s := mem_append_right _ (mem_map.2 ⟨j, hj, rfl⟩)
        obtain ⟨n, hn⟩ := getElem?_of_mem hmem
        have hscoped := all_eq_true.1 hs.1.2 ((j.side, j.on), n) (mem_zipIdx_iff_getElem?.2 hn)
        simp only [hon, all_some] at hscoped
        exact source_of_resolve _ _ (fun _ h => mem_of_mem_take h) r ht (resolve_of_wellScoped hscoped r hr)
      · have hscoped := hs.2
        rw [mem_toList.1 he, all_some] at hscoped
        exact hframe (resolve_of_wellScoped hscoped r hr)
    · obtain ⟨c, hc, he⟩ := mem_flatMap.1 he
      obtain ⟨lss, hlss, _⟩ := map_eq_some_iff.1 hleaves
      obtain ⟨ls, hls⟩ := Json.isSome_of_mapM _ _ _ hlss _ hc
      obtain ⟨ks, hks, _⟩ := map_eq_some_iff.1 hls
      obtain ⟨k, hk⟩ := Json.isSome_of_mapM _ _ _ hks _ he
      exact hframe (resolve_of_leavesOf hk r hr ht)

/-- a select that stands alone has no subqueries -/
theorem closed_of_wellScoped {e : Expr} (h : wellScoped [] Γ e = true) : e.hasSub = false := by
  rw [Expr.hasSub, List.any_eq_false]
  intro n hn
  have hs := all_eq_true.1 h n hn
  cases n with
  | sub i => simp at hs
  | _ => simp [Node.isSub]

end Resolved

/-! ## The plan of a select without `WITH` -/

section Planned

variable {vd : VirtualDataset} {xs : List FromItem} {tables : Dict String TableRef}

theorem resolveTable_ok {x : FromItem} {a : String} {b : VirtualTableBinding} (h : resolveTable x vd = .ok (a, b)) :
    ∃ t, x = .table t ∧ t.aliasOrName = a ∧ resolveBinding t vd = .ok b := by
  cases x with
  | derived i a => cases h
  | raw s a => cases h
  | table t =>
    rw [resolveTable] at h
    cases hb : resolveBinding t vd with
    | error e => rw [hb] at h; cases h
    | ok b' =>
      rw [hb] at h
      cases h
      exact ⟨t, rfl, rfl, hb⟩

/-- the tables of the plan are the sources `xs`, resolved -/
structure Planned (vd : VirtualDataset) (xs : List FromItem) (tables : Dict String TableRef) : Prop where
  ref : ∀ a ref, tables.get? a = some ref → ∃ t b, .table t ∈ xs ∧ t.aliasOrName = a ∧
    resolveBinding t vd = .ok b ∧ ref = tableRef a b
  source : ∀ x ∈ xs, ∃ t, x = .table t ∧ t.aliasOrName ∈ tables.keys

theorem Planned.nil : Planned vd [] Dict.empty where
  ref a ref h := absurd h (by simp)
  source x hx := absurd hx not_mem_nil

/-- one more source -/
theorem Planned.set (h : Planned vd xs tables) {x : FromItem} {a : String} {b : VirtualTableBinding}
    (hx : resolveTable x vd = .ok (a, b)) : Planned vd (xs ++ [x]) (tables.set a (tableRef a b)) := by
  obtain ⟨t, rfl, rfl, hb⟩ := resolveTable_ok hx
  refine ⟨fun a' ref href => ?_, fun y hy => ?_⟩
  · rw [get?_set] at href
    split_ifs at href with ha
    · cases href
      exact ⟨t, b, mem_append_right _ (mem_singleton_self _), ha.symm, hb, by rw [ha]⟩
    · obtain ⟨t', b', ht', ha', hb', hr⟩ := h.ref a' ref href
      exact ⟨t', b', mem_append_left _ ht', ha', hb', hr⟩
  · rcases mem_append.1 hy with hy | hy
    · obtain ⟨t', rfl, ha'⟩ := h.source y hy
      exact ⟨t', rfl, (mem_keys_set _ _ _ _).2 (.inl ha')⟩
    · obtain rfl := mem_singleton.1 hy
      exact ⟨t, rfl, (mem_keys_set _ _ _ _).2 (.inr rfl)⟩

theorem Planned.joins (base : String) (js : List Join) (acc acc' : Dict String TableRef × List JoinRef)
    (h : Planned vd xs acc.1) (hjs : js.foldlM (addJoin vd base) acc = .ok acc') :
    Planned vd (xs ++ js.map Join.this) acc'.1 := by
  induction js generalizing xs acc with
  | nil =>
    cases hjs
    simpa using h
  | cons j js ih =>
    obtain ⟨acc₁, hstep, hjs⟩ := of_bind_ok hjs
    obtain ⟨⟨a, b⟩, hres, hstep⟩ := of_bind_ok hstep
    cases hstep
    have hnext := ih _ (h.set hres) hjs
    rwa [append_assoc] at hnext

/-- **Planning.** The tables and the condition of the plan of a select without `WITH`. -/
theorem planned_of_logicalPlan (s : Select) (cs : List Query) (hctes : s.ctes = []) (plan : LogicalPlan)
    (h : logicalPlan (.node (.select s) cs) vd = .ok plan) :
    Planned vd s.sources plan.tables ∧ plan.where_ = s.cond := by
  have hnames : extractCteNames s = [] := by simp [extractCteNames, hctes]
  simp only [logicalPlan, extractSelect, hnames, ne_eq, not_true_eq_false, if_false] at h
  obtain ⟨⟨baseAlias, tables, joins⟩, hres, h⟩ := of_bind_ok h
  cases h
  refine ⟨?_, rfl⟩
  rw [resolveFromJoins] at hres
  cases hsrc : s.source with
  | none => rw [hsrc] at hres; cases hres
  | some base =>
    rw [hsrc] at hres
    obtain ⟨⟨a, b⟩, hbase, hres⟩ := of_bind_ok hres
    obtain ⟨⟨tables', joins'⟩, hjoins, hres⟩ := of_bind_ok hres
    obtain ⟨rfl, rfl, rfl⟩ : a = baseAlias ∧ tables' = tables ∧ joins' = joins := by simpa using Except.ok.inj hres
    have hplanned := (Planned.nil.set hbase).joins a s.joins _ _ hjoins
    rw [Select.sources, hsrc]
    exact hplanned

end Planned

/-! ## Soundness -/

section Pushdown

variable (I : Interp) (S : Sources) (vd : VirtualDataset) (s : Select) (plan : LogicalPlan)
  (dialects : Dict String String) (dialect : String)

def single (s : Select) : Query := .node (.select s) []

/-- when pushing the conjuncts of `WHERE` to the scans is right -/
structure PushdownSafe : Prop where
  /-- a binding is stored under its own key -/
  keyed : ∀ t ∈ s.tables, ∀ b, resolveBinding t vd = .ok b → vd.tables.get? b.tableKey = some b
  /-- tables and columns have names -/
  tablesNamed : ∀ t ∈ s.tables, t.aliasOrName ≠ ""
  columnsNamed : ∀ r ∈ s.columns, r.name ≠ ""
  /-- the renaming of the local stage takes no qualifier for another table -/
  names : NamesKept (single s)
  /-- a column of a table is mentioned under the alias's own spelling -/
  spelled : ∀ t ∈ s.tables, ∀ T ∈ (directWorld S vd).table t, ∀ r ∈ s.columns, r.table ≠ "" →
    sameName t.aliasOrName r.table = true → hasCol T.cols r.name = true →
      keepsAll (single s) ∨ requiredColumns (single s) t.aliasOrName = [] ∨
        hasCol (requiredColumns (single s) t.aliasOrName) r.name = true
  /-- a pushed conjunct reads only columns of the table it is pushed to -/
  own : ∀ t ∈ s.tables, ∀ T ∈ (directWorld S vd).table t,
    ∀ c ∈ pushedOn plan dialects dialect t.aliasOrName, ∀ r ∈ c.columns,
      (r.table ≠ "" ∧ sameName t.aliasOrName r.table = true) ∨ (r.table = "" ∧ hasCol T.cols r.name = true)
  /-- where the table is null-supplied, some pushed conjunct is not true of the null-extended row -/
  rejects : ∀ (i : ℕ) t, s.sources[i]? = some (.table t) → i ∈ nullable s.joinShape →
    pushedOn plan dialects dialect t.aliasOrName ≠ [] →
      ∃ c ∈ pushedOn plan dialects dialect t.aliasOrName, rowHolds I none c = false

variable {I S vd s plan dialects dialect}

omit [PyText] in
theorem single_columns : (single s).columns = s.columns := by
  simp [single, Query.columns, Body.columns]

omit [PyText] in
theorem single_hasStar : (single s).hasStar = s.hasStar := by
  simp [single, Query.hasStar, Body.hasStar]

omit [PyText] in
theorem single_scopedBodies (hctes : s.ctes = []) : (single s).scopedBodies [] = [([], .select s)] := by
  simp [single, Query.scopedBodies, Body.cteNames, hctes, scopeChildren]

/-- the result of a select that stands alone comes from its elaboration -/
theorem elabSelect_of_direct (hctes : s.ctes = []) {t : Table} (h : direct I S vd (single s) = some t) :
    ∃ d, elabSelect I (directWorld S vd) s [] ⟨[], []⟩ = some d := by
  obtain ⟨d, hd, _⟩ := map_eq_some_iff.1 h
  rw [single, denote, Rose.fold_node, map_nil] at hd
  have hc : elabCtes (Body.select s).cteNames [] ⟨[], []⟩ = some (⟨[], []⟩, id, []) := by
    simp [Body.cteNames, hctes, elabCtes]
  simp only [elabBody, hc, elabContent, bind_eq_bind, bind_some] at hd
  obtain ⟨d', hd', _⟩ := bind_eq_some_iff.1 hd
  exact ⟨d', hd'⟩

theorem aliasName_of_elabSource {W : World} {subs : List Meaning} {Γ : Static} {x : FromItem}
    {src : Source × (Dyn → List Row)} (h : elabSource W subs Γ x = some src) : src.1.aliasName = x.aliasOrName := by
  cases x with
  | derived i a =>
    obtain ⟨d, _, rfl⟩ := map_eq_some_iff.1 h
    rfl
  | raw sql a =>
    obtain ⟨T, _, rfl⟩ := map_eq_some_iff.1 h
    rfl
  | table t =>
    rw [elabSource] at h
    split at h
    · cases h
      rfl
    · obtain ⟨T, _, rfl⟩ := map_eq_some_iff.1 h
      rfl

structure Resolved (S : Sources) (vd : VirtualDataset) (s : Select) (p : Parts) : Prop where
  parts : selectParts (directWorld S vd) s [] ⟨[], []⟩ = some p
  names : selectScoped s [] ⟨[], []⟩ p.frame = true

theorem resolved_of_direct (hctes : s.ctes = []) {t : Table} (h : direct I S vd (single s) = some t) :
    ∃ p, Resolved S vd s p := by
  obtain ⟨d, hd⟩ := elabSelect_of_direct hctes h
  obtain ⟨p, hp, hs⟩ := parts_of_elabSelect hd
  exact ⟨p, hp, hs⟩

variable {p : Parts}

/-- the sources of the frame differ in their aliases, up to case -/
theorem Resolved.frame_inj (h : Resolved S vd s p) {src src' : Source} (hs : src ∈ p.frame) (hs' : src' ∈ p.frame)
    (hn : sameName src.aliasName src'.aliasName = true) : src = src' := by
  have hnd : (p.frame.map fun src => lower src.aliasName).Nodup := by
    have hs := h.names
    simp only [selectScoped, Bool.and_eq_true] at hs
    exact of_decide_eq_true hs.1.1
  exact inj_on_of_nodup_map hnd hs hs' (of_decide_eq_true hn)

/-- the sources of the select differ in their aliases, up to case -/
theorem Resolved.source_inj (h : Resolved S vd s p) {x x' : FromItem} (hx : x ∈ s.sources) (hx' : x' ∈ s.sources)
    (hn : sameName x.aliasOrName x'.aliasOrName = true) : x = x' := by
  have hnd : (s.sources.map fun x => lower x.aliasOrName).Nodup := by
    have hs := h.names
    simp only [selectScoped, Bool.and_eq_true] at hs
    have hframe : (p.frame.map fun src => lower src.aliasName).Nodup := of_decide_eq_true hs.1.1
    obtain ⟨sources, hsources, hp⟩ := bind_eq_some_iff.1 h.parts
    obtain ⟨outs, _, hp⟩ := bind_eq_some_iff.1 hp
    obtain ⟨leaves, _, hp⟩ := bind_eq_some_iff.1 hp
    cases hp
    have hmap := Json.map_eq_of_mapM _ (fun src => lower src.1.aliasName)
      (fun x : FromItem => lower x.aliasOrName) _ _
      (fun x src h => congrArg lower (aliasName_of_elabSource h)) hsources
    rw [← hmap]
    simpa [Parts.frame, Function.comp_def] using hframe
  exact inj_on_of_nodup_map hnd hx hx' (of_decide_eq_true hn)

/-- a table of the select is bound, and its source in the frame has its alias and its columns -/
theorem Resolved.table (h : Resolved S vd s p) (t : TableNode) (ht : .table t ∈ s.sources) :
    ∃ b T src, resolveBinding t vd = .ok b ∧ boundTable S b = some T ∧ (directWorld S vd).table t = some T ∧
      src ∈ p.frame ∧ src.aliasName = t.aliasOrName ∧ src.cols = T.cols := by
  obtain ⟨i, hi⟩ := getElem?_of_mem ht
  obtain ⟨src, rows, hsrc, helab⟩ := source_of_parts h.parts i _ hi
  have hmem : src ∈ p.frame := mem_map.2 ⟨_, mem_of_getElem? hsrc, rfl⟩
  have hcte : (if t.db = "" ∧ t.catalog = "" then Static.cte? ⟨[], []⟩ t.name else none) = none := by
    split_ifs <;> rfl
  simp only [elabSource, hcte] at helab
  obtain ⟨T, hT, hsrc⟩ := map_eq_some_iff.1 helab
  obtain ⟨b, hb, hbT⟩ := bind_eq_some_iff.1 hT
  have hres : resolveBinding t vd = .ok b := by
    cases hr : resolveBinding t vd with
    | error e => rw [hr] at hb; cases hb
    | ok b' => rw [hr] at hb; exact congrArg Except.ok (Option.some.inj hb)
  cases hsrc
  exact ⟨b, T, _, hres, hbT, hT, hmem, rfl, rfl⟩

omit [PyText] in
theorem mem_tables (t : TableNode) (ht : .table t ∈ s.sources) : t ∈ s.tables := mem_filterMap.2 ⟨_, ht, rfl⟩

omit [PyText] in
theorem mem_sources (t : TableNode) (ht : t ∈ s.tables) : .table t ∈ s.sources := by
  obtain ⟨x, hx, h⟩ := mem_filterMap.1 ht
  cases x with
  | table t' =>
    cases h
    exact hx
  | derived i a => cases h
  | raw sql a => cases h

/-- a conjunct of the `WHERE` clause has no subquery, and its qualified columns are columns of the sources they name -/
theorem Resolved.conjunct (h : Resolved S vd s p) (c : Expr) (hc : c ∈ s.conjuncts) :
    c.hasSub = false ∧ ∀ r ∈ c.columns, r.table ≠ "" →
      ∃ src ∈ p.frame, sameName src.aliasName r.table = true ∧ hasCol src.cols r.name = true := by
  obtain ⟨e, he, hc⟩ := mem_flatMap.1 hc
  have hs := h.names
  simp only [selectScoped, Bool.and_eq_true] at hs
  have hscoped := hs.2
  rw [mem_toList.1 he, all_some] at hscoped
  constructor
  · have hclosed := closed_of_wellScoped hscoped
    rw [Expr.hasSub, List.any_eq_false] at hclosed ⊢
    exact fun n hn => hclosed n (splitConjunctive_labels e c hc n hn)
  · intro r hr ht
    exact source_of_resolve p.frame p.frame (fun _ h => h) r ht
      (resolve_of_wellScoped hscoped r (splitConjunctive_columns e c hc r hr))

/-- a source found under a name that the table's alias also has, up to case, is the table's -/
theorem Resolved.hasCol_of_source (h : Resolved S vd s p) {src : Source} (hsrc : src ∈ p.frame) {T : Table}
    {a n c : String} (ha : src.aliasName = a) (hcols : src.cols = T.cols) (hn : sameName a n = true)
    (hr : ∃ src ∈ p.frame, sameName src.aliasName n = true ∧ hasCol src.cols c = true) : hasCol T.cols c = true := by
  obtain ⟨src', hsrc', hn', hc⟩ := hr
  have heq : src' = src := by
    refine h.frame_inj hsrc' hsrc ?_
    rw [ha, sameName_comm]
    exact sameName_trans hn (by rwa [sameName_comm])
  rw [← hcols, ← heq]
  exact hc

/-- the scan of a planned table runs and keeps what the select reads -/
theorem PushdownSafe.scanOk (hsafe : PushdownSafe I S vd s plan dialects dialect) (h : Resolved S vd s p)
    (hplan : Planned vd s.sources plan.tables) (hwhere : plan.where_ = s.cond) (a : String) (ref : TableRef)
    (ha : plan.tables.get? a = some ref) : ∃ b T, ScanOk S vd (single s) plan dialects dialect a ref b T := by
  obtain ⟨t, b, ht, rfl, hb, rfl⟩ := hplan.ref a ref ha
  obtain ⟨b', T, src, hb', hT, hW, hsrc, halias, hcols⟩ := h.table t ht
  obtain rfl : b' = b := by rw [hb] at hb'; exact (Except.ok.inj hb').symm
  have htab := mem_tables t ht
  refine ⟨b', T, hsafe.keyed t htab b' hb, rfl, hT, hsafe.tablesNamed t htab, ?_, ?_, ?_⟩
  · intro c hc
    by_cases hstar : s.hasStar = true
    · exact .inl (.inl (by rwa [single_hasStar]))
    · rw [Bool.not_eq_true] at hstar
      simp only [requiredColumns, single_hasStar, hstar, single_columns, List.mem_map, mem_filter,
        decide_eq_true_eq, nil_append, Bool.false_eq_true, if_false] at hc
      obtain ⟨r, ⟨hr, _, hne, hra⟩, rfl⟩ := hc
      have hcol := column_of_select h.parts h.names hstar r hr hne
      rw [hra] at hcol
      exact .inr (h.hasCol_of_source hsrc halias hcols (sameName_refl _) hcol)
  · intro r hr htab' hs hcol
    rw [single_columns] at hr
    exact hsafe.spelled t htab T hW r hr htab' hs hcol
  · intro c hc
    have hconj : c ∈ s.conjuncts := by
      have hmem := mem_conjuncts_of_pushed hc
      rwa [hwhere] at hmem
    obtain ⟨hclosed, hcolumn⟩ := h.conjunct c hconj
    refine ⟨hclosed, fun r hr => ?_⟩
    rcases hsafe.own t htab T hW c (by rwa [pushedOn_eq ha]) r hr with ⟨hne, hq⟩ | hu
    · exact ⟨h.hasCol_of_source hsrc halias hcols hq (hcolumn r hr hne), .inr hq⟩
    · exact ⟨hu.2, .inl hu.1⟩

/-- the select makes up for the filters of its scans -/
theorem PushdownSafe.selectSound (hsafe : PushdownSafe I S vd s plan dialects dialect) (h : Resolved S vd s p)
    (hplan : Planned vd s.sources plan.tables) (hwhere : plan.where_ = s.cond) :
    SelectSound I S vd (single s) plan dialects dialect [] s := by
  have hcte : ∀ t, isCteRef [] t = false := fun t => by simp [isCteRef]
  refine ⟨?_, ?_, fun t ht hc => rfl, ?_⟩
  · intro t ht hc
    rw [hcte] at hc
    cases hc
  · intro t ht _
    have htab := mem_sources t ht
    obtain ⟨b, T, src, hb, hT, hW, hsrc, halias, hcols⟩ := h.table t htab
    obtain ⟨t', ht', hkey⟩ := hplan.source _ htab
    obtain rfl : t = t' := FromItem.table.inj ht'
    obtain ⟨ref, href⟩ := (mem_keys_iff _ _).1 hkey
    obtain ⟨t', b', ht', halias', hb', rfl⟩ := hplan.ref _ ref href
    obtain rfl : t = t' := by
      refine FromItem.table.inj (h.source_inj htab ht' ?_)
      rw [FromItem.aliasOrName, FromItem.aliasOrName, halias']
      exact sameName_refl _
    obtain rfl : b' = b := by rw [hb] at hb'; exact (Except.ok.inj hb').symm
    exact ⟨_, b', href, hsafe.keyed t ht b' hb, hb⟩
  · intro i t en hi _ hen' hne
    obtain ⟨ref, href, _⟩ := bind_eq_some_iff.1 hen'
    obtain ⟨b, T, hscan⟩ := hsafe.scanOk h hplan hwhere t.aliasOrName ref href
    rw [filters_of_entry hen'] at hne
    refine Absorbs.of_scan hscan href hen' (fun c hc => ?_) fun hi' => hsafe.rejects i t hi hi' hne
    rw [pushedOn_eq href] at hc
    have hmem := mem_conjuncts_of_pushed hc
    rwa [hwhere] at hmem

end Pushdown

end Model

/-! ## An anti-join -/

section AntiJoin

open scoped Ascii

/-- equality and `IS NULL`, a projection and `UNION ALL` -/
def plainInterp : Interp where
  op cls args :=
    match cls, args with
    | "EQ", [.val a, .val b] => if a = .null ∨ b = .null then .null else .bool (a = b)
    | "Is", [.val a, .val b] => .bool (a = b)
    | _, _ => .null
  finish _ rows := rows.map fun l => l.map Cell.toVal
  setOp _ _ l r := l ++ r

def plainBinding (key sourceId : String) : VirtualTableBinding where
  tableKey := key
  sourceId := sourceId
  connectorId := none
  schemaName := none
  table := key
  catalog := none
  metadata := Dict.empty
  descriptor := none

def ordersDataset : VirtualDataset where
  id := "d"
  tables := Dict.ofList [("customers", plainBinding "customers" "crm"), ("orders", plainBinding "orders" "sales")]
  nonempty := by decide

def col (table name : String) : Expr := Expr.column ⟨name, table, "", ""⟩

/-- `SELECT c.id FROM customers c LEFT JOIN orders o ON c.id = o.customer_id WHERE o.total IS NULL` -/
def withoutOrders (cond : Expr) : Select where
  ctes := []
  items := [.expr (col "c" "id") ""]
  source := some (.table ⟨"customers", "", "", "c"⟩)
  joins := [⟨.table ⟨"orders", "", "", "o"⟩, .left, "", some (.op "EQ" [col "c" "id", col "o" "customer_id"])⟩]
  cond := some cond
  rest := []

def totalIsNull : Expr := .op "Is" [col "o" "total", .lit .null]

def oneOrder : Sources
  | "crm", .table "customers" "" "" => some ⟨["id"], [[("id", .int 1)]]⟩
  | "sales", .table "orders" "" "" =>
    some ⟨["customer_id", "total"], [[("customer_id", .int 1), ("total", .int 5)]]⟩
  | _, _ => none

def totalIsFive : Expr := .op "EQ" [col "o" "total", .lit (.int 5)]

/-- a filter that is not true of a null-extended row may be pushed there -/
theorem totalIsFive_safe (plan : LogicalPlan)
    (hplan : logicalPlan (single (withoutOrders totalIsFive)) ordersDataset = .ok plan) :
    PushdownSafe plainInterp oneOrder ordersDataset (withoutOrders totalIsFive) plan Dict.empty "tsql" := by
  cases hplan
  have htables : ∀ t ∈ (withoutOrders totalIsFive).tables,
      t = ⟨"customers", "", "", "c"⟩ ∨ t = ⟨"orders", "", "", "o"⟩ := by decide
  refine ⟨?_, by decide, by decide, ⟨by decide, by decide⟩, by decide, by decide, ?_⟩
  · intro t ht b hb
    rcases htables t ht with rfl | rfl
    · cases hb
      rfl
    · cases hb
      rfl
  · intro i t hi hn hne
    match i with
    | 0 => exact absurd hn (by decide)
    | 1 =>
      obtain rfl := FromItem.table.inj (Option.some.inj hi)
      exact ⟨totalIsFive, mem_singleton_self _, by decide⟩
    | i + 2 => cases hi

end AntiJoin

end Langbridge.Federation
