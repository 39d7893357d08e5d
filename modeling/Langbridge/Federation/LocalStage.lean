/-
A plan that scans its tables: what the scans hand to the local stage, how the local stage's columns are renamed, and
when the plan means what the query means.

`Sound` collects the obligations: every scan runs and keeps what the query reads, the scans' names differ, the renaming
keeps every column with its source, and every select makes up for the filters of its scans.

Main results: `stages_run`, `keeps_rewriteColumnForStage`, `federated_of_sound`.
-/
import Langbridge.Federation.Execution

namespace Langbridge.Federation

open Core Federation.Sql List Dict PyText Option

variable [PyText]

/-! ## Names -/

/-- stage names differ as the aliases do -/
theorem sameName_scanStage (a a' : String) : sameName (scanStage a) (scanStage a') = sameName a a' := by
  have h : ∀ x, lower (scanStage x) = lower "scan" ++ "_" ++ lower x :=
    fun x => PyText.lower_underscore "scan" x
  rw [sameName, sameName, h, h, Bool.eq_iff_iff, decide_eq_true_eq, decide_eq_true_eq, ← String.toList_inj,
    ← String.toList_inj]
  simp only [String.toList_append, append_cancel_left_eq]

/-- what the local stage's renaming relies on: a qualifier is trimmed, and where it names a single table of the query,
by alias or by name, it is that table's alias -/
structure NamesKept (q : Query) : Prop where
  trimmed : ∀ r ∈ q.columns, strip r.table = r.table
  looked : ∀ r ∈ q.columns, ∀ key ∈ qualifierKeys r, ∀ a ∈ aliasLookup q (norm key),
    sameName a r.table = true

theorem aliasLookup_ne_empty (q : Query) (key a : String) (h : aliasLookup q key = some a) : a ≠ "" := by
  rw [aliasLookup] at h
  have hmem : a ∈ (((q.tables.flatMap aliasKeys).filter fun e => e.1 = key).map Prod.snd).dedup := by
    split at h
    · rename_i a' hl
      obtain rfl := Option.some.inj h
      rw [hl]
      exact mem_singleton_self a'
    · cases h
  obtain ⟨e, he, rfl⟩ := mem_map.1 (mem_dedup.1 hmem)
  obtain ⟨t, _, ht⟩ := mem_flatMap.1 (mem_filter.1 he).1
  by_cases ha : strip t.aliasOrName = ""
  · simp [aliasKeys, ha] at ht
  · simp only [aliasKeys, if_neg ha] at ht
    obtain ⟨k, _, hk⟩ := mem_filterMap.1 ht
    by_cases hn : norm k = ""
    · rw [if_pos hn] at hk
      cases hk
    · rw [if_neg hn] at hk
      cases hk
      exact ha

/-- **Renaming.** A column of the query keeps its name and its source. -/
theorem keeps_rewriteColumnForStage (q : Query) (m : Dict String String) (h : NamesKept q) (r : ColumnRef)
    (hr : r ∈ q.columns) : Keeps (rewriteColumnForStage m (aliasLookup q)) r := by
  have htrim := h.trimmed r hr
  by_cases ht : r.table = ""
  · have hfc : (rewriteColumnForStage m (aliasLookup q) r).table = "" := by
      simp [rewriteColumnForStage, qualifierKeys, ht]
    exact ⟨rfl, by rw [hfc, ht]; exact sameName_refl "", ⟨fun _ => ht, fun _ => hfc⟩, rfl, rfl⟩
  · have hfc : sameName (rewriteColumnForStage m (aliasLookup q) r).table r.table = true ∧
        (rewriteColumnForStage m (aliasLookup q) r).table ≠ "" := by
      simp only [rewriteColumnForStage, htrim]
      cases hf : (qualifierKeys r).findSome? fun key => aliasLookup q (norm key) with
      | some a =>
        obtain ⟨key, hkey, ha⟩ := exists_of_findSome?_eq_some hf
        exact ⟨h.looked r hr key hkey a ha, aliasLookup_ne_empty q _ a ha⟩
      | none =>
        by_cases hs : r.table ≠ "" ∧ m.has r.table = true
        · simp only [if_pos hs, getD_some]
          exact ⟨sameName_refl _, ht⟩
        · simp only [if_neg hs, getD_none]
          exact ⟨sameName_refl _, ht⟩
    exact ⟨rfl, hfc.1, ⟨fun hc => absurd hc hfc.2, fun hc => absurd hc ht⟩, rfl, rfl⟩

/-! ## Scans of a plan -/

section Plan

variable (S : Sources) (vd : VirtualDataset) (q : Query) (plan : LogicalPlan) (dialects : Dict String String)
  (dialect : String)

/-- the filters of a scan -/
def pushedFilters (plan : LogicalPlan) (dialects : Dict String String) (dialect a : String) (ref : TableRef) :
    List Expr :=
  (predicateMap plan.where_ plan.tables.keys a).filter fun e =>
    canPushFilter e (some dialect) (some ((dialects.get? ref.sourceId).getD dialect))

/-- the same for an alias of the plan -/
def pushedOn (plan : LogicalPlan) (dialects : Dict String String) (dialect a : String) : List Expr :=
  ((plan.tables.get? a).map (pushedFilters plan dialects dialect a)).getD []

/-- some star or unqualified column makes every scan keep all columns -/
def keepsAll (q : Query) : Prop := q.hasStar = true ∨ hasUnqualified q = true

instance (q : Query) : Decidable (keepsAll q) := inferInstanceAs (Decidable (_ ∨ _))

/-- what the local stage knows of an alias -/
def planEntry : Layout := fun a => do
  let ref ← plan.tables.get? a
  let b ← vd.tables.get? ref.tableKey
  let T ← boundTable S b
  return ⟨T, scanCols (projectedColumns q a) T.cols, pushedFilters plan dialects dialect a ref⟩

/-- the scan of an alias runs on its source and keeps what the query reads of it -/
structure ScanOk (a : String) (ref : TableRef) (b : VirtualTableBinding) (T : Table) : Prop where
  binding : vd.tables.get? ref.tableKey = some b
  source : ref.sourceId = b.sourceId
  table : boundTable S b = some T
  named : a ≠ ""
  required : ∀ c ∈ requiredColumns q a, keepsAll q ∨ hasCol T.cols c = true
  spelled : ∀ r ∈ q.columns, r.table ≠ "" → sameName a r.table = true → hasCol T.cols r.name = true →
    keepsAll q ∨ requiredColumns q a = [] ∨ hasCol (requiredColumns q a) r.name = true
  filters : ∀ c ∈ pushedFilters plan dialects dialect a ref, Scannable a T.cols c

variable {S vd q plan dialects dialect}

omit [PyText] in
theorem star_mem_projectedColumns (a : String) (h : keepsAll q) : "*" ∈ projectedColumns q a := by
  simp only [projectedColumns]
  split_ifs with hu
  · exact mem_singleton_self _
  · have hmem : "*" ∈ requiredColumns q a := by
      rcases h with h | h
      · simp [requiredColumns, h]
      · simpa [h] using hu
    simpa using hmem

omit [PyText] in
theorem mem_projectedColumns (a c : String) (h : ¬ keepsAll q) : c ∈ projectedColumns q a ↔ c ∈ requiredColumns q a := by
  have hu : hasUnqualified q = false := by
    rw [← Bool.not_eq_true]
    exact fun hu => h (.inr hu)
  simp [projectedColumns, hu]

omit [PyText] in
theorem scanCols_of_keepsAll (a : String) (cols : List String) (h : keepsAll q) :
    scanCols (projectedColumns q a) cols = cols := by
  simp [scanCols, star_mem_projectedColumns a h]

variable {a : String} {ref : TableRef}

theorem pushedOn_eq (h : plan.tables.get? a = some ref) :
    pushedOn plan dialects dialect a = pushedFilters plan dialects dialect a ref := by
  rw [pushedOn, h]
  rfl

/-- a pushed filter is a conjunct of the planned `WHERE` clause -/
theorem mem_conjuncts_of_pushed {c : Expr}
    (hc : c ∈ pushedFilters plan dialects dialect a ref) : c ∈ plan.where_.toList.flatMap splitConjunctive :=
  (mem_filter.1 (mem_filter.1 hc).1).1

theorem ScanOk.entryOk {b : VirtualTableBinding} {T : Table} (h : ScanOk S vd q plan dialects dialect a ref b T) :
    EntryOk (· ∈ q.columns) (keepsAll q) a
      ⟨T, scanCols (projectedColumns q a) T.cols, pushedFilters plan dialects dialect a ref⟩ where
  full hfull := scanCols_of_keepsAll a T.cols hfull
  cover r hr ht hs hcol := by
    by_cases hfull : keepsAll q
    · simpa only [scanCols_of_keepsAll a T.cols hfull] using hcol
    · simp only [scanCols]
      split_ifs with hall
      · exact hcol
      · rcases (h.spelled r hr ht hs hcol).resolve_left hfull with hnil | hc
        · have hempty : (projectedColumns q a).isEmpty = true := by
            rw [List.isEmpty_iff, List.eq_nil_iff_forall_not_mem]
            intro c hc
            rw [mem_projectedColumns a c hfull, hnil] at hc
            cases hc
          rw [hempty] at hall
          exact absurd rfl hall
        · obtain ⟨c, hc, hcr⟩ := (hasCol_iff _ _).1 hc
          exact (hasCol_iff _ _).2 ⟨c, (mem_projectedColumns a c hfull).2 hc, hcr⟩

theorem ScanOk.run {b : VirtualTableBinding} {T : Table} (I : Interp)
    (h : ScanOk S vd q plan dialects dialect a ref b T) :
    runStage I S (scanSubplan plan q dialects dialect a ref b) =
      some (scanStage a, StageEntry.stage I
        ⟨T, scanCols (projectedColumns q a) T.cols, pushedFilters plan dialects dialect a ref⟩) := by
  have hP : (projectedColumns q a).isEmpty = true ∨ "*" ∈ projectedColumns q a ∨
      ∀ c ∈ projectedColumns q a, hasCol T.cols c = true := by
    by_cases hfull : keepsAll q
    · exact .inr (.inl (star_mem_projectedColumns a hfull))
    · refine .inr (.inr fun c hc => ?_)
      exact (h.required c ((mem_projectedColumns a c hfull).1 hc)).resolve_left hfull
  have hrun := scan_run I (projectedColumns q a) (pushedFilters plan dialects dialect a ref) h.named h.table hP
    h.filters
  rw [runStage, scanSubplan]
  simp only [h.source]
  rw [← h.source] at hrun ⊢
  simp only [pushedFilters] at hrun ⊢
  rw [hrun]
  rfl

end Plan

/-! ## The whole plan -/

section Local

variable (I : Interp) (S : Sources) (vd : VirtualDataset) (q : Query) (plan : LogicalPlan)
  (dialects : Dict String String) (dialect : String)

/-- a select under the `WITH` names `scope` reads its base tables through the scans of their aliases, its `WITH`
entries through none, and makes up for the filters of the scans -/
structure SelectSound (scope : List String) (s : Select) : Prop where
  ctes : ∀ t ∈ s.tables, isCteRef scope t = true → t.aliasOrName ∉ plan.tables.keys
  bound : ∀ t ∈ s.tables, isCteRef scope t = false → ∃ ref b, plan.tables.get? t.aliasOrName = some ref ∧
    vd.tables.get? ref.tableKey = some b ∧ resolveBinding t vd = .ok b
  visible : ∀ t ∈ s.tables, isCteRef scope t = false →
    (scope.any fun n => sameName n (scanStage t.aliasOrName)) = false
  absorbs : ∀ (i : ℕ) t en, s.sources[i]? = some (.table t) → isCteRef scope t = false →
    planEntry S vd q plan dialects dialect t.aliasOrName = some en → en.filters ≠ [] →
      Absorbs I s i t.aliasOrName en

/-- the obligations under which the plan means what the query means -/
structure Sound : Prop where
  scans : ∀ a ref, plan.tables.get? a = some ref → ∃ b T, ScanOk S vd q plan dialects dialect a ref b T
  distinct : ∀ a ∈ plan.tables.keys, ∀ a' ∈ plan.tables.keys, sameName a a' = true → a = a'
  names : NamesKept q
  named : ∀ r ∈ q.columns, r.name ≠ ""
  selects : ∀ x ∈ q.scopedBodies [], ∀ s, x.2 = .select s → SelectSound I S vd q plan dialects dialect x.1 s

/-- the output of the scan of an alias -/
def stageOf (a : String) : Table :=
  ((planEntry S vd q plan dialects dialect a).map (StageEntry.stage I)).getD ⟨[], []⟩

/-- the outputs of all scans -/
def planStages : List (String × Table) :=
  plan.tables.keys.map fun a => (scanStage a, stageOf I S vd q plan dialects dialect a)

variable {I S vd q plan dialects dialect}

variable {a : String}

theorem ScanOk.entry {ref : TableRef} {b : VirtualTableBinding} {T : Table}
    (h : ScanOk S vd q plan dialects dialect a ref b T) (ha : plan.tables.get? a = some ref) :
    planEntry S vd q plan dialects dialect a =
      some ⟨T, scanCols (projectedColumns q a) T.cols, pushedFilters plan dialects dialect a ref⟩ := by
  simp [planEntry, ha, h.binding, h.table]

/-- the filters the scan of an alias applies -/
theorem filters_of_entry {en : StageEntry} (h : planEntry S vd q plan dialects dialect a = some en) :
    en.filters = pushedOn plan dialects dialect a := by
  obtain ⟨ref, href, h⟩ := bind_eq_some_iff.1 h
  obtain ⟨b, _, h⟩ := bind_eq_some_iff.1 h
  obtain ⟨T, _, h⟩ := bind_eq_some_iff.1 h
  cases h
  exact (pushedOn_eq href).symm

/-- the entry of an alias whose scan runs, and its filters -/
theorem Absorbs.of_scan {s : Select} {i : ℕ} {ref : TableRef} {b : VirtualTableBinding} {T : Table}
    {en : StageEntry} (hscan : ScanOk S vd q plan dialects dialect a ref b T) (ha : plan.tables.get? a = some ref)
    (hen : planEntry S vd q plan dialects dialect a = some en)
    (hconj : ∀ c ∈ pushedOn plan dialects dialect a, c ∈ s.conjuncts)
    (hrej : i ∈ Joins.nullable s.joinShape → ∃ c ∈ pushedOn plan dialects dialect a, rowHolds I none c = false) :
    Absorbs I s i a en := by
  have hfil := filters_of_entry hen
  rw [hscan.entry ha] at hen
  cases hen
  rw [← hfil] at hconj hrej
  refine ⟨hconj, fun c hc => (hscan.filters c hc).closed, fun c hc r hr => ?_, hrej⟩
  obtain ⟨hcol, htable⟩ := (hscan.filters c hc).own r hr
  by_cases hr0 : r.table = ""
  · exact .inr ⟨hr0, hcol⟩
  · exact .inl ⟨hr0, htable.resolve_left hr0⟩

/-- the aliases of the plan are the scanned ones -/
theorem Sound.isSome_entry (h : Sound I S vd q plan dialects dialect) (a : String) :
    (planEntry S vd q plan dialects dialect a).isSome = true ↔ a ∈ plan.tables.keys := by
  rw [mem_keys_iff]
  constructor
  · intro he
    obtain ⟨en, hen⟩ := isSome_iff_exists.1 he
    obtain ⟨ref, href, _⟩ := bind_eq_some_iff.1 hen
    exact ⟨ref, href⟩
  · rintro ⟨ref, href⟩
    obtain ⟨b, T, hscan⟩ := h.scans a ref href
    rw [hscan.entry href, isSome_some]

omit [PyText] in
theorem find?_of_unique {α : Type} (p : α → Bool) (l : List α) (a : α) (ha : a ∈ l) (hp : p a = true)
    (hu : ∀ b ∈ l, p b = true → b = a) : l.find? p = some a := by
  cases hf : l.find? p with
  | none => exact absurd hp (find?_eq_none.1 hf a ha)
  | some b => rw [hu b (mem_of_find?_eq_some hf) (find?_some hf)]

/-- the local engine finds the output of a scan under its stage name -/
theorem localWorld_stage (h : Sound I S vd q plan dialects dialect) (a : String) (ha : a ∈ plan.tables.keys)
    (en : StageEntry) (hen : planEntry S vd q plan dialects dialect a = some en) :
    (localWorld (planStages I S vd q plan dialects dialect)).table ⟨scanStage a, "", "", a⟩ = some (en.stage I) := by
  have hstage : stageOf I S vd q plan dialects dialect a = en.stage I := by rw [stageOf, hen]; rfl
  have hfind : (planStages I S vd q plan dialects dialect).reverse.find? (fun e => sameName e.1 (scanStage a)) =
      some (scanStage a, stageOf I S vd q plan dialects dialect a) := by
    refine find?_of_unique _ _ _ ?_ (sameName_refl _) ?_
    · exact mem_reverse.2 (mem_map.2 ⟨a, ha, rfl⟩)
    · intro e he hs
      obtain ⟨a', ha', rfl⟩ := mem_map.1 (mem_reverse.1 he)
      rw [h.distinct a' ha' a ha ((sameName_scanStage a' a).symm.trans hs)]
  simp [localWorld, hfind, hstage]

omit [PyText] in
theorem mapM_map_map {α β γ δ : Type} (f : α → Option β) (g : γ → Option δ) (u : β → γ) (k : α → δ) (l : List α)
    (r : List β) (hr : l.mapM f = some r) (h : ∀ a ∈ l, ∀ b, f a = some b → g (u b) = some (k a)) :
    (r.map u).mapM g = some (l.map k) := by
  rw [mapM_some_iff, List.forall₂_map_left_iff, List.forall₂_map_right_iff]
  exact (((List.forall₂_and_left _ _).2 ⟨h, mapM_some_iff.1 hr⟩).imp fun a b hab => hab.1 b hab.2).flip

/-- **Scans.** All of them run, and these are their outputs. -/
theorem stages_run (h : Sound I S vd q plan dialects dialect)
    (bound : List (String × TableRef × VirtualTableBinding)) (hb : boundTables plan vd = some bound) :
    (bound.map fun e => scanSubplan plan q dialects dialect e.1 e.2.1 e.2.2).mapM (runStage I S) =
      some (planStages I S vd q plan dialects dialect) := by
  have hkeys : planStages I S vd q plan dialects dialect =
      plan.tables.entries.map fun e => (scanStage e.1, stageOf I S vd q plan dialects dialect e.1) := by
    rw [planStages, Dict.keys, List.map_map]
    rfl
  rw [hkeys]
  refine mapM_map_map _ _ _ _ _ _ hb fun e he x hx => ?_
  obtain ⟨b, hbind, rfl⟩ := map_eq_some_iff.1 hx
  have href : plan.tables.get? e.1 = some e.2 := (get?_eq_some_iff _ _ _).2 he
  obtain ⟨b', T, hscan⟩ := h.scans e.1 e.2 href
  obtain rfl : b = b' := by rw [hscan.binding] at hbind; exact (Option.some.inj hbind).symm
  rw [hscan.run I, stageOf, hscan.entry href]
  rfl

/-- the tables of the rewritten query -/
theorem rewriteTableForStage_eq (h : Sound I S vd q plan dialects dialect) :
    rewriteTableForStage (stageTableMap plan) = stageNode (planEntry S vd q plan dialects dialect) := by
  funext t
  have hmap : (stageTableMap plan).get? t.aliasOrName =
      (plan.tables.get? t.aliasOrName).map fun _ => scanStage t.aliasOrName := by
    exact lookup_map_key scanStage plan.tables.entries t.aliasOrName
  have hiff := h.isSome_entry t.aliasOrName
  rw [mem_keys_iff] at hiff
  rw [rewriteTableForStage, hmap, stageNode]
  cases href : plan.tables.get? t.aliasOrName with
  | none =>
    cases hen : planEntry S vd q plan dialects dialect t.aliasOrName with
    | none => rfl
    | some en => simp [hen, href] at hiff
  | some ref =>
    cases hen : planEntry S vd q plan dialects dialect t.aliasOrName with
    | none => simp [hen, href] at hiff
    | some en => rfl

omit [PyText] in
theorem mem_labels_of_scopedBodies (q : Query) (scope : List String) (x : List String × Body)
    (hx : x ∈ q.scopedBodies scope) : x.2 ∈ q.labels := by
  induction q using Rose.induction generalizing scope with
  | h b cs ih =>
    have hscope : ∀ (names scope : List String) (cs : List Query),
        (∀ c ∈ cs, ∀ scope, x ∈ c.scopedBodies scope → x.2 ∈ c.labels) →
        x ∈ (scopeChildren names (cs.map Query.scopedBodies) scope).flatten → ∃ c ∈ cs, x.2 ∈ c.labels := by
      intro names
      induction names with
      | nil =>
        intro scope cs hcs hx
        rw [scopeChildren, List.map_map] at hx
        obtain ⟨l, hl, hx⟩ := mem_flatten.1 hx
        obtain ⟨c, hc, rfl⟩ := mem_map.1 hl
        exact ⟨c, hc, hcs c hc scope hx⟩
      | cons n ns ihn =>
        intro scope cs hcs hx
        cases cs with
        | nil => cases hx
        | cons c cs =>
          rcases mem_append.1 hx with hx | hx
          · exact ⟨c, mem_cons_self, hcs c mem_cons_self scope hx⟩
          · obtain ⟨c', hc', hl⟩ := ihn (n :: scope) cs (fun c' hc' => hcs c' (mem_cons_of_mem c hc')) hx
            exact ⟨c', mem_cons_of_mem c hc', hl⟩
    rw [Query.scopedBodies, Rose.fold_node] at hx
    rcases mem_cons.1 hx with rfl | hx
    · exact Rose.label_mem_labels (.node b cs)
    · obtain ⟨c, hc, hl⟩ := hscope b.cteNames scope cs (fun c hc scope => ih c hc scope) hx
      exact Rose.mem_labels_of_child hc hl

theorem Sound.tracked (h : Sound I S vd q plan dialects dialect) (b : Body) (hb : b ∈ q.labels) (r : ColumnRef)
    (hr : r ∈ b.columns) :
    Tracked (· ∈ q.columns) (keepsAll q) (rewriteColumnForStage (stageTableMap plan) (aliasLookup q)) r where
  needed := mem_flatMap.2 ⟨b, hb, hr⟩
  keeps := keeps_rewriteColumnForStage q _ h.names r (mem_flatMap.2 ⟨b, hb, hr⟩)
  qualified := by
    have hq : r ∈ q.columns := mem_flatMap.2 ⟨b, hb, hr⟩
    by_cases ht : r.table = ""
    · refine .inl (.inr (any_eq_true.2 ⟨r, hq, ?_⟩))
      simpa [ht] using h.named r hq
    · exact .inr ht

theorem SelectSound.tableOk (h : Sound I S vd q plan dialects dialect) {scope : List String} {s : Select}
    (hs : SelectSound I S vd q plan dialects dialect scope s) (t : TableNode) (ht : t ∈ s.tables) :
    TableOk (· ∈ q.columns) (keepsAll q) I (directWorld S vd) (localWorld (planStages I S vd q plan dialects dialect))
      (planEntry S vd q plan dialects dialect) scope t := by
  have hiff := h.isSome_entry t.aliasOrName
  rw [TableOk]
  by_cases hc : isCteRef scope t = true
  · rw [if_pos hc, ← not_isSome_iff_eq_none, hiff]
    exact hs.ctes t ht hc
  · rw [if_neg hc]
    rw [Bool.not_eq_true] at hc
    obtain ⟨ref, b, href, hb, hres⟩ := hs.bound t ht hc
    obtain ⟨b', T, hscan⟩ := h.scans _ ref href
    obtain rfl : b = b' := by rw [hscan.binding] at hb; exact (Option.some.inj hb).symm
    have hen := hscan.entry href
    have hnode : stageNode (planEntry S vd q plan dialects dialect) t =
        ⟨scanStage t.aliasOrName, "", "", t.aliasOrName⟩ := by rw [stageNode, hen]
    refine ⟨_, hen, ?_, ?_, hscan.named, hs.visible t ht hc, hscan.entryOk⟩
    · simpa [directWorld, hres, Except.toOption] using hscan.table
    · rw [hnode]
      exact localWorld_stage h _ (hiff.1 (by rw [hen]; rfl)) _ hen

theorem Sound.bodyOk (h : Sound I S vd q plan dialects dialect) (x : List String × Body)
    (hx : x ∈ q.scopedBodies []) :
    BodyOk (· ∈ q.columns) (keepsAll q) (rewriteColumnForStage (stageTableMap plan) (aliasLookup q)) I
      (directWorld S vd) (localWorld (planStages I S vd q plan dialects dialect))
      (planEntry S vd q plan dialects dialect) x.1 x.2 := by
  obtain ⟨scope, b⟩ := x
  have hb : b ∈ q.labels := mem_labels_of_scopedBodies q [] _ hx
  have htrack := h.tracked b hb
  cases b with
  | wrap => trivial
  | setOp op ctes rest =>
    intro e he r hr
    exact htrack r (mem_flatMap.2 ⟨e, he, hr⟩)
  | select s =>
    have hs := h.selects _ hx s rfl
    refine ⟨htrack, fun hstar => .inl (any_eq_true.2 ⟨_, hb, hstar⟩), ?_, ?_⟩
    · intro t ht
      exact hs.tableOk h t (mem_filterMap.2 ⟨_, ht, rfl⟩)
    · intro i t en hi hen
      rw [entryOf] at hen
      split_ifs at hen with hc
      exact hs.absorbs i t en hi (by simpa using hc) hen

/-- **The plan.** Under the obligations, a plan that scans its tables returns what the query returns on the bound
tables. -/
theorem federated_of_sound (h : Sound I S vd q plan dialects dialect) (op : OptimizedPlan)
    (hop : optimize plan q vd dialects dialect = some op) (hnp : op.pushdownFullQuery = false) (t : Table)
    (ht : direct I S vd q = some t) : federated I S op = some t := by
  obtain ⟨bound, hb, hop⟩ := bind_eq_some_iff.1 hop
  have hplan : op = ⟨plan, bound.map fun e => scanSubplan plan q dialects dialect e.1 e.2.1 e.2.2,
      rewriteTablesToStage q (stageTableMap plan), false⟩ := by
    split_ifs at hop with hpush
    · obtain ⟨ref, _, hop⟩ := bind_eq_some_iff.1 hop
      cases hop
      cases hnp
    · exact (Option.some.inj hop).symm
  have hrel := denote_rel (W := directWorld S vd) (fun _ => rfl) q [] fun x hx => h.bodyOk x hx
  obtain ⟨d, hd, rfl⟩ := map_eq_some_iff.1 ht
  obtain ⟨d', hd', hcols, hrows⟩ := hrel [] ⟨[], []⟩ ⟨[], []⟩ ⟨rfl, .nil⟩ rfl d hd
  have hlocal : run I (localWorld (planStages I S vd q plan dialects dialect)) op.localStageSql =
      some ⟨d.cols, d.rows ⟨[], []⟩⟩ := by
    rw [hplan, run, rewriteTablesToStage, rewriteTableForStage_eq h, hd', map_some, hcols,
      hrows _ ⟨[], []⟩ ⟨rfl, .nil⟩]
  have hstages : op.sourceSubplans.mapM (runStage I S) = some (planStages I S vd q plan dialects dialect) := by
    rw [hplan]
    exact stages_run h bound hb
  simp only [federated, hstages, hlocal, bind_eq_bind, bind_some]

end Local

end Langbridge.Federation
