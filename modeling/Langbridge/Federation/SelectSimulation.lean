/-
The simulation of whole selects and queries: select lists and clauses read the same leaves, the sources of a rewritten
select hold the filtered and projected rows of the original ones, and a `WHERE` clause that contains the filters makes
up for what the filtered inputs lost (`Joins.filter_restrict_of_keeps`).

`StageEntry` is what the federated side knows of one alias: the table it is bound to, the columns its scan keeps and
the filters its scan applies. `BodyOk` collects what a body must satisfy for the rewriting to be sound there.

Main results: `elabSelect_rel`, `denote_rel`.
-/
import Langbridge.Federation.Simulation

namespace Langbridge.Federation.Sql

open Core Core.Joins List PyText Option

section Lists

variable {α β γ : Type}

theorem mapM_map_of_imp (f : α → Option β) (g : γ → Option β) (h : α → γ) (l : List α) (r : List β)
    (hfg : ∀ a ∈ l, ∀ b, f a = some b → g (h a) = some b) (hr : l.mapM f = some r) :
    (l.map h).mapM g = some r := by
  rw [mapM_some_iff, List.forall₂_map_left_iff]
  exact ((List.forall₂_and_left _ _).2 ⟨hfg, mapM_some_iff.1 hr⟩).imp fun a b hab => hab.1 b hab.2

theorem mapM_congr (f g : α → Option β) (l : List α) (h : ∀ a ∈ l, f a = g a) : l.mapM f = l.mapM g := by
  induction l with
  | nil => rfl
  | cons a l ih =>
    rw [mapM_cons, mapM_cons, h a mem_cons_self, ih fun b hb => h b (mem_cons_of_mem a hb)]

theorem forall_of_mapM (f : α → Option β) (Q : β → Prop) (l : List α) (r : List β)
    (h : ∀ a ∈ l, ∀ b, f a = some b → Q b) (hr : l.mapM f = some r) : ∀ b ∈ r, Q b := by
  intro b hb
  obtain ⟨a, ha, hab⟩ := forall₂_exists_left (mapM_some_iff.1 hr) b hb
  exact h a ha b hab

theorem getElem?_of_mapM (f : α → Option β) (l : List α) (r : List β) (hr : l.mapM f = some r) (i : ℕ) (a : α)
    (ha : l[i]? = some a) : ∃ b, r[i]? = some b ∧ f a = some b := by
  have hall := mapM_some_iff.1 hr
  obtain ⟨hi, rfl⟩ := List.getElem?_eq_some_iff.1 ha
  have hi' : i < r.length := hall.length_eq ▸ hi
  exact ⟨r[i], getElem?_eq_getElem hi', hall.get hi hi'⟩

end Lists

variable [PyText]

/-! ## Select lists -/

section Leaves

variable {need : ColumnRef → Prop} {full : Prop} {fc : ColumnRef → ColumnRef} {ms : List (ℕ → Row → Row)}
  {Γ Γ' : Static} {scope : List String} {subs subs' : List Meaning}

/-- without a lost column, a column without qualifier resolves to the same under both readings, or under neither -/
theorem resolve_unqualified {fs fs' : List Frame} (h : FramesRel need full ms fs fs') (r : ColumnRef)
    (hr : Tracked need full fc r) (ht : r.table = "") : resolve fs' (fc r) = resolve fs r := by
  have hfull : full := hr.qualified.resolve_right (fun hq => hq ht)
  have ht' : (fc r).table = "" := hr.keeps.table_empty.2 ht
  induction h with
  | nil => rfl
  | @cons maps fs fs' ms f f' hf _ ih =>
    have hidx : indicesOf (fun s => hasCol s.cols (fc r).name) f' = indicesOf (fun s => hasCol s.cols r.name) f := by
      rw [indicesOf, indicesOf, hf.length]
      refine filter_congr fun i _ => hf.any_eq i _ _ fun s s' _ hs => ?_
      rw [hs.full hfull, hr.keeps.name]
    have hl : lookupFrame f' (fc r) = lookupFrame f r := by
      rw [lookupFrame, lookupFrame, if_pos ht, if_pos ht', hidx]
    rw [resolve, resolve, hl, ih, hr.keeps.name]

/-- the cells of leaves are the same under both readings -/
def CellsRel (ms : List (ℕ → Row → Row)) (subs subs' : List Meaning) (Γ Γ' : Static) (ls : List Leaf) : Prop :=
  ∀ δ δ', DynRel ms δ δ' → ∀ l ∈ ls, Leaf.cell subs' Γ' δ' l = Leaf.cell subs Γ δ l

theorem cellsRel_flatten (lss : List (List Leaf)) (h : ∀ ls ∈ lss, CellsRel ms subs subs' Γ Γ' ls) :
    CellsRel ms subs subs' Γ Γ' lss.flatten := by
  intro δ δ' hδ l hl
  obtain ⟨ls, hls, hl⟩ := mem_flatten.1 hl
  exact h ls hls δ δ' hδ l hl

section Related

variable (hsub : SubsRel need full scope subs subs') (hΓ : StaticRel need full ms Γ Γ')
  (hscope : Γ.ctes.map Prod.fst = scope)

include hsub hΓ hscope

theorem leafOf_rel (outputs : List String) (first : Bool) (n : Node)
    (hn : ∀ r, n = .column r → Tracked need full fc r) (ls : List Leaf)
    (h : leafOf subs Γ outputs first n = some ls) :
    leafOf subs' Γ' outputs first (n.mapColumn fc) = some ls ∧ CellsRel ms subs subs' Γ Γ' ls := by
  cases n with
  | column r =>
    have hr := hn r rfl
    have hout : ∀ δ δ', DynRel ms δ δ' → ∀ l ∈ [Leaf.output (lower r.name)],
        Leaf.cell subs' Γ' δ' l = Leaf.cell subs Γ δ l := by
      intro δ δ' _ l hl
      rw [mem_singleton.1 hl]
      rfl
    have hslot : ∀ s, resolve Γ.frames r = some s → resolve Γ'.frames (fc r) = some s ∧
        CellsRel ms subs subs' Γ Γ' [.slot s] := by
      intro s hs
      obtain ⟨hres, hval⟩ := resolve_rel hΓ.frames r hr s hs
      refine ⟨hres, fun δ δ' hδ l hl => ?_⟩
      rw [mem_singleton.1 hl]
      exact congrArg Cell.val (hval δ δ' hδ.frames)
    simp only [leafOf, Node.mapColumn, hr.keeps.table_empty, hr.keeps.name] at h ⊢
    by_cases ho : r.table = "" ∧ hasCol outputs r.name = true
    · have hres := resolve_unqualified hΓ.frames r hr ho.1
      rw [if_pos ho] at h ⊢
      rw [hres]
      refine ⟨h, ?_⟩
      cases hs : resolve Γ.frames r with
      | none =>
        simp only [hs, map_none] at h
        obtain rfl : [Leaf.output (lower r.name)] = ls := by cases first <;> simpa using h
        exact hout
      | some s =>
        simp only [hs, map_some] at h
        cases first with
        | true =>
          obtain rfl : [Leaf.output (lower r.name)] = ls := by simpa using h
          exact hout
        | false =>
          obtain rfl : [Leaf.slot s] = ls := by simpa using h
          exact (hslot s hs).2
    · rw [if_neg ho] at h ⊢
      have hmap : (resolve Γ.frames r).map (fun s => [Leaf.slot s]) = some ls := by cases first <;> simpa using h
      obtain ⟨s, hs, rfl⟩ := map_eq_some_iff.1 hmap
      obtain ⟨hres, hcells⟩ := hslot s hs
      rw [hres]
      refine ⟨?_, hcells⟩
      cases first <;> rfl
  | sub i =>
    obtain ⟨d, hd, rfl⟩ := map_eq_some_iff.1 h
    obtain ⟨d', hd', _⟩ := sub_rel hsub hΓ hscope i d hd
    refine ⟨by simp only [Node.mapColumn, leafOf, hd', map_some], fun δ δ' hδ l hl => ?_⟩
    rw [mem_singleton.1 hl]
    exact congrArg Cell.rows (subValue_rel hsub hΓ hscope hδ i (by rw [hd]; rfl))
  | _ =>
    obtain rfl : [] = ls := by simpa [leafOf] using h
    exact ⟨rfl, fun _ _ _ l hl => absurd hl not_mem_nil⟩

theorem leavesOf_rel (outputs : List String) (first : Bool) (e : Expr)
    (he : TrackedAll need full fc e) (ls : List Leaf) (h : leavesOf subs Γ outputs first e = some ls) :
    leavesOf subs' Γ' outputs first (e.mapColumns fc) = some ls ∧ CellsRel ms subs subs' Γ Γ' ls := by
  obtain ⟨lss, hlss, rfl⟩ := map_eq_some_iff.1 h
  have hn : ∀ n ∈ e.labels, ∀ ls, leafOf subs Γ outputs first n = some ls →
      leafOf subs' Γ' outputs first (n.mapColumn fc) = some ls ∧ CellsRel ms subs subs' Γ Γ' ls := by
    intro n hn ls hls
    refine leafOf_rel hsub hΓ hscope outputs first n (fun r hr => he r ?_) ls hls
    exact (Expr.mem_columns e r).2 (hr ▸ hn)
  constructor
  · rw [leavesOf, Expr.mapColumns, Rose.labels_map,
      mapM_map_of_imp _ _ _ _ lss (fun n hm b hb => (hn n hm b hb).1) hlss, map_some]
  · exact cellsRel_flatten lss (forall_of_mapM _ _ _ lss (fun n hm b hb => (hn n hm b hb).2) hlss)

theorem clauseLeaves_rel (outputs : List String) (c : String × List Expr)
    (hc : ∀ e ∈ c.2, TrackedAll need full fc e) (ls : List Leaf) (h : clauseLeaves subs Γ outputs c = some ls) :
    clauseLeaves subs' Γ' outputs (c.1, c.2.map (Expr.mapColumns fc)) = some ls ∧
      CellsRel ms subs subs' Γ Γ' ls := by
  obtain ⟨lss, hlss, rfl⟩ := map_eq_some_iff.1 h
  have he := fun e he ls => leavesOf_rel hsub hΓ hscope outputs (c.1 = "order") e (hc e he) ls
  constructor
  · rw [clauseLeaves, mapM_map_of_imp _ _ _ _ lss (fun e hm b hb => (he e hm b hb).1) hlss, map_some]
  · exact cellsRel_flatten lss (forall_of_mapM _ _ _ lss (fun e hm b hb => (he e hm b hb).2) hlss)

theorem elabRest_rel (outputs : List String) (rest : List (String × List Expr))
    (hrest : ∀ e ∈ rest.flatMap Prod.snd, TrackedAll need full fc e) (ls : List Leaf)
    (h : elabRest subs Γ outputs rest = some ls) :
    elabRest subs' Γ' outputs (mapRest fc rest) = some ls ∧ CellsRel ms subs subs' Γ Γ' ls := by
  obtain ⟨lss, hlss, rfl⟩ := map_eq_some_iff.1 h
  have hc := fun c hc ls => clauseLeaves_rel hsub hΓ hscope outputs c
    (fun e he => hrest e (mem_flatMap.2 ⟨c, hc, he⟩)) ls
  constructor
  · rw [elabRest, mapRest, mapM_map_of_imp _ _ _ _ lss (fun c hm b hb => (hc c hm b hb).1) hlss, map_some]
  · exact cellsRel_flatten lss (forall_of_mapM _ _ _ lss (fun c hm b hb => (hc c hm b hb).2) hlss)

end Related

variable {f f' : Frame} {maps : ℕ → Row → Row}

theorem FrameRel.map_eq {α : Type} {g : Source → α} (h : FrameRel need full f f' maps)
    (hg : ∀ i s s', SourceRel need full s s' (maps i) → g s' = g s) : f'.map g = f.map g := by
  refine ext_getElem? fun i => ?_
  rw [getElem?_map, getElem?_map]
  cases hs : f[i]? with
  | none =>
    have hlen : f.length ≤ i := getElem?_eq_none_iff.1 hs
    rw [getElem?_eq_none (by rw [h.length]; exact hlen)]
  | some s =>
    obtain ⟨s', hs', hrel⟩ := h.source i s hs
    rw [hs', map_some, map_some, hg i s s' hrel]

/-- without a lost column the sources have the same columns -/
theorem FrameRel.cols_eq (h : FrameRel need full f f' maps) (hfull : full) :
    f'.map Source.cols = f.map Source.cols :=
  h.map_eq fun _ _ _ hrel => hrel.full hfull

omit [PyText] in
/-- the columns of all sources, in order -/
theorem star_eq (f : Frame) :
    (f.zipIdx.flatMap fun e => starOf e.2 e.1) =
      (f.map Source.cols).zipIdx.flatMap fun e => starOf e.2 ⟨"", "", "", e.1⟩ := by
  rw [zipIdx_map, flatMap_map]
  rfl

theorem starOf_cells (hf : FrameRel need full f f' maps) (hfull : full) (i : ℕ) (s : Source) (hs : f[i]? = some s) :
    CellsRel (maps :: ms) subs subs' Γ Γ' ((starOf i s).flatMap OutCol.leaves) := by
  intro δ δ' hδ l hl
  obtain ⟨o, ho, hl⟩ := mem_flatMap.1 hl
  obtain ⟨c, hc, rfl⟩ := mem_map.1 ho
  rw [mem_singleton.1 hl]
  obtain ⟨s', hs', hrel⟩ := hf.source i s hs
  have hcol : hasCol s'.cols c = true := by
    rw [hrel.full hfull]
    exact (hasCol_iff s.cols c).2 ⟨c, hc, sameName_refl c⟩
  obtain ⟨dc, df⟩ := δ
  obtain ⟨dc', df'⟩ := δ'
  have hframes := hδ.frames
  cases hframes with
  | cons e hes => exact congrArg Cell.val (by simpa [Dyn.value] using getOr_mapEnv hf e i s' hs' c hcol)

/-- what a select list must satisfy: a star needs that no column is lost -/
def ItemOk (need : ColumnRef → Prop) (full : Prop) (fc : ColumnRef → ColumnRef) (it : Item) : Prop :=
  (∀ r ∈ it.columns, Tracked need full fc r) ∧ (it.hasStar = true → full)

theorem defaultName_mapColumns (e : Expr) (he : TrackedAll need full fc e) :
    defaultName (e.mapColumns fc) = defaultName e := by
  obtain ⟨n, cs⟩ := e
  cases n with
  | column r =>
    have hr := he r ((Expr.mem_columns _ r).2 (by simp))
    exact hr.keeps.name
  | _ => rfl

omit [PyText] in
theorem shape_mapColumns (e : Expr) : (e.mapColumns fc).shape = e.shape := by
  rw [Expr.shape, Expr.shape, Expr.mapColumns, Expr.mapColumns, Expr.mapColumns, Rose.map_map]
  refine Rose.map_congr _ _ e fun n _ => ?_
  cases n <;> rfl

theorem elabItem_rel (hsub : SubsRel need full scope subs subs')
    (hΓ : StaticRel need full (maps :: ms) Γ Γ') (hscope : Γ.ctes.map Prod.fst = scope)
    (hf : FrameRel need full f f' maps) (it : Item) (hit : ItemOk need full fc it) (outs : List OutCol)
    (h : elabItem subs Γ f it = some outs) :
    elabItem subs' Γ' f' (it.mapRefs fc) = some outs ∧
      CellsRel (maps :: ms) subs subs' Γ Γ' (outs.flatMap OutCol.leaves) := by
  cases it with
  | star =>
    have hfull : full := hit.2 rfl
    obtain rfl : (f.zipIdx.flatMap fun e => starOf e.2 e.1) = outs := by simpa [elabItem] using h
    constructor
    · rw [Item.mapRefs, elabItem, star_eq, hf.cols_eq hfull, ← star_eq]
    · intro δ δ' hδ l hl
      obtain ⟨o, ho, hl⟩ := mem_flatMap.1 hl
      obtain ⟨⟨s, i⟩, hsi, ho⟩ := mem_flatMap.1 ho
      have hs : f[i]? = some s := mem_zipIdx_iff_getElem?.1 hsi
      exact starOf_cells hf hfull i s hs δ δ' hδ l (mem_flatMap.2 ⟨o, ho, hl⟩)
  | tableStar r =>
    have hfull : full := hit.2 rfl
    have hr : Tracked need full fc r := hit.1 r (mem_singleton.2 rfl)
    have hfind : (f'.findIdx? fun s => sameName s.aliasName (fc r).table) =
        f.findIdx? fun s => sameName s.aliasName r.table := by
      refine findIdx?_congr _ _ f f' hf.length fun i s s' hs hs' => ?_
      obtain ⟨s'', hs'', hrel⟩ := hf.source i s hs
      rw [hs', Option.some.injEq] at hs''
      rw [hs'', hrel.aliasName, sameName_congr hr.keeps.table]
    simp only [elabItem] at h
    cases hi : f.findIdx? fun s => sameName s.aliasName r.table with
    | none => simp [hi] at h
    | some i =>
      simp only [hi] at h
      split_ifs at h with ha
      obtain ⟨s, hs, _⟩ := (any_eq_true _ _).1 ha
      obtain ⟨s', hs', hrel⟩ := hf.source i s hs
      obtain rfl : starOf i s = outs := by simpa [hs] using h
      have hag : s'.agrees (fc r) = true := by simp [Source.agrees, hr.keeps.db, hr.keeps.catalog]
      have hstar : starOf i s' = starOf i s := by rw [starOf, starOf, hrel.full hfull]
      refine ⟨?_, starOf_cells hf hfull i s hs⟩
      simp [Item.mapRefs, elabItem, hfind, hi, hs', hag, hstar]
  | expr e a =>
    have he : TrackedAll need full fc e := hit.1
    obtain ⟨ls, hls, rfl⟩ := map_eq_some_iff.1 h
    obtain ⟨hls', hcells⟩ := leavesOf_rel hsub hΓ hscope [] false e he ls hls
    constructor
    · simp only [Item.mapRefs, elabItem, hls', map_some, defaultName_mapColumns e he, shape_mapColumns]
    · simpa using hcells

end Leaves

/-! ## Sources -/

/-- what the federated side knows of an alias: the table it is bound to, the columns and the filters of its scan -/
structure StageEntry where
  table : Table
  cols : List String
  filters : List Expr

/-- the output of the scan -/
def StageEntry.stage (I : Interp) (en : StageEntry) : Table :=
  ⟨en.cols, (en.table.rows.filter (passesFilters I en.filters)).map (Row.project en.cols)⟩

/-- the scanned aliases -/
abbrev Layout := String → Option StageEntry

def stageNode (lay : Layout) (t : TableNode) : TableNode :=
  match lay t.aliasOrName with
  | none => t
  | some _ => ⟨scanStage t.aliasOrName, "", "", t.aliasOrName⟩

/-- the entry that replaces a source -/
def entryOf (lay : Layout) (scope : List String) : FromItem → Option StageEntry
  | .table t => if isCteRef scope t then none else lay t.aliasOrName
  | _ => none

def filtersOf (lay : Layout) (scope : List String) (x : FromItem) : List Expr :=
  ((entryOf lay scope x).map StageEntry.filters).getD []

def mapOf (lay : Layout) (scope : List String) (x : FromItem) : Row → Row :=
  ((entryOf lay scope x).map fun en => Row.project en.cols).getD id

/-- the scan of an alias keeps what the query reads of it -/
structure EntryOk (need : ColumnRef → Prop) (full : Prop) (a : String) (en : StageEntry) : Prop where
  full : full → en.cols = en.table.cols
  cover : ∀ r, need r → r.table ≠ "" → sameName a r.table = true → hasCol en.table.cols r.name = true →
    hasCol en.cols r.name = true

/-- a table node means the same under the local stage: a `WITH` entry stays one, a base table is scanned, under a
stage name no `WITH` entry hides -/
def TableOk (need : ColumnRef → Prop) (full : Prop) (I : Interp) (W W' : World) (lay : Layout) (scope : List String)
    (t : TableNode) : Prop :=
  if isCteRef scope t then lay t.aliasOrName = none
  else ∃ en, lay t.aliasOrName = some en ∧ W.table t = some en.table ∧
    W'.table (stageNode lay t) = some (en.stage I) ∧ t.aliasOrName ≠ "" ∧
    (scope.any fun n => sameName n (scanStage t.aliasOrName)) = false ∧ EntryOk need full t.aliasOrName en

section Sources

variable {need : ColumnRef → Prop} {full : Prop} {fc : ColumnRef → ColumnRef} {ms : List (ℕ → Row → Row)}
  {Γ Γ' : Static} {scope : List String} {subs subs' : List Meaning} {I : Interp} {W W' : World} {lay : Layout}

theorem sourceRel_id (s : Source) : SourceRel need full s s id where
  aliasName := rfl
  get := fun _ _ _ => rfl
  full := fun _ => rfl
  cover := fun _ _ _ _ h => h

theorem cte?_isSome (Γ : Static) (n : String) :
    (Γ.cte? n).isSome = (Γ.ctes.map Prod.fst).any fun m => sameName m n := by
  rw [Static.cte?, isSome_map, Bool.eq_iff_iff, find?_isSome, List.any_eq_true]
  simp

/-- the lookup of a table node among the `WITH` entries -/
theorem cteLookup_eq (Γ : Static) (hscope : Γ.ctes.map Prod.fst = scope) (t : TableNode) :
    (if t.db = "" ∧ t.catalog = "" then Γ.cte? t.name else none).isSome = isCteRef scope t := by
  rw [isCteRef, ← hscope, ← cte?_isSome]
  by_cases h : t.db = "" ∧ t.catalog = ""
  · simp [h]
  · by_cases hd : t.db = ""
    · have hc : t.catalog ≠ "" := fun hc => h ⟨hd, hc⟩
      simp [hc]
    · simp [hd]

variable (hsub : SubsRel need full scope subs subs') (hΓ : StaticRel need full ms Γ Γ')
  (hscope : Γ.ctes.map Prod.fst = scope) (hraw : ∀ sql, W.raw sql = none)

include hsub hΓ hscope hraw

/-- **Sources.** The rewritten source holds the filtered and projected rows. -/
theorem elabSource_rel (x : FromItem)
    (hx : ∀ t, x = .table t → TableOk need full I W W' lay scope t) (s : Source) (rows : Dyn → List Row)
    (h : elabSource W subs Γ x = some (s, rows)) :
    ∃ s' rows', elabSource W' subs' Γ' (x.mapRefs (stageNode lay)) = some (s', rows') ∧
      SourceRel need full s s' (mapOf lay scope x) ∧
      ∀ δ δ', DynRel ms δ δ' →
        rows' δ' = ((rows δ).filter (passesFilters I (filtersOf lay scope x))).map (mapOf lay scope x) := by
  have htriv : ∀ (l : List Row), (l.filter (passesFilters I [])).map id = l := by
    intro l
    have hp : passesFilters I [] = fun _ => true := rfl
    rw [hp, filter_true, List.map_id]
  cases x with
  | raw sql a => simp [elabSource, hraw] at h
  | derived i a =>
    obtain ⟨d, hd, hs⟩ := map_eq_some_iff.1 h
    cases hs
    obtain ⟨d', hd', hcols, hrows⟩ := sub_rel hsub hΓ hscope i d hd
    refine ⟨⟨a, "", "", d'.cols⟩, d'.rows, by simp only [FromItem.mapRefs, elabSource, hd', map_some], ?_, ?_⟩
    · rw [hcols]
      exact sourceRel_id _
    · intro δ δ' hδ
      rw [hrows δ δ' hδ]
      exact (htriv _).symm
  | table t =>
    have ht := hx t rfl
    have hlook := cteLookup_eq Γ hscope t
    by_cases hc : isCteRef scope t = true
    · rw [TableOk, if_pos hc] at ht
      rw [hc] at hlook
      obtain ⟨cols, hcols⟩ := isSome_iff_exists.1 hlook
      simp only [elabSource, hcols, Option.some.injEq, Prod.mk.injEq] at h
      obtain ⟨rfl, rfl⟩ := h
      have hnode : stageNode lay t = t := by simp [stageNode, ht]
      have hcols' : (if t.db = "" ∧ t.catalog = "" then Γ'.cte? t.name else none) = some cols := by
        rw [← hcols, Static.cte?, Static.cte?, hΓ.ctes]
      have hentry : entryOf lay scope (.table t) = none := by rw [entryOf, if_pos hc]
      refine ⟨⟨t.aliasOrName, "", "", cols⟩, fun δ => δ.cte t.name,
        by simp only [FromItem.mapRefs, hnode, elabSource, hcols'], ?_, ?_⟩
      · rw [mapOf, hentry]
        exact sourceRel_id _
      · intro δ δ' hδ
        have hcte : δ'.cte t.name = δ.cte t.name := by rw [Dyn.cte, Dyn.cte, hδ.ctes]
        rw [filtersOf, mapOf, hentry]
        exact hcte.trans (htriv _).symm
    · rw [TableOk, if_neg hc] at ht
      obtain ⟨en, hlay, hW, hW', hne, hhid, hen⟩ := ht
      rw [Bool.not_eq_true] at hc
      rw [hc, isSome_eq_false_iff, isNone_iff_eq_none] at hlook
      simp only [elabSource, hlook, hW, map_some, Option.some.injEq, Prod.mk.injEq] at h
      obtain ⟨rfl, rfl⟩ := h
      have hnode : stageNode lay t = ⟨scanStage t.aliasOrName, "", "", t.aliasOrName⟩ := by simp [stageNode, hlay]
      have halias : (stageNode lay t).aliasOrName = t.aliasOrName := by rw [hnode]; exact if_neg hne
      have hlook' : (if (stageNode lay t).db = "" ∧ (stageNode lay t).catalog = "" then
          Γ'.cte? (stageNode lay t).name else none) = none := by
        have hnone : Γ'.cte? (scanStage t.aliasOrName) = none := by
          rw [Static.cte?, hΓ.ctes, ← Static.cte?, ← not_isSome_iff_eq_none, cte?_isSome, hscope, hhid]
          simp
        rw [hnode]
        simp [hnone]
      have hentry : entryOf lay scope (.table t) = some en := by rw [entryOf, hc]; exact hlay
      have has : (stageNode lay t).asName = t.aliasOrName := by rw [hnode]
      refine ⟨⟨t.aliasOrName, "", "", en.cols⟩, fun _ => (en.stage I).rows, ?_, ?_, ?_⟩
      · simp only [FromItem.mapRefs, elabSource, hlook', hW', map_some, halias, has, if_neg hne,
          StageEntry.stage]
      · rw [mapOf, hentry]
        exact ⟨rfl, fun c hcol row => get_project en.cols row c hcol, hen.full, hen.cover⟩
      · intro δ δ' _
        rw [filtersOf, mapOf, hentry]
        rfl

/-- the sources of a select, one by one -/
theorem sources_rel (xs : List FromItem)
    (hxs : ∀ t, .table t ∈ xs → TableOk need full I W W' lay scope t) (ps : List (Source × (Dyn → List Row)))
    (h : xs.mapM (elabSource W subs Γ) = some ps) :
    ∃ ps', (xs.map (FromItem.mapRefs (stageNode lay))).mapM (elabSource W' subs' Γ') = some ps' ∧
      ps'.length = ps.length ∧ ps.length = xs.length ∧
      ∀ (i : ℕ) x p, xs[i]? = some x → ps[i]? = some p → ∃ p', ps'[i]? = some p' ∧
        SourceRel need full p.1 p'.1 (mapOf lay scope x) ∧ ∀ δ δ', DynRel ms δ δ' →
          p'.2 δ' = ((p.2 δ).filter (passesFilters I (filtersOf lay scope x))).map (mapOf lay scope x) := by
  induction xs generalizing ps with
  | nil =>
    obtain rfl : [] = ps := by simpa using h
    exact ⟨[], rfl, rfl, rfl, fun i x p hx => by simp at hx⟩
  | cons x xs ih =>
    rw [mapM_cons] at h
    obtain ⟨p, hp, h⟩ := bind_eq_some_iff.1 h
    obtain ⟨qs, hqs, h⟩ := bind_eq_some_iff.1 h
    obtain rfl : p :: qs = ps := by simpa using h
    obtain ⟨s', rows', hs', hrel, hrows⟩ := elabSource_rel hsub hΓ hscope hraw x
      (fun t ht => hxs t (ht ▸ mem_cons_self)) p.1 p.2 hp
    obtain ⟨qs', hqs', hlen, hlen', hall⟩ := ih (fun t ht => hxs t (mem_cons_of_mem x ht)) qs hqs
    refine ⟨(s', rows') :: qs', ?_, by simp [hlen], by simp [hlen'], ?_⟩
    · rw [map_cons, mapM_cons, hs', hqs']
      rfl
    · intro i y q hy hq
      cases i with
      | zero =>
        obtain rfl : x = y := by simpa using hy
        obtain rfl : p = q := by simpa using hq
        exact ⟨(s', rows'), rfl, hrel, hrows⟩
      | succ i => exact hall i y q (by simpa using hy) (by simpa using hq)

end Sources

/-! ## One select -/

/-- the conjuncts of a `WHERE` clause -/
def Select.conjuncts (s : Select) : List Expr := s.cond.toList.flatMap splitConjunctive

def Select.joinShape (s : Select) : List (ℕ × Kind) := (onConds s).zipIdx.map fun c => (c.2, c.1.1)

/-- a column of a filter that can only be the alias's: qualified by it, or unqualified and a column of its table -/
def ownColumn (a : String) (en : StageEntry) (r : ColumnRef) : Prop :=
  (r.table ≠ "" ∧ sameName a r.table = true) ∨ (r.table = "" ∧ hasCol en.table.cols r.name = true)

/-- the select makes up for the filters of its `i`-th source: each of them is a conjunct of its `WHERE` clause about
that source alone, and the source is not null-supplied or some filter is not true of a null-extended row -/
structure Absorbs (I : Interp) (s : Select) (i : ℕ) (a : String) (en : StageEntry) : Prop where
  conjunct : ∀ c ∈ en.filters, c ∈ s.conjuncts
  closed : ∀ c ∈ en.filters, c.hasSub = false
  own : ∀ c ∈ en.filters, ∀ r ∈ c.columns, ownColumn a en r
  rejects : i ∈ nullable s.joinShape → ∃ c ∈ en.filters, rowHolds I none c = false

/-- what a select must satisfy for the rewriting to be sound -/
structure SelectOk (need : ColumnRef → Prop) (full : Prop) (fc : ColumnRef → ColumnRef) (I : Interp) (W W' : World)
    (lay : Layout) (scope : List String) (s : Select) : Prop where
  columns : ∀ r ∈ s.columns, Tracked need full fc r
  star : s.hasStar = true → full
  tables : ∀ t, .table t ∈ s.sources → TableOk need full I W W' lay scope t
  absorbs : ∀ (i : ℕ) t en, s.sources[i]? = some (.table t) → entryOf lay scope (.table t) = some en →
    en.filters ≠ [] → Absorbs I s i t.aliasOrName en

omit [PyText] in
theorem splitConjunctive_labels (e c : Expr) (hc : c ∈ splitConjunctive e) (n : Node) (hn : n ∈ c.labels) :
    n ∈ e.labels := by
  fun_induction splitConjunctive e with
  | case1 l l' ihl ihr =>
    rcases mem_append.1 hc with h | h
    · exact Rose.mem_labels_of_child (by simp) (ihl h)
    · exact Rose.mem_labels_of_child (by simp) (ihr h)
  | case2 e h =>
    obtain rfl := mem_singleton.1 hc
    exact hn

omit [PyText] in
theorem splitConjunctive_columns (e c : Expr) (hc : c ∈ splitConjunctive e) (r : ColumnRef) (hr : r ∈ c.columns) :
    r ∈ e.columns :=
  (Expr.mem_columns e r).2 (splitConjunctive_labels e c hc _ ((Expr.mem_columns c r).1 hr))

section OneSelect

variable {need : ColumnRef → Prop} {full : Prop} {fc : ColumnRef → ColumnRef} {ms : List (ℕ → Row → Row)}
  {Γ Γ' : Static} {scope : List String} {subs subs' : List Meaning} {I : Interp} {W W' : World} {lay : Layout}

omit [PyText] in
theorem onConds_mapRefs (s : Select) (ft : TableNode → TableNode) :
    onConds (s.mapRefs fc ft) = (onConds s).map fun c => (c.1, c.2.map (Expr.mapColumns fc)) := by
  cases hs : s.source <;> simp [onConds, Select.mapRefs, Join.mapRefs, hs, Function.comp_def]

omit [PyText] in
theorem onConds_length (s : Select) : (onConds s).length = s.sources.length := by
  simp [onConds, Select.sources]

theorem onConds_tracked (s : Select) (hcol : ∀ r ∈ s.columns, Tracked need full fc r) (c : Kind × Option Expr)
    (hc : c ∈ onConds s) (e : Expr) (he : e ∈ c.2) : TrackedAll need full fc e := by
  intro r hr
  refine hcol r ?_
  rw [Select.columns, mem_append]
  refine .inr (mem_flatMap.2 ⟨e, ?_, hr⟩)
  rw [Select.clauseExprs, mem_append, mem_append]
  refine .inl (.inl (mem_filterMap.2 ?_))
  rcases mem_append.1 hc with h | h
  · obtain ⟨x, _, rfl⟩ := mem_map.1 h
    cases he
  · obtain ⟨j, hj, rfl⟩ := mem_map.1 h
    exact ⟨j, hj, he⟩

theorem joinSteps_shape (δ : Dyn) (f : Frame) (rows : List (Dyn → List Row)) (conds : List (Kind × Option Expr))
    (hlen : rows.length = conds.length) :
    (joinSteps I subs Γ δ f (rows.zip conds)).map Step.shape = conds.zipIdx.map fun c => (c.2, c.1.1) := by
  have hsnd : (rows.zip conds).map Prod.snd = conds := map_snd_zip (by omega)
  have hzip : (conds.zipIdx).map (fun c => (c.2, c.1.1)) =
      ((rows.zip conds).zipIdx).map fun c => (c.2, c.1.2.1) := by
    conv_lhs => rw [← hsnd]
    rw [zipIdx_map, List.map_map]
    rfl
  rw [hzip, joinSteps, List.map_map]
  rfl

theorem joinSteps_idx (δ : Dyn) (f : Frame) (chain : List ((Dyn → List Row) × Kind × Option Expr)) :
    (joinSteps I subs Γ δ f chain).map Step.idx = List.range chain.length := by
  rw [joinSteps, List.map_map]
  have h : (Step.idx ∘ fun c : ((Dyn → List Row) × Kind × Option Expr) × ℕ =>
      (⟨c.2, c.1.1 δ, c.1.2.1, fun e => condTrue I subs (Γ.pushUpTo f c.2) (δ.push e) c.1.2.2⟩ : Step ℕ Row)) =
      Prod.snd := rfl
  rw [h, zipIdx_map_snd, range_eq_range']

variable {f f' : Frame} {maps : ℕ → Row → Row}

theorem FrameRel.take (h : FrameRel need full f f' maps) (n : ℕ) : FrameRel need full (f.take n) (f'.take n) maps where
  length := by simp [h.length]
  source := by
    intro i s hs
    rw [getElem?_take] at hs
    split_ifs at hs with hi
    obtain ⟨s', hs', hrel⟩ := h.source i s hs
    exact ⟨s', by rw [getElem?_take, if_pos hi, hs'], hrel⟩

theorem StaticRel.push (h : StaticRel need full ms Γ Γ')
    (hf : FrameRel need full f f' maps) : StaticRel need full (maps :: ms) (Γ.push f) (Γ'.push f') :=
  ⟨h.ctes, .cons f f' hf h.frames⟩

variable {δ δ' : Dyn}

omit [PyText] in
theorem DynRel.push (h : DynRel ms δ δ') (maps : ℕ → Row → Row) (e : Env ℕ Row) :
    DynRel (maps :: ms) (δ.push e) (δ'.push (mapEnv maps e)) :=
  ⟨h.ctes, .cons e h.frames⟩

/-- the filters of the `i`-th source -/
def filterAt (lay : Layout) (scope : List String) (xs : List FromItem) (i : ℕ) : List Expr :=
  (xs[i]?.map (filtersOf lay scope)).getD []

/-- the row map of the `i`-th source -/
def mapAt (lay : Layout) (scope : List String) (xs : List FromItem) (i : ℕ) : Row → Row :=
  (xs[i]?.map (mapOf lay scope)).getD id

/-- the `i`-th source is filtered -/
def pushedAt (lay : Layout) (scope : List String) (xs : List FromItem) (i : ℕ) : Bool :=
  !(filterAt lay scope xs i).isEmpty

/-- the rows of the `i`-th source that its filters keep -/
def passAt (I : Interp) (lay : Layout) (scope : List String) (xs : List FromItem) (i : ℕ) : Row → Bool :=
  passesFilters I (filterAt lay scope xs i)

theorem passes_eq (xs : List FromItem) (i : ℕ) :
    passes (pushedAt lay scope xs) (passAt I lay scope xs) i = passAt I lay scope xs i := by
  funext row
  rw [passes, pushedAt, passAt]
  cases filterAt lay scope xs i <;> simp [passesFilters]

/-- the data of the two readings of the sources of one select -/
structure SourcesRel (need : ColumnRef → Prop) (full : Prop) (ms : List (ℕ → Row → Row)) (I : Interp) (lay : Layout)
    (scope : List String) (xs : List FromItem) (ps ps' : List (Source × (Dyn → List Row))) : Prop where
  length : ps.length = xs.length
  length' : ps'.length = ps.length
  frame : FrameRel need full (ps.map Prod.fst) (ps'.map Prod.fst) (mapAt lay scope xs)
  rows : ∀ (i : ℕ) p p', ps[i]? = some p → ps'[i]? = some p' → ∀ δ δ', DynRel ms δ δ' →
    p'.2 δ' = ((p.2 δ).filter (passAt I lay scope xs i)).map (mapAt lay scope xs i)

/-- a column that can only be the `i`-th source's is found there -/
theorem lookupFrame_own (f : Frame) (hd : distinctAliases f = true) (i : ℕ) (s : Source) (hs : f[i]? = some s)
    (r : ColumnRef) (hr : (r.table ≠ "" ∧ sameName s.aliasName r.table = true) ∨
      (r.table = "" ∧ hasCol s.cols r.name = true)) (hne : lookupFrame f r ≠ .error) :
    lookupFrame f r = .at i := by
  have hi : i < f.length := (List.getElem?_eq_some_iff.1 hs).1
  rcases hr with ⟨ht, hr⟩ | ⟨ht, hr⟩
  · rw [lookupFrame, if_neg ht] at hne ⊢
    cases hj : f.findIdx? fun s => sameName s.aliasName r.table with
    | none =>
      have hall := findIdx?_eq_none_iff.1 hj s (mem_of_getElem? hs)
      rw [hr] at hall
      cases hall
    | some j =>
      obtain ⟨hlt, hp, _⟩ := findIdx?_eq_some_iff_getElem.1 hj
      have hij : j = i := by
        have hnd : (f.map fun s => lower s.aliasName).Nodup := of_decide_eq_true hd
        have hlt' : j < (f.map fun s => lower s.aliasName).length := by rwa [length_map]
        have hi' : i < (f.map fun s => lower s.aliasName).length := by rwa [length_map]
        refine (@Nodup.getElem_inj_iff _ _ hnd j hlt' i hi').1 ?_
        have hsi : f[i] = s := by rwa [getElem?_eq_getElem hi, Option.some.injEq] at hs
        simp only [sameName, decide_eq_true_eq] at hp hr
        rw [getElem_map, getElem_map, hsi, hp, hr]
      subst hij
      rw [hj] at hne
      by_cases ha : f[j]?.any (fun s => s.agrees r && hasCol s.cols r.name) = true
      · simp only [ha, if_true]
      · simp only [ha] at hne
        exact absurd rfl hne
  · rw [lookupFrame, if_pos ht] at hne ⊢
    have hmem : i ∈ indicesOf (fun s => hasCol s.cols r.name) f := by
      refine mem_filter.2 ⟨mem_range.2 hi, ?_⟩
      rw [hs, any_some, hr]
    cases hl : indicesOf (fun s => hasCol s.cols r.name) f with
    | nil => rw [hl] at hmem; cases hmem
    | cons j l =>
      cases l with
      | nil =>
        rw [hl] at hmem
        rw [mem_singleton.1 hmem]
      | cons k l =>
        rw [hl] at hne
        exact absurd rfl hne

theorem elabSource_entry (hscope : Γ.ctes.map Prod.fst = scope) (t : TableNode)
    (ht : TableOk need full I W W' lay scope t) (en : StageEntry) (hen : entryOf lay scope (.table t) = some en)
    (s : Source) (rows : Dyn → List Row) (h : elabSource W subs Γ (.table t) = some (s, rows)) :
    s.aliasName = t.aliasOrName ∧ s.cols = en.table.cols := by
  have hlook := cteLookup_eq Γ hscope t
  rw [entryOf] at hen
  split_ifs at hen with hc
  rw [TableOk, if_neg hc] at ht
  obtain ⟨en', hlay, hW, _⟩ := ht
  obtain rfl : en' = en := by simpa [hlay] using hen
  rw [Bool.not_eq_true] at hc
  rw [hc, isSome_eq_false_iff, isNone_iff_eq_none] at hlook
  simp only [elabSource, hlook, hW, map_some, Option.some.injEq, Prod.mk.injEq] at h
  exact ⟨by rw [← h.1], by rw [← h.1]⟩

/-- **Absorption.** Where the `WHERE` clause is true, every filtered source is real and kept by its filters. -/
theorem keeps_of_cond (s : Select) (hok : SelectOk need full fc I W W' lay scope s)
    (hscope : Γ.ctes.map Prod.fst = scope) (ps : List (Source × (Dyn → List Row)))
    (hps : s.sources.mapM (elabSource W subs Γ) = some ps)
    (hd : distinctAliases (ps.map Prod.fst) = true)
    (hw : s.cond.all (wellScoped subs (Γ.push (ps.map Prod.fst))) = true) (δ : Dyn) (e : Env ℕ Row)
    (hreal : ∀ i < s.sources.length, i ∉ nullable s.joinShape → (e i).isSome)
    (hcond : condTrue I subs (Γ.push (ps.map Prod.fst)) (δ.push e) s.cond = true) :
    keeps (pushedAt lay scope s.sources) (passAt I lay scope s.sources) (List.range s.sources.length) e = true := by
  rw [keeps, List.all_eq_true]
  intro i hi
  rw [List.mem_range] at hi
  rw [keepsAt, Bool.or_eq_true]
  refine or_iff_not_imp_left.2 fun hp => ?_
  simp only [pushedAt, Bool.not_not, List.isEmpty_iff] at hp
  -- the source is a scanned table with filters
  have hx : s.sources[i]? = some s.sources[i] := List.getElem?_eq_getElem hi
  have hfil : filterAt lay scope s.sources i = filtersOf lay scope s.sources[i] := by rw [filterAt, hx]; rfl
  obtain ⟨t, en, hxt, hen, hne⟩ : ∃ t en, s.sources[i] = .table t ∧ entryOf lay scope (.table t) = some en ∧
      en.filters ≠ [] := by
    rw [hfil, filtersOf] at hp
    cases hent : entryOf lay scope s.sources[i] with
    | none => simp [hent] at hp
    | some en =>
      rw [hent] at hp
      cases hxi : s.sources[i] with
      | table t => exact ⟨t, en, rfl, by rw [← hxi, hent], hp⟩
      | derived j a => rw [hxi] at hent; cases hent
      | raw sql a => rw [hxi] at hent; cases hent
  rw [hxt] at hx hfil
  have habs := hok.absorbs i t en hx hen hne
  have hfilters : filterAt lay scope s.sources i = en.filters := by rw [hfil, filtersOf, hen]; rfl
  obtain ⟨p, hpi, hpe⟩ := getElem?_of_mapM _ _ ps hps i _ hx
  obtain ⟨hal, hcols⟩ := elabSource_entry hscope t (hok.tables t (List.mem_of_getElem? hx)) en hen p.1 p.2 hpe
  have hframe : (ps.map Prod.fst)[i]? = some p.1 := by rw [List.getElem?_map, hpi]; rfl
  -- every filter holds of the source's current row
  have hrow : ∀ c ∈ en.filters, rowHolds I (e i) c = true := by
    intro c hc
    obtain ⟨w, hwc, hcw⟩ := List.mem_flatMap.1 (habs.conjunct c hc)
    rw [mem_toList] at hwc
    rw [hwc] at hw hcond
    have hholds : holds I (colValue (Γ.push (ps.map Prod.fst)) (δ.push e))
        (subValue subs (Γ.push (ps.map Prod.fst)) (δ.push e)) c = true := by
      have hall : (splitConjunctive w).all _ = true := (holds_splitConjunctive I _ _ w).symm.trans hcond
      exact List.all_eq_true.1 hall c hcw
    rw [← holds_eq_rowHolds I _ _ (e i) c (habs.closed c hc) ?_]
    · exact hholds
    · intro r hr
      have hres : (resolve (ps.map Prod.fst :: Γ.frames) r).isSome :=
        List.all_eq_true.1 (show wellScoped subs _ w = true from hw) (.column r)
          ((Expr.mem_columns w r).1 (splitConjunctive_columns w c hcw r hr))
      have hlk : lookupFrame (ps.map Prod.fst) r = .at i := by
        refine lookupFrame_own _ hd i p.1 hframe r ?_ fun herr => ?_
        · rw [hal, hcols]
          exact habs.own c hc r hr
        · simp [resolve, herr] at hres
      have hslot : resolve (Γ.push (ps.map Prod.fst)).frames r = some ⟨0, i, r.name⟩ := by
        simp [Static.push, resolve, hlk]
      simp [colValue, hslot, Dyn.value, Dyn.push]
  rw [passAt, hfilters]
  cases hei : e i with
  | some row =>
    rw [hei] at hrow
    exact List.all_eq_true.2 hrow
  | none =>
    rw [hei] at hrow
    have hnull : i ∈ nullable s.joinShape := by
      by_contra hn
      have hsome := hreal i hi hn
      rw [hei] at hsome
      cases hsome
    obtain ⟨c, hc, hfalse⟩ := habs.rejects hnull
    rw [hrow c hc] at hfalse
    cases hfalse

omit [PyText] in
theorem shapeRest_mapRest (rest : List (String × List Expr)) : shapeRest (mapRest fc rest) = shapeRest rest := by
  rw [shapeRest, shapeRest, mapRest, List.map_map]
  refine map_congr_left fun c _ => ?_
  simp only [Function.comp_apply, List.map_map]
  exact congrArg (Prod.mk c.1) (map_congr_left fun e _ => shape_mapColumns e)

omit [PyText] in
theorem finishRows_mapRest (outs : List OutCol) (rest : List (String × List Expr)) (cells : List (List Cell)) :
    finishRows I outs (mapRest fc rest) cells = finishRows I outs rest cells := by
  have hempty : (mapRest fc rest).isEmpty = rest.isEmpty := isEmpty_map
  rw [finishRows, finishRows, shapeRest_mapRest, isProjection, isProjection, hempty]

/-- the same for every joined row, whatever rows the steps of the chain hold -/
theorem keeps_of_join (s : Select) (hok : SelectOk need full fc I W W' lay scope s)
    (hscope : Γ.ctes.map Prod.fst = scope) (p : Parts)
    (hps : s.sources.mapM (elabSource W subs Γ) = some p.sources) (hsc : selectScoped s subs Γ p.frame = true)
    (δ : Dyn) (l : List (Step ℕ Row)) (hl : l.map Step.shape = s.joinShape) (e : Env ℕ Row) (he : e ∈ join l)
    (hcond : condTrue I subs (Γ.push p.frame) (δ.push e) s.cond = true) :
    keeps (pushedAt lay scope s.sources) (passAt I lay scope s.sources) (List.range s.sources.length) e = true := by
  simp only [selectScoped, Bool.and_eq_true] at hsc
  have hidx : l.map Step.idx = List.range s.sources.length := by
    have h := congrArg (List.map Prod.fst) hl
    rw [List.map_map, Select.joinShape, List.map_map] at h
    have hrange : (onConds s).zipIdx.map Prod.snd = List.range s.sources.length := by
      rw [zipIdx_eq_zip_range', map_snd_zip (by simp), onConds_length, range_eq_range']
    exact h.trans hrange
  refine keeps_of_cond s hok hscope p.sources hps hsc.1.1 hsc.2 δ e (fun i hi hn => ?_) hcond
  refine isSome_of_not_nullable l e he i ?_ (by rwa [hl])
  rw [hidx, mem_range]
  exact hi

def Select.steps (I : Interp) (s : Select) (subs : List Meaning) (Γ : Static) (p : Parts) (δ : Dyn) :
    List (Step ℕ Row) :=
  joinSteps I subs Γ δ p.frame ((p.sources.map Prod.snd).zip (onConds s))

theorem Select.steps_shape (s : Select) (p : Parts)
    (hps : s.sources.mapM (elabSource W subs Γ) = some p.sources) (δ : Dyn) :
    (s.steps I subs Γ p δ).map Step.shape = s.joinShape := by
  refine joinSteps_shape δ p.frame _ _ ?_
  have hlen := congrArg List.length (Json.map_eq_of_mapM _ (fun _ => ()) (fun _ => ()) _ _ (fun _ _ _ => rfl) hps)
  rw [length_map, length_map] at hlen
  rw [length_map, hlen, onConds_length]

/-- **What a select needs.** A row of a scanned table that takes part in a joined row on which `WHERE` is true passes
the filters of the scan. -/
theorem passes_of_kept (s : Select) (hok : SelectOk need full fc I W W' lay scope s)
    (hscope : Γ.ctes.map Prod.fst = scope) (p : Parts)
    (hps : s.sources.mapM (elabSource W subs Γ) = some p.sources) (hsc : selectScoped s subs Γ p.frame = true)
    (δ : Dyn) (e : Env ℕ Row) (he : e ∈ keptRows I s subs Γ p δ) (i : ℕ) (t : TableNode) (en : StageEntry)
    (hi : s.sources[i]? = some (.table t)) (hen : entryOf lay scope (.table t) = some en) (row : Row)
    (hrow : e i = some row) : passesFilters I en.filters row = true := by
  obtain ⟨hjoin, hcond⟩ := List.mem_filter.1 he
  have hkeep := keeps_of_join s hok hscope p hps hsc δ _ (s.steps_shape p hps δ) e hjoin hcond
  have hfil : filterAt lay scope s.sources i = en.filters := by rw [filterAt, hi, map_some, filtersOf, hen]; rfl
  have hat := List.all_eq_true.1 hkeep i (List.mem_range.2 (List.getElem?_eq_some_iff.1 hi).1)
  simp only [keepsAt, pushedAt, passAt, hfil, hrow, any_some, Bool.not_not, Bool.or_eq_true,
    List.isEmpty_iff] at hat
  rcases hat with hnil | hpass
  · rw [hnil]
    rfl
  · exact hpass

variable (hsub : SubsRel need full scope subs subs') (hΓ : StaticRel need full ms Γ Γ')
  (hscope : Γ.ctes.map Prod.fst = scope)

include hsub hΓ hscope

theorem sourcesRel (hraw : ∀ sql, W.raw sql = none) (xs : List FromItem)
    (hxs : ∀ t, .table t ∈ xs → TableOk need full I W W' lay scope t) (ps : List (Source × (Dyn → List Row)))
    (h : xs.mapM (elabSource W subs Γ) = some ps) :
    ∃ ps', (xs.map (FromItem.mapRefs (stageNode lay))).mapM (elabSource W' subs' Γ') = some ps' ∧
      SourcesRel need full ms I lay scope xs ps ps' := by
  obtain ⟨ps', hps', hlen', hlen, hall⟩ := sources_rel hsub hΓ hscope hraw xs hxs ps h
  have hget : ∀ (i : ℕ) p, ps[i]? = some p → ∃ x, xs[i]? = some x := by
    intro i p hp
    have hi : i < xs.length := hlen ▸ (List.getElem?_eq_some_iff.1 hp).1
    exact ⟨xs[i], getElem?_eq_getElem hi⟩
  refine ⟨ps', hps', hlen, hlen', ⟨by simp [hlen'], ?_⟩, ?_⟩
  · intro i s hs
    rw [getElem?_map] at hs
    obtain ⟨p, hp, rfl⟩ := map_eq_some_iff.1 hs
    obtain ⟨x, hx⟩ := hget i p hp
    obtain ⟨p', hp', hrel, _⟩ := hall i x p hx hp
    refine ⟨p'.1, by rw [getElem?_map, hp']; rfl, ?_⟩
    have hmap : mapAt lay scope xs i = mapOf lay scope x := by rw [mapAt, hx]; rfl
    rw [hmap]
    exact hrel
  · intro i p p' hp hp' δ δ' hδ
    obtain ⟨x, hx⟩ := hget i p hp
    obtain ⟨q', hq', _, hrows⟩ := hall i x p hx hp
    obtain rfl : p' = q' := by simpa [hp'] using hq'
    have hmap : mapAt lay scope xs i = mapOf lay scope x := by rw [mapAt, hx]; rfl
    have hpass : passAt I lay scope xs i = passesFilters I (filtersOf lay scope x) := by
      rw [passAt, filterAt, hx]
      rfl
    rw [hmap, hpass]
    exact hrows δ δ' hδ

/-- the join chain over the rewritten sources is the restricted chain on mapped rows -/
theorem joinSteps_rel {xs : List FromItem} {ps ps' : List (Source × (Dyn → List Row))}
    (hps : SourcesRel need full ms I lay scope xs ps ps') (conds : List (Kind × Option Expr))
    (htr : ∀ c ∈ conds, ∀ e ∈ c.2, TrackedAll need full fc e)
    (hwell : conds.zipIdx.all (fun c => c.1.2.all (wellScoped subs (Γ.pushUpTo (ps.map Prod.fst) c.2))) = true) (hδ : DynRel ms δ δ') :
    List.Forall₂ (Maps (mapAt lay scope xs))
      ((joinSteps I subs Γ δ (ps.map Prod.fst) ((ps.map Prod.snd).zip conds)).map
        (restrict (pushedAt lay scope xs) (passAt I lay scope xs)))
      (joinSteps I subs' Γ' δ' (ps'.map Prod.fst)
        ((ps'.map Prod.snd).zip (conds.map fun c => (c.1, c.2.map (Expr.mapColumns fc))))) := by
  rw [List.forall₂_iff_get]
  refine ⟨by simp [joinSteps, hps.length'], fun i h h' => ?_⟩
  have hi : i < ps.length ∧ i < conds.length := by simpa [joinSteps] using h
  have hi' : i < ps'.length := hps.length' ▸ hi.1
  have hp : ps[i]? = some ps[i] := getElem?_eq_getElem hi.1
  have hp' : ps'[i]? = some ps'[i] := getElem?_eq_getElem hi'
  have hc : conds[i] ∈ conds := getElem_mem hi.2
  have hw : conds[i].2.all (wellScoped subs (Γ.pushUpTo (ps.map Prod.fst) i)) = true := by
    have hmem : (conds[i], i) ∈ conds.zipIdx :=
      mem_zipIdx_iff_getElem?.2 (getElem?_eq_getElem hi.2)
    exact all_eq_true.1 hwell _ hmem
  have hΓi : StaticRel need full (mapAt lay scope xs :: ms) (Γ.pushUpTo (ps.map Prod.fst) i)
      (Γ'.pushUpTo (ps'.map Prod.fst) i) := hΓ.push (hps.frame.take (i + 1))
  simp only [get_eq_getElem, joinSteps, getElem_map, getElem_zipIdx, getElem_zip, Nat.zero_add]
  refine ⟨rfl, rfl, ?_, fun e => ?_⟩
  · rw [restrict, passes_eq]
    exact hps.rows i _ _ hp hp' δ δ' hδ
  · exact condTrue_rel I hsub hΓi hscope (hδ.push _ e) _ (htr _ hc) hw

/-- the resolved names of the rewritten select -/
theorem selectParts_rel (hraw : ∀ sql, W.raw sql = none) (s : Select)
    (hok : SelectOk need full fc I W W' lay scope s) (p : Parts) (h : selectParts W s subs Γ = some p) :
    s.sources.mapM (elabSource W subs Γ) = some p.sources ∧
    ∃ p', selectParts W' (s.mapRefs fc (stageNode lay)) subs' Γ' = some p' ∧
      SourcesRel need full ms I lay scope s.sources p.sources p'.sources ∧ p'.outs = p.outs ∧
      p'.leaves = p.leaves ∧
      CellsRel (mapAt lay scope s.sources :: ms) subs subs' (Γ.push p.frame) (Γ'.push p'.frame) p.leaves := by
  obtain ⟨ps, hps, h⟩ := bind_eq_some_iff.1 h
  obtain ⟨oss, hoss, h⟩ := bind_eq_some_iff.1 h
  obtain ⟨ls, hls, h⟩ := bind_eq_some_iff.1 h
  obtain rfl : ⟨ps, oss.flatten, ls⟩ = p := by simpa using h
  obtain ⟨ps', hps', hrel⟩ := sourcesRel (I := I) hsub hΓ hscope hraw s.sources hok.tables ps hps
  have hΓ2 := hΓ.push hrel.frame
  have hitem : ∀ it ∈ s.items, ItemOk need full fc it := by
    intro it hit
    refine ⟨fun r hr => hok.columns r ?_, fun hstar => hok.star ?_⟩
    · exact mem_append_left _ (mem_flatMap.2 ⟨it, hit, hr⟩)
    · rw [Select.hasStar, Bool.or_eq_true]
      exact .inl (any_eq_true.2 ⟨it, hit, hstar⟩)
  have hrest : ∀ e ∈ s.rest.flatMap Prod.snd, TrackedAll need full fc e := by
    intro e he r hr
    refine hok.columns r (mem_append_right _ (mem_flatMap.2 ⟨e, ?_, hr⟩))
    exact mem_append_right _ he
  have hitems := fun it hit os => elabItem_rel hsub hΓ2 hscope hrel.frame it (hitem it hit) os
  obtain ⟨hls', hlcells⟩ := elabRest_rel hsub hΓ2 hscope (oss.flatten.map OutCol.name) s.rest hrest ls hls
  have hoss' := mapM_map_of_imp _ _ (Item.mapRefs fc) _ oss (fun it hm os hb => (hitems it hm os hb).1) hoss
  have hocells := forall_of_mapM _ _ _ oss (fun it hm os hb => (hitems it hm os hb).2) hoss
  refine ⟨hps, ⟨ps', oss.flatten, ls⟩, ?_, hrel, rfl, rfl, fun δ δ' hδ l hl => ?_⟩
  · rw [selectParts, Select.mapRefs_sources, hps', bind_eq_bind, bind_some]
    change ((s.items.map (Item.mapRefs fc)).mapM _ >>= _) = _
    rw [hoss', bind_eq_bind, bind_some]
    change (elabRest _ _ _ (mapRest fc s.rest) >>= _) = _
    rw [hls']
    rfl
  · rcases mem_append.1 hl with hl | hl
    · obtain ⟨o, ho, hl⟩ := mem_flatMap.1 hl
      obtain ⟨os, hos, ho⟩ := mem_flatten.1 ho
      exact hocells os hos δ δ' hδ l (mem_flatMap.2 ⟨o, ho, hl⟩)
    · exact hlcells δ δ' hδ l hl

theorem selectScoped_rel (s : Select) (hcol : ∀ r ∈ s.columns, Tracked need full fc r) (hf : FrameRel need full f f' maps)
    (h : selectScoped s subs Γ f = true) :
    selectScoped (s.mapRefs fc (stageNode lay)) subs' Γ' f' = true := by
  have hcond : ∀ e ∈ s.cond, TrackedAll need full fc e := by
    intro e he r hr
    refine hcol r (mem_append_right _ (mem_flatMap.2 ⟨e, ?_, hr⟩))
    exact mem_append_left _ (mem_append_right _ (mem_toList.2 he))
  have hwell : ∀ (o : Option Expr) {ms : List (ℕ → Row → Row)} {Δ Δ' : Static},
      StaticRel need full ms Δ Δ' → Δ.ctes.map Prod.fst = scope → (∀ e ∈ o, TrackedAll need full fc e) →
        o.all (wellScoped subs Δ) = true → (o.map (Expr.mapColumns fc)).all (wellScoped subs' Δ') = true := by
    intro o ms Δ Δ' hΔ hs ho hw
    cases o with
    | none => rfl
    | some e => exact wellScoped_mapColumns hsub hΔ hs e (ho e rfl) hw
  simp only [selectScoped, Bool.and_eq_true] at h ⊢
  refine ⟨⟨?_, ?_⟩, hwell _ (hΓ.push hf) hscope hcond h.2⟩
  · have halias : f'.map (fun s => lower s.aliasName) = f.map fun s => lower s.aliasName :=
      hf.map_eq fun _ _ _ hrel => by rw [hrel.aliasName]
    rw [distinctAliases, halias]
    exact h.1.1
  · rw [onConds_mapRefs, zipIdx_map, List.all_map, List.all_eq_true]
    rintro ⟨c, n⟩ hcn
    have hc : c ∈ onConds s := mem_of_getElem? (mem_zipIdx_iff_getElem?.1 hcn)
    refine hwell c.2 (hΓ.push (hf.take (n + 1))) hscope (onConds_tracked s hcol c hc) ?_
    exact all_eq_true.1 h.1.2 _ hcn

/-- the joined rows that pass `WHERE` are the images of the original ones -/
theorem keptRows_rel (s : Select) (hok : SelectOk need full fc I W W' lay scope s)
    (p p' : Parts) (hps : s.sources.mapM (elabSource W subs Γ) = some p.sources)
    (hrel : SourcesRel need full ms I lay scope s.sources p.sources p'.sources)
    (hsc : selectScoped s subs Γ p.frame = true) (hδ : DynRel ms δ δ') :
    keptRows I (s.mapRefs fc (stageNode lay)) subs' Γ' p' δ' =
      (keptRows I s subs Γ p δ).map (mapEnv (mapAt lay scope s.sources)) := by
  have hsc' := hsc
  simp only [selectScoped, Bool.and_eq_true] at hsc'
  set steps := s.steps I subs Γ p δ with hsteps
  set pushed := pushedAt lay scope s.sources
  set pass := passAt I lay scope s.sources
  have hshape : steps.map Step.shape = s.joinShape := s.steps_shape p hps δ
  have hidx : steps.map Step.idx = List.range s.sources.length := by
    rw [hsteps, Select.steps, joinSteps_idx, length_zip, length_map, hrel.length, onConds_length,
      Nat.min_self]
  have hcond : ∀ e ∈ s.cond, TrackedAll need full fc e := by
    intro e he r hr
    refine hok.columns r (mem_append_right _ (mem_flatMap.2 ⟨e, ?_, hr⟩))
    exact mem_append_left _ (mem_append_right _ (mem_toList.2 he))
  have hjoin : join (joinSteps I subs' Γ' δ' p'.frame
      ((p'.sources.map Prod.snd).zip (onConds (s.mapRefs fc (stageNode lay))))) =
      (join (steps.map (restrict pushed pass))).map (mapEnv (mapAt lay scope s.sources)) := by
    rw [onConds_mapRefs]
    exact join_map (joinSteps_rel hsub hΓ hscope hrel (onConds s) (onConds_tracked s hok.columns) hsc'.1.2 hδ)
  have hrestrict : (steps.map (restrict pushed pass)).map Step.shape = s.joinShape := by
    rw [List.map_map, ← hshape]
    rfl
  -- where the condition is true, every filtered source is real and kept, over the full and the filtered sources
  have hkeep : ∀ l : List (Step ℕ Row), l.map Step.shape = s.joinShape → ∀ e ∈ join l,
      condTrue I subs (Γ.push p.frame) (δ.push e) s.cond = true →
        keeps pushed pass (steps.map Step.idx) e = true := by
    intro l hl e he hc
    rw [hidx]
    exact keeps_of_join s hok hscope p hps hsc δ l hl e he hc
  have hnd : (steps.map Step.idx).Nodup := by rw [hidx]; exact nodup_range
  have hfilter : (join (steps.map (restrict pushed pass))).filter
      (fun e => condTrue I subs (Γ.push p.frame) (δ.push e) s.cond) =
        (join steps).filter (fun e => condTrue I subs (Γ.push p.frame) (δ.push e) s.cond) :=
    filter_restrict_of_keeps steps hnd _ (hkeep steps hshape) (hkeep _ hrestrict)
  rw [keptRows, hjoin, List.filter_map, keptRows, ← Select.steps, ← hsteps, ← hfilter]
  refine congrArg (List.map _) (filter_congr fun e _ => ?_)
  exact condTrue_rel I hsub (hΓ.push hrel.frame) hscope (hδ.push _ e) s.cond hcond hsc'.2

/-- **One select.** The rewritten select over the scans returns the rows of the select. -/
theorem elabSelect_rel (hraw : ∀ sql, W.raw sql = none) (s : Select)
    (hok : SelectOk need full fc I W W' lay scope s) (d : Den) (h : elabSelect I W s subs Γ = some d) :
    ∃ d', elabSelect I W' (s.mapRefs fc (stageNode lay)) subs' Γ' = some d' ∧ d'.cols = d.cols ∧
      ∀ δ δ', DynRel ms δ δ' → d'.rows δ' = d.rows δ := by
  obtain ⟨p, hp, h⟩ := bind_eq_some_iff.1 h
  split_ifs at h with hsc
  obtain rfl : ⟨p.outs.map OutCol.name, selectRows I s subs Γ p⟩ = d := by simpa using h
  obtain ⟨hps, p', hp', hrel, houts, hleaves, hcells⟩ := selectParts_rel hsub hΓ hscope hraw s hok p hp
  have hsc' : selectScoped (s.mapRefs fc (stageNode lay)) subs' Γ' p'.frame = true :=
    selectScoped_rel hsub hΓ hscope s hok.columns hrel.frame hsc
  refine ⟨⟨p'.outs.map OutCol.name, selectRows I (s.mapRefs fc (stageNode lay)) subs' Γ' p'⟩, ?_, ?_, ?_⟩
  · rw [elabSelect, hp', bind_eq_bind, bind_some]
    exact if_pos hsc'
  · rw [houts]
  · intro δ δ' hδ
    change finishRows I p'.outs (mapRest fc s.rest) _ = finishRows I p.outs s.rest _
    rw [finishRows_mapRest, houts, keptRows_rel hsub hΓ hscope s hok p p' hps hrel hsc hδ, List.map_map, hleaves]
    refine congrArg (finishRows I p.outs s.rest) (map_congr_left fun e _ => ?_)
    exact map_congr_left fun l hl => hcells _ _ (hδ.push _ e) l hl

end OneSelect

/-! ## Whole queries -/

section Queries

variable {need : ColumnRef → Prop} {full : Prop} {fc : ColumnRef → ColumnRef} {ms : List (ℕ → Row → Row)}
  {I : Interp} {W W' : World} {lay : Layout}

/-- what a body must satisfy for the rewriting to be sound, under the `WITH` names `scope` -/
def BodyOk (need : ColumnRef → Prop) (full : Prop) (fc : ColumnRef → ColumnRef) (I : Interp) (W W' : World)
    (lay : Layout) (scope : List String) : Body → Prop
  | .select s => SelectOk need full fc I W W' lay scope s
  | .setOp _ _ rest => ∀ e ∈ rest.flatMap Prod.snd, TrackedAll need full fc e
  | .wrap => True

/-- the children of a body under the two readings: each `WITH` body sees the names before it -/
def ChildrenRel (need : ColumnRef → Prop) (full : Prop) : List String → List Meaning → List Meaning → List String → Prop
  | [], l, l', scope => SubsRel need full scope l l'
  | _ :: _, [], _, _ => True
  | n :: ns, m :: l, l', scope => ∃ m' t', l' = m' :: t' ∧ MeaningRel need full scope m m' ∧
      ChildrenRel need full ns l t' (n :: scope)

/-- entering the `WITH` list -/
theorem elabCtes_rel (names : List String) (l l' : List Meaning) (scope : List String)
    (hl : ChildrenRel need full names l l' scope) (Γ Γ' : Static) (hΓ : StaticRel need full ms Γ Γ')
    (hscope : Γ.ctes.map Prod.fst = scope) (Δ : Static) (k : Dyn → Dyn) (subs : List Meaning)
    (h : elabCtes names l Γ = some (Δ, k, subs)) :
    ∃ Δ' k' subs', elabCtes names l' Γ' = some (Δ', k', subs') ∧ StaticRel need full ms Δ Δ' ∧
      Δ.ctes.map Prod.fst = names.reverse ++ scope ∧ SubsRel need full (names.reverse ++ scope) subs subs' ∧
      ∀ δ δ', DynRel ms δ δ' → DynRel ms (k δ) (k' δ') := by
  induction names generalizing l l' scope Γ Γ' Δ k subs with
  | nil =>
    obtain ⟨rfl, rfl, rfl⟩ : Γ = Δ ∧ id = k ∧ l = subs := by simpa [elabCtes] using h
    exact ⟨Γ', id, l', rfl, hΓ, hscope, hl, fun _ _ hδ => hδ⟩
  | cons n ns ih =>
    cases l with
    | nil => cases h
    | cons m l =>
      obtain ⟨m', t', rfl, hm, hrest⟩ := hl
      obtain ⟨d, hd, h⟩ := bind_eq_some_iff.1 h
      obtain ⟨⟨Δ₁, k₁, subs₁⟩, hctes, h⟩ := bind_eq_some_iff.1 h
      obtain ⟨rfl, hk, rfl⟩ : Δ₁ = Δ ∧ (fun δ : Dyn => k₁ (δ.addCte n (d.rows δ))) = k ∧ subs₁ = subs := by
        simpa using h
      obtain ⟨d', hd', hcols, hrows⟩ := hm ms Γ Γ' hΓ hscope d hd
      have hΓ₁ : StaticRel need full ms (Γ.addCte n d.cols) (Γ'.addCte n d'.cols) := by
        refine ⟨?_, hΓ.frames⟩
        simp only [Static.addCte, hΓ.ctes, hcols]
      obtain ⟨Δ', k', subs', hctes', hΔ, hsc, hsubs, hdyn⟩ :=
        ih l t' (n :: scope) hrest _ _ hΓ₁ (by simp [Static.addCte, hscope]) _ _ _ hctes
      refine ⟨Δ', fun δ => k' (δ.addCte n (d'.rows δ)), subs', ?_, hΔ, by simp [hsc], by simpa using hsubs, ?_⟩
      · simp only [elabCtes, hd', hctes', bind_eq_bind, bind_some]
        rfl
      · intro δ δ' hδ
        rw [← hk]
        refine hdyn _ _ ⟨?_, hδ.frames⟩
        simp only [Dyn.addCte, hδ.ctes, hrows δ δ' hδ]

/-- clauses that mention no qualifier are left as they are -/
theorem mapRest_of_unqualified (rest : List (String × List Expr))
    (hrest : ∀ e ∈ rest.flatMap Prod.snd, TrackedAll need full fc e)
    (hq : ((rest.flatMap Prod.snd).all fun e =>
      e.columns.all fun c => c.table = "" && c.db = "" && c.catalog = "") = true) : mapRest fc rest = rest := by
  refine (map_congr_left fun c hc => ?_).trans (List.map_id rest)
  refine Prod.ext rfl ((map_congr_left fun e he => ?_).trans (List.map_id c.2))
  have hmem : e ∈ rest.flatMap Prod.snd := mem_flatMap.2 ⟨c, hc, he⟩
  refine (Rose.map_congr _ id e fun n hn => ?_).trans (Rose.map_id e)
  cases n with
  | column r =>
    have hr := (Expr.mem_columns e r).2 hn
    have hu := all_eq_true.1 (all_eq_true.1 hq e hmem) r hr
    simp only [Bool.and_eq_true, decide_eq_true_eq] at hu
    exact congrArg Node.column ((hrest e hmem r hr).keeps.eq_of_unqualified hu.1.1 hu.1.2 hu.2)
  | _ => rfl

theorem elabSetOp_rel {scope : List String} {Γ Γ' : Static} {subs subs' : List Meaning}
    (hsub : SubsRel need full scope subs subs') (hΓ : StaticRel need full ms Γ Γ')
    (hscope : Γ.ctes.map Prod.fst = scope) (op : String) (rest : List (String × List Expr))
    (hrest : ∀ e ∈ rest.flatMap Prod.snd, TrackedAll need full fc e) (d : Den)
    (h : elabSetOp I op rest subs Γ = some d) :
    ∃ d', elabSetOp I op (mapRest fc rest) subs' Γ' = some d' ∧ d'.cols = d.cols ∧
      ∀ δ δ', DynRel ms δ δ' → d'.rows δ' = d.rows δ := by
  match subs, subs', hsub, h with
  | [l, r], _, .cons hl (.cons hr .nil), h =>
    obtain ⟨dl, hdl, h⟩ := bind_eq_some_iff.1 h
    obtain ⟨dr, hdr, h⟩ := bind_eq_some_iff.1 h
    split_ifs at h with hq
    cases h
    obtain ⟨dl', hdl', hlcols, hlrows⟩ := hl ms Γ Γ' hΓ hscope dl hdl
    obtain ⟨dr', hdr', _, hrrows⟩ := hr ms Γ Γ' hΓ hscope dr hdr
    rw [mapRest_of_unqualified rest hrest hq]
    refine ⟨⟨dl'.cols, setOpRows I op rest dl' dr'⟩, ?_, hlcols, fun δ δ' hδ => ?_⟩
    · simp only [elabSetOp, hdl', hdr', bind_eq_bind, bind_some]
      exact if_pos hq
    · simp only [setOpRows, hlrows δ δ' hδ, hrrows δ δ' hδ, hlcols]

/-- **One body.** -/
theorem elabBody_rel (hraw : ∀ sql, W.raw sql = none) (b : Body) (l l' : List Meaning) (scope : List String)
    (hok : BodyOk need full fc I W W' lay (b.cteNames.reverse ++ scope) b)
    (hl : ChildrenRel need full b.cteNames l l' scope) :
    MeaningRel need full scope (elabBody I W b l) (elabBody I W' (b.mapRefs fc (stageNode lay)) l') := by
  intro ms Γ Γ' hΓ hscope d hd
  obtain ⟨⟨Δ, k, subs⟩, hctes, hd⟩ := bind_eq_some_iff.1 hd
  obtain ⟨d₁, hd₁, hd⟩ := bind_eq_some_iff.1 hd
  cases hd
  obtain ⟨Δ', k', subs', hctes', hΔ, hsc, hsubs, hdyn⟩ :=
    elabCtes_rel b.cteNames l l' scope hl Γ Γ' hΓ hscope Δ k subs hctes
  suffices hbody : ∃ d', elabContent I W' (b.mapRefs fc (stageNode lay)) subs' Δ' = some d' ∧ d'.cols = d₁.cols ∧
      ∀ δ δ', DynRel ms δ δ' → d'.rows δ' = d₁.rows δ by
    obtain ⟨d', hd', hcols, hrows⟩ := hbody
    refine ⟨⟨d'.cols, fun δ => d'.rows (k' δ)⟩, ?_, hcols, fun δ δ' hδ => hrows _ _ (hdyn δ δ' hδ)⟩
    simp only [elabBody, Body.mapRefs_cteNames, hctes', hd', bind_eq_bind, bind_some]
    rfl
  cases b with
  | select s => exact elabSelect_rel hsubs hΔ hsc hraw s hok d₁ hd₁
  | setOp op ctes rest => exact elabSetOp_rel hsubs hΔ hsc op rest hok d₁ hd₁
  | wrap =>
    match subs, subs', hsubs, hd₁ with
    | [m], _, .cons hm .nil, hd₁ => exact hm ms Δ Δ' hΔ hsc d₁ hd₁

theorem childrenRel_of_forall (cs : List Query) (names : List String) (scope : List String)
    (ih : ∀ c ∈ cs, ∀ scope, (∀ x ∈ c.scopedBodies scope, BodyOk need full fc I W W' lay x.1 x.2) →
      MeaningRel need full scope (denote I W c) (denote I W' (c.mapRefs fc (stageNode lay))))
    (hok : ∀ x ∈ (scopeChildren names (cs.map Query.scopedBodies) scope).flatten,
      BodyOk need full fc I W W' lay x.1 x.2) :
    ChildrenRel need full names (cs.map (denote I W))
      ((cs.map (Query.mapRefs fc (stageNode lay))).map (denote I W')) scope := by
  induction names generalizing cs scope with
  | nil =>
    rw [ChildrenRel, SubsRel, List.map_map, List.forall₂_map_left_iff, List.forall₂_map_right_iff,
      List.forall₂_same]
    intro c hc
    refine ih c hc scope fun x hx => hok x ?_
    refine mem_flatten.2 ⟨c.scopedBodies scope, ?_, hx⟩
    rw [scopeChildren, List.map_map]
    exact mem_map.2 ⟨c, hc, rfl⟩
  | cons n ns ih' =>
    cases cs with
    | nil => trivial
    | cons c cs =>
      simp only [map_cons, scopeChildren, flatten_cons, mem_append] at hok
      refine ⟨_, _, rfl, ih c mem_cons_self scope fun x hx => hok x (.inl hx), ?_⟩
      exact ih' cs (n :: scope) (fun c' hc' => ih c' (mem_cons_of_mem c hc')) fun x hx => hok x (.inr hx)

/-- **Whole queries.** When every body is sound under the `WITH` names in scope there, the rewritten query over the
scans means what the query means. -/
theorem denote_rel (hraw : ∀ sql, W.raw sql = none) (q : Query) (scope : List String)
    (hok : ∀ x ∈ q.scopedBodies scope, BodyOk need full fc I W W' lay x.1 x.2) :
    MeaningRel need full scope (denote I W q) (denote I W' (q.mapRefs fc (stageNode lay))) := by
  induction q using Rose.induction generalizing scope with
  | h b cs ih =>
    have hscoped : Query.scopedBodies (.node b cs) scope = (b.cteNames.reverse ++ scope, b) ::
        (scopeChildren b.cteNames (cs.map Query.scopedBodies) scope).flatten := by
      rw [Query.scopedBodies, Rose.fold_node]
      rfl
    rw [hscoped] at hok
    have hchildren := childrenRel_of_forall cs b.cteNames scope (fun c hc scope => ih c hc scope)
      fun x hx => hok x (mem_cons_of_mem _ hx)
    have hbody := elabBody_rel hraw b _ _ scope (hok _ mem_cons_self) hchildren
    rw [Query.mapRefs, Rose.map_node, denote, denote, Rose.fold_node, Rose.fold_node]
    exact hbody

end Queries

end Langbridge.Federation.Sql
