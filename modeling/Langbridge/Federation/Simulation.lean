/-
Two readings of one query: over full tables and over tables that lost columns. `FrameRel` relates the sources of a
select under the two readings (each row of the second is the image of a row of the first under the source's map),
`StaticRel` and `DynRel` the scopes, `MeaningRel` the meanings of a query and of its rewriting.

The rewriting of columns is a parameter `fc`; `Keeps fc r` says that it leaves the column's name and, up to case, its
qualifier. `need` are the columns of the query; `full` says that no source lost a column, which a star or a column
without qualifier calls for.
-/
import Langbridge.Federation.Predicates

namespace Langbridge.Federation.Sql

open Core Core.Joins List Option

variable [PyText]

/-! ## Names -/

theorem sameName_refl (a : String) : sameName a a = true := by simp [sameName]

theorem sameName_comm (a b : String) : sameName a b = sameName b a := by
  simp only [sameName, eq_comm]

theorem sameName_trans {a b c : String} (h : sameName a b = true) (h' : sameName b c = true) :
    sameName a c = true := by
  simp only [sameName, decide_eq_true_eq] at h h' ⊢
  exact h.trans h'

theorem sameName_congr {a b : String} (h : sameName a b = true) (c : String) : sameName c a = sameName c b := by
  simp only [sameName, decide_eq_true_eq] at h ⊢
  rw [h]

theorem get_congr (row : Row) {c c' : String} (h : sameName c c' = true) : row.get c = row.get c' := by
  have hp : (fun e : String × Val => sameName e.1 c) = fun e => sameName e.1 c' := by
    funext e
    exact sameName_congr h e.1
  rw [Row.get, Row.get, hp]

theorem hasCol_iff (cols : List String) (c : String) :
    hasCol cols c = true ↔ ∃ c' ∈ cols, sameName c' c = true := by
  simp [hasCol]

theorem get_project (cols : List String) (row : Row) (c : String) (h : hasCol cols c = true) :
    (row.project cols).get c = row.get c := by
  induction cols with
  | nil => simp [hasCol] at h
  | cons c' cols ih =>
    by_cases hc : sameName c' c = true
    · have hget : (Row.project (c' :: cols) row).get c = row.get c' := by
        simp [Row.get, Row.project, hc]
      rw [hget, get_congr row hc]
    · have hc' : hasCol cols c = true := by simpa [hasCol, hc] using h
      have hget : (Row.project (c' :: cols) row).get c = (row.project cols).get c := by
        simp [Row.get, Row.project, hc]
      rw [hget, ih hc']

/-! ## Related scopes -/

/-- the rewriting keeps the column's name and, up to case, its qualifier; it drops schema and catalog -/
structure Keeps (fc : ColumnRef → ColumnRef) (r : ColumnRef) : Prop where
  name : (fc r).name = r.name
  table : sameName (fc r).table r.table = true
  table_empty : (fc r).table = "" ↔ r.table = ""
  db : (fc r).db = ""
  catalog : (fc r).catalog = ""

/-- a column without qualifier, schema and catalog is left as it is -/
theorem Keeps.eq_of_unqualified {fc : ColumnRef → ColumnRef} {r : ColumnRef} (h : Keeps fc r) (ht : r.table = "")
    (hd : r.db = "") (hc : r.catalog = "") : fc r = r := by
  have hn := h.name
  have ht' := (h.table_empty.2 ht).trans ht.symm
  have hd' := h.db.trans hd.symm
  have hc' := h.catalog.trans hc.symm
  cases hr : fc r
  cases r
  simp_all

/-- a source and the same source with rows mapped by `f`, as the columns in `need` see it -/
structure SourceRel (need : ColumnRef → Prop) (full : Prop) (s s' : Source) (f : Row → Row) : Prop where
  aliasName : s'.aliasName = s.aliasName
  get : ∀ c, hasCol s'.cols c = true → ∀ row, Row.get (f row) c = Row.get row c
  full : full → s'.cols = s.cols
  cover : ∀ r, need r → r.table ≠ "" → sameName s.aliasName r.table = true → hasCol s.cols r.name = true →
    hasCol s'.cols r.name = true

/-- the sources of one select under the two readings -/
structure FrameRel (need : ColumnRef → Prop) (full : Prop) (f f' : Frame) (maps : ℕ → Row → Row) : Prop where
  length : f'.length = f.length
  source : ∀ i s, f[i]? = some s → ∃ s', f'[i]? = some s' ∧ SourceRel need full s s' (maps i)

/-- the enclosing selects under the two readings -/
inductive FramesRel (need : ColumnRef → Prop) (full : Prop) :
    List (ℕ → Row → Row) → List Frame → List Frame → Prop where
  | nil : FramesRel need full [] [] []
  | cons {maps fs fs' ms} (f f' : Frame) : FrameRel need full f f' maps → FramesRel need full ms fs fs' →
      FramesRel need full (maps :: ms) (f :: fs) (f' :: fs')

/-- the current rows of the enclosing selects under the two readings -/
inductive EnvsRel : List (ℕ → Row → Row) → List (Env ℕ Row) → List (Env ℕ Row) → Prop where
  | nil : EnvsRel [] [] []
  | cons {maps ms es es'} (e : Env ℕ Row) : EnvsRel ms es es' →
      EnvsRel (maps :: ms) (e :: es) (mapEnv maps e :: es')

structure StaticRel (need : ColumnRef → Prop) (full : Prop) (ms : List (ℕ → Row → Row)) (Γ Γ' : Static) : Prop where
  ctes : Γ'.ctes = Γ.ctes
  frames : FramesRel need full ms Γ.frames Γ'.frames

structure DynRel (ms : List (ℕ → Row → Row)) (δ δ' : Dyn) : Prop where
  ctes : δ'.ctes = δ.ctes
  frames : EnvsRel ms δ.frames δ'.frames

/-- the meanings of a query and of its rewriting, under the `WITH` names `scope` -/
def MeaningRel (need : ColumnRef → Prop) (full : Prop) (scope : List String) (m m' : Meaning) : Prop :=
  ∀ ms Γ Γ', StaticRel need full ms Γ Γ' → Γ.ctes.map Prod.fst = scope → ∀ d, m Γ = some d →
    ∃ d', m' Γ' = some d' ∧ d'.cols = d.cols ∧ ∀ δ δ', DynRel ms δ δ' → d'.rows δ' = d.rows δ

/-! ## Columns -/

section Columns

variable {need : ColumnRef → Prop} {full : Prop} {fc : ColumnRef → ColumnRef}

/-- a column of the query that the rewriting keeps, and that is qualified unless nothing was lost -/
structure Tracked (need : ColumnRef → Prop) (full : Prop) (fc : ColumnRef → ColumnRef) (r : ColumnRef) : Prop where
  needed : need r
  keeps : Keeps fc r
  qualified : full ∨ r.table ≠ ""

variable {f f' : Frame} {maps : ℕ → Row → Row}

theorem FrameRel.any_eq (h : FrameRel need full f f' maps) (i : ℕ)
    (p q : Source → Bool) (hpq : ∀ s s', f[i]? = some s → SourceRel need full s s' (maps i) → q s' = p s) :
    f'[i]?.any q = f[i]?.any p := by
  cases hs : f[i]? with
  | none =>
    have hlen : f.length ≤ i := getElem?_eq_none_iff.1 hs
    have hs' : f'[i]? = none := getElem?_eq_none (by rw [h.length]; exact hlen)
    rw [hs']
    rfl
  | some s =>
    obtain ⟨s', hs', hrel⟩ := h.source i s hs
    rw [hs']
    exact hpq s s' hs hrel

omit [PyText] in
theorem findIdx?_congr {α β : Type} (p : α → Bool) (q : β → Bool) (l : List α) (l' : List β)
    (hlen : l'.length = l.length) (h : ∀ (i : ℕ) a b, l[i]? = some a → l'[i]? = some b → q b = p a) :
    l'.findIdx? q = l.findIdx? p := by
  induction l generalizing l' with
  | nil => simp [eq_nil_of_length_eq_zero hlen]
  | cons a l ih =>
    cases l' with
    | nil => simp at hlen
    | cons b l' =>
      have h0 : q b = p a := h 0 a b rfl rfl
      have ih' := ih l' (by simpa using hlen) fun i a' b' ha hb => h (i + 1) a' b' (by simpa using ha) (by simpa using hb)
      rw [findIdx?_cons, findIdx?_cons, h0, ih']

/-- a column found in one frame is found at the same place under the other reading -/
theorem lookupFrame_rel (h : FrameRel need full f f' maps) (r : ColumnRef)
    (hr : Tracked need full fc r) (hne : lookupFrame f r ≠ .error) :
    lookupFrame f' (fc r) = lookupFrame f r := by
  by_cases ht : r.table = ""
  · have hfull : full := hr.qualified.resolve_right (fun hq => hq ht)
    have ht' : (fc r).table = "" := hr.keeps.table_empty.2 ht
    have hidx : indicesOf (fun s => hasCol s.cols (fc r).name) f' = indicesOf (fun s => hasCol s.cols r.name) f := by
      rw [indicesOf, indicesOf, h.length]
      refine filter_congr fun i _ => h.any_eq i _ _ fun s s' _ hs => ?_
      rw [hs.full hfull, hr.keeps.name]
    rw [lookupFrame, lookupFrame, if_pos ht, if_pos ht', hidx]
  · have ht' : (fc r).table ≠ "" := fun h' => ht (hr.keeps.table_empty.1 h')
    have hfind : (f'.findIdx? fun s => sameName s.aliasName (fc r).table) =
        f.findIdx? fun s => sameName s.aliasName r.table := by
      refine findIdx?_congr _ _ f f' h.length fun i s s' hs hs' => ?_
      obtain ⟨s'', hs'', hrel⟩ := h.source i s hs
      rw [hs', Option.some.injEq] at hs''
      rw [hs'', hrel.aliasName, sameName_congr hr.keeps.table]
    rw [lookupFrame, if_neg ht] at hne
    rw [lookupFrame, lookupFrame, if_neg ht, if_neg ht', hfind]
    cases hi : f.findIdx? fun s => sameName s.aliasName r.table with
    | none => rfl
    | some i =>
      rw [hi] at hne
      by_cases ha : f[i]?.any (fun s => s.agrees r && hasCol s.cols r.name) = true
      · have ha' : f'[i]?.any (fun s => s.agrees (fc r) && hasCol s.cols (fc r).name) = true := by
          obtain ⟨s, hs, hcol⟩ := any_eq_true _ _ |>.1 ha
          obtain ⟨s', hs', hrel⟩ := h.source i s hs
          rw [Bool.and_eq_true] at hcol
          have hal : sameName s.aliasName r.table = true := by
            obtain ⟨hlt, hp, _⟩ := findIdx?_eq_some_iff_getElem.1 hi
            rw [getElem?_eq_getElem hlt, Option.some.injEq] at hs
            rwa [hs] at hp
          have hcol' : hasCol s'.cols r.name = true := hrel.cover r hr.needed ht hal hcol.2
          rw [hs', any_some, hr.keeps.name, hcol', Bool.and_true]
          simp [Source.agrees, hr.keeps.db, hr.keeps.catalog]
        simp only [ha, ha']
      · simp only [ha] at hne
        exact absurd rfl hne

/-- where a column is found, the source has it -/
theorem hasCol_of_lookupFrame (f : Frame) (r : ColumnRef) (i : ℕ) (h : lookupFrame f r = .at i) :
    ∃ s, f[i]? = some s ∧ hasCol s.cols r.name = true := by
  rw [lookupFrame] at h
  split_ifs at h with ht
  · cases hl : indicesOf (fun s => hasCol s.cols r.name) f with
    | nil => rw [hl] at h; cases h
    | cons j l =>
      cases l with
      | cons k l => rw [hl] at h; cases h
      | nil =>
        rw [hl] at h
        obtain rfl : j = i := by simpa using h
        have hmem : j ∈ indicesOf (fun s => hasCol s.cols r.name) f := by simp [hl]
        exact (any_eq_true _ _).1 (mem_filter.1 hmem).2
  · cases hi : f.findIdx? fun s => sameName s.aliasName r.table with
    | none => rw [hi] at h; cases h
    | some j =>
      simp only [hi] at h
      split_ifs at h with ha
      obtain rfl : j = i := by simpa using h
      obtain ⟨s, hs, hcol⟩ := (any_eq_true _ _).1 ha
      rw [Bool.and_eq_true] at hcol
      exact ⟨s, hs, hcol.2⟩

/-- the value of a found column is the same under both readings -/
theorem getOr_mapEnv (h : FrameRel need full f f' maps) (e : Env ℕ Row)
    (i : ℕ) (s' : Source) (hs' : f'[i]? = some s') (c : String) (hc : hasCol s'.cols c = true) :
    Row.getOr (mapEnv maps e i) c = Row.getOr (e i) c := by
  have hi : i < f.length := by
    rw [← h.length]
    exact (List.getElem?_eq_some_iff.1 hs').1
  obtain ⟨s'', hs'', hrel⟩ := h.source i f[i] (getElem?_eq_getElem hi)
  rw [hs', Option.some.injEq] at hs''
  subst hs''
  cases he : e i with
  | none => simp [Row.getOr, mapEnv, he]
  | some row => simpa [Row.getOr, mapEnv, he] using hrel.get c hc row

/-- **Columns.** A column that resolves under the first reading resolves under the second, to the same value. -/
theorem resolve_rel {ms : List (ℕ → Row → Row)} {fs fs' : List Frame} (h : FramesRel need full ms fs fs')
    (r : ColumnRef) (hr : Tracked need full fc r) (slot : Slot) (hres : resolve fs r = some slot) :
    resolve fs' (fc r) = some slot ∧
      ∀ δ δ' : Dyn, EnvsRel ms δ.frames δ'.frames → δ'.value slot = δ.value slot := by
  induction h generalizing slot with
  | nil => cases hres
  | @cons maps fs fs' ms f f' hf _ ih =>
    rw [resolve] at hres
    cases hl : lookupFrame f r with
    | error => rw [hl] at hres; cases hres
    | no =>
      rw [hl] at hres
      obtain ⟨slot, hslot, rfl⟩ := map_eq_some_iff.1 hres
      obtain ⟨hres', hval⟩ := ih slot hslot
      have hl' : lookupFrame f' (fc r) = .no := by
        rw [lookupFrame_rel hf r hr (by rw [hl]; simp), hl]
      refine ⟨by rw [resolve, hl', hres']; rfl, fun δ δ' hδ => ?_⟩
      obtain ⟨dc, df⟩ := δ
      obtain ⟨dc', df'⟩ := δ'
      cases hδ with
      | cons e hes => simpa [Dyn.value] using hval ⟨dc, _⟩ ⟨dc', _⟩ hes
    | «at» i =>
      rw [hl] at hres
      obtain rfl : ⟨0, i, r.name⟩ = slot := by simpa using hres
      have hl' : lookupFrame f' (fc r) = .at i := by
        rw [lookupFrame_rel hf r hr (by rw [hl]; simp), hl]
      obtain ⟨s', hs', hcol⟩ := hasCol_of_lookupFrame f' (fc r) i hl'
      rw [hr.keeps.name] at hcol
      refine ⟨by rw [resolve, hl', hr.keeps.name], fun δ δ' hδ => ?_⟩
      obtain ⟨dc, df⟩ := δ
      obtain ⟨dc', df'⟩ := δ'
      cases hδ with
      | cons e hes => simpa [Dyn.value] using getOr_mapEnv hf e i s' hs' r.name hcol

end Columns

/-! ## Expressions -/

section Expressions

variable {need : ColumnRef → Prop} {full : Prop} {fc : ColumnRef → ColumnRef} {ms : List (ℕ → Row → Row)}
  {Γ Γ' : Static} {scope : List String} {subs subs' : List Meaning}

/-- the subqueries of a body under the two readings -/
def SubsRel (need : ColumnRef → Prop) (full : Prop) (scope : List String) (subs subs' : List Meaning) : Prop :=
  List.Forall₂ (MeaningRel need full scope) subs subs'

theorem SubsRel.get (h : SubsRel need full scope subs subs') (i : ℕ) (m : Meaning) (hm : subs[i]? = some m) :
    ∃ m', subs'[i]? = some m' ∧ MeaningRel need full scope m m' := by
  obtain ⟨hlen, hall⟩ := List.forall₂_iff_get.1 h
  obtain ⟨hi, rfl⟩ := List.getElem?_eq_some_iff.1 hm
  have hi' : i < subs'.length := hlen ▸ hi
  exact ⟨subs'[i], getElem?_eq_getElem hi', hall i hi hi'⟩

/-- every column of an expression is tracked -/
def TrackedAll (need : ColumnRef → Prop) (full : Prop) (fc : ColumnRef → ColumnRef) (e : Expr) : Prop :=
  ∀ r ∈ e.columns, Tracked need full fc r

theorem sub_rel (hsub : SubsRel need full scope subs subs') (hΓ : StaticRel need full ms Γ Γ')
    (hscope : Γ.ctes.map Prod.fst = scope) (i : ℕ) (d : Den) (hd : (subs[i]?.bind fun m => m Γ) = some d) :
    ∃ d', (subs'[i]?.bind fun m => m Γ') = some d' ∧ d'.cols = d.cols ∧
      ∀ δ δ', DynRel ms δ δ' → d'.rows δ' = d.rows δ := by
  obtain ⟨m, hm, hmd⟩ := bind_eq_some_iff.1 hd
  obtain ⟨m', hm', hrel⟩ := hsub.get i m hm
  obtain ⟨d', hd', hcols, hrows⟩ := hrel ms Γ Γ' hΓ hscope d hmd
  exact ⟨d', by rw [hm', bind_some, hd'], hcols, hrows⟩

theorem wellScoped_mapColumns (hsub : SubsRel need full scope subs subs') (hΓ : StaticRel need full ms Γ Γ')
    (hscope : Γ.ctes.map Prod.fst = scope) (e : Expr) (he : TrackedAll need full fc e)
    (h : wellScoped subs Γ e = true) : wellScoped subs' Γ' (e.mapColumns fc) = true := by
  rw [wellScoped, List.all_eq_true] at h ⊢
  rw [Expr.mapColumns, Rose.labels_map]
  intro n' hn'
  obtain ⟨n, hn, rfl⟩ := mem_map.1 hn'
  have hok := h n hn
  cases n with
  | column r =>
    obtain ⟨slot, hslot⟩ := isSome_iff_exists.1 hok
    have hres := (resolve_rel hΓ.frames r (he r ((Expr.mem_columns e r).2 hn)) slot hslot).1
    simp only [Node.mapColumn, hres, isSome_some]
  | sub i =>
    obtain ⟨d, hd⟩ := isSome_iff_exists.1 hok
    obtain ⟨d', hd', _⟩ := sub_rel hsub hΓ hscope i d hd
    simp only [Node.mapColumn, hd', isSome_some]
  | _ => rfl

variable {δ δ' : Dyn}

theorem colValue_rel (hΓ : StaticRel need full ms Γ Γ') (hδ : DynRel ms δ δ') (r : ColumnRef)
    (hr : Tracked need full fc r) (h : (resolve Γ.frames r).isSome) :
    colValue Γ' δ' (fc r) = colValue Γ δ r := by
  obtain ⟨slot, hslot⟩ := isSome_iff_exists.1 h
  obtain ⟨hres, hval⟩ := resolve_rel hΓ.frames r hr slot hslot
  rw [colValue, colValue, hres, hslot, map_some, map_some, hval δ δ' hδ.frames]

theorem subValue_rel (hsub : SubsRel need full scope subs subs') (hΓ : StaticRel need full ms Γ Γ')
    (hscope : Γ.ctes.map Prod.fst = scope) (hδ : DynRel ms δ δ') (i : ℕ)
    (h : (subs[i]?.bind fun m => m Γ).isSome) : subValue subs' Γ' δ' i = subValue subs Γ δ i := by
  obtain ⟨d, hd⟩ := isSome_iff_exists.1 h
  obtain ⟨d', hd', _, hrows⟩ := sub_rel hsub hΓ hscope i d hd
  rw [subValue, subValue, hd, hd', map_some, map_some, hrows δ δ' hδ]

/-- **Conditions.** A well-scoped condition is true under both readings or under neither. -/
theorem condTrue_rel (I : Interp) (hsub : SubsRel need full scope subs subs') (hΓ : StaticRel need full ms Γ Γ')
    (hscope : Γ.ctes.map Prod.fst = scope) (hδ : DynRel ms δ δ') (o : Option Expr)
    (ho : ∀ e ∈ o, TrackedAll need full fc e) (hw : o.all (wellScoped subs Γ) = true) :
    condTrue I subs' Γ' δ' (o.map (Expr.mapColumns fc)) = condTrue I subs Γ δ o := by
  cases o with
  | none => rfl
  | some e =>
    have hlab : ∀ n ∈ e.labels, _ := all_eq_true.1 (show wellScoped subs Γ e = true from hw)
    have hv : evalExpr I (colValue Γ' δ') (subValue subs' Γ' δ') (e.mapColumns fc) =
        evalExpr I (colValue Γ δ) (subValue subs Γ δ) e := by
      rw [evalExpr_mapColumns]
      refine evalExpr_congr I _ _ _ _ e (fun r hr => ?_) fun i hi => ?_
      · exact colValue_rel hΓ hδ r (ho e rfl r hr) (hlab _ ((Expr.mem_columns e r).1 hr))
      · exact subValue_rel hsub hΓ hscope hδ i (hlab _ hi)
    rw [condTrue, condTrue, map_some, all_some, all_some, holds, hv, holds]

end Expressions

end Langbridge.Federation.Sql
