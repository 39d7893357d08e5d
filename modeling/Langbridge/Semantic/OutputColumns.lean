/-
The output columns of a semantic query (`_build_selects` of `semantic/query/translator.py`, `build_result_metadata` and
`format_rows` of `semantic/query/engine.py`). The names of the columns are made of the full texts of the members by
mapping characters to underscores; the metadata makes them again from the query, and the rows are keyed by them.
-/
import Langbridge.Core.Gaps
import Langbridge.Semantic.Compiler

namespace Langbridge.Semantic.Compiler

open Core Core.Gaps Federation.Sql Semantic.DateRanges List
  Semantic.Resolver

/-! ## Members -/

/-- a selected member -/
inductive Selection
  | dimension (d : Resolver.DimensionRef)
  | timeDimension (t : TimeDimensionRef)
  | measure (m : Resolver.MeasureRef)
  | metric (m : MetricRef)

/-- the full text of a member: its dataset and column with the granularity, or its key -/
def Selection.text : Selection → String
  | .dimension d => d.dataset ++ "." ++ d.column
  | .timeDimension t =>
    t.dimension.dataset ++ "." ++ t.dimension.column ++
      match given t.granularity with
      | none => ""
      | some g => "_" ++ g
  | .measure m => m.dataset ++ "." ++ m.column
  | .metric m => m.key

/-- the members in the order of the select list -/
def Resolved.selections (r : Resolved) : List Selection :=
  r.dimensions.map .dimension ++ r.timeDimensions.map .timeDimension ++ r.measures.map .measure ++
    r.metrics.map .metric

def Statement.columns (s : Statement) : List String := s.select.map Prod.snd

/-! ## Metadata and rows -/

structure MetadataEntry where
  column : String
  name : String
  source : String
deriving DecidableEq

def dimensionEntry (d : Resolver.DimensionRef) : MetadataEntry :=
  ⟨aliasForMember (d.dataset ++ "." ++ d.column), orElse d.aliasName d.column, d.dataset ++ "." ++ d.column⟩

def timeDimensionEntry (d : Resolver.DimensionRef) (granularity : Option String) : MetadataEntry :=
  let label := orElse d.aliasName d.column
  ⟨aliasForTimeDimension d.dataset d.column (given granularity),
    match given granularity with
    | none => label
    | some g => label ++ " (" ++ g ++ ")",
    d.dataset ++ "." ++ d.column⟩

def measureEntry : Resolver.MeasureRef ⊕ MetricRef → MetadataEntry
  | .inr m => ⟨aliasForMember m.key, m.key, m.key⟩
  | .inl m => ⟨aliasForMember (m.dataset ++ "." ++ m.column), m.column, m.dataset ++ "." ++ m.column⟩

section Engine

variable [PyNumerals] (model : SemanticModel)

def buildResultMetadata (q : SemanticQuery) : Except TranslateError (List MetadataEntry) := do
  let dimensions ← q.dimensions.mapM fun member =>
    ((resolveDimension model member).map dimensionEntry).mapError .model
  let timeDimensions ← q.timeDimensions.mapM fun item =>
    ((resolveDimension model item.dimension).map fun d => timeDimensionEntry d item.granularity).mapError .model
  let measures ← q.measures.mapM fun member => (resolveMeasureOrMetric model member).map measureEntry
  return dimensions ++ timeDimensions ++ measures

/-- `dict(zip(columns, row))` -/
def formatRow {V : Type} (columns : List String) (row : List V) : Dict String V := Dict.ofList (columns.zip row)

def formatRows {V : Type} (columns : List String) (rows : List (List V)) : List (Dict String V) :=
  rows.map (formatRow columns)

end Engine

/-! ## What the columns are for -/

section Serving

variable [PyNumerals] (S : Surroundings) (model : SemanticModel) (dialect : String)

def Selection.ofMeasure : Resolver.MeasureRef ⊕ MetricRef → Selection
  | .inl m => .measure m
  | .inr m => .metric m

/-- the selected members of a query, in its order -/
def selectionsOf (q : SemanticQuery) : Except TranslateError (List Selection) := do
  let dimensions ← q.dimensions.mapM fun member => (resolveDimension model member).mapError .model
  let timeDimensions ← q.timeDimensions.mapM (resolveTimeDimension model)
  let members ← q.measures.mapM (resolveMeasureOrMetric model)
  return dimensions.map .dimension ++ timeDimensions.map .timeDimension ++ members.map .ofMeasure

/-- the clause of the select list for a member -/
def clauseOf (aliasMap : Dict String String) : Selection → Except TranslateError (Term × String)
  | .dimension d => (selectDimension S aliasMap d).map asTerm
  | .timeDimension t => (selectTimeDimension S dialect aliasMap t).map asTerm
  | .measure m => selectMeasure S aliasMap m
  | .metric m => selectMetric S aliasMap m

/-- **What the output columns are for**: they are pairwise different, rows keyed by them keep every value, and each
entry of the metadata names the column of its member. -/
structure ColumnsServe (q : SemanticQuery) (t : Translation) : Prop where
  apart : t.statement.columns.Nodup
  keeps : ∀ (V : Type) (row : List V), row.length = t.statement.columns.length → ∀ column value,
    (column, value) ∈ t.statement.columns.zip row → (formatRow t.statement.columns row).get? column = some value
  described : ∃ members entries, selectionsOf model q = .ok members ∧ buildResultMetadata model q = .ok entries ∧
    List.Forall₂ (fun member entry => ∃ term, clauseOf S dialect t.aliasMap member = .ok (term, entry.column) ∧
      (term, entry.column) ∈ t.statement.select) members entries

/-! ## Outlines -/

/-- letters and digits -/
def isMark (c : Char) : Bool := c.isAlphanum

/-- the characters that stand for underscores one by one -/
def isSeparator (c : Char) : Bool := c = '.' || c = '_' || c = ' '

/-- a dot is two wide -/
def weight (c : Char) : ℕ := if c = '.' then 2 else if isSeparator c then 1 else 0

/-- the width of a gap: its separators, and one for each stretch of other characters -/
def gapWidth (gap : List Char) : ℕ :=
  (gap.map weight).sum + (gap.splitOnP isSeparator).countP fun stretch => !stretch.isEmpty

/-- two texts have the same letters and digits, and gaps of the same widths -/
def SameText (a b : String) : Prop := SameOutline isMark gapWidth a.toList b.toList

instance (a b : String) : Decidable (SameText a b) := inferInstanceAs (Decidable (SameOutline _ _ _ _))

/-- no two selected members have texts of one outline -/
def Resolved.Apart (r : Resolved) : Prop :=
  (r.selections.map Selection.text).Pairwise fun a b => ¬SameText a b

end Serving

/-! ## Names -/

/-- an element of a text with the dots and the blanks replaced -/
def spaced (c : Char) : List Char := if c = '.' then ['_', '_'] else if c = ' ' then ['_'] else [c]

def aliasChars (text : List Char) : List Char := replaceRuns false (text.flatMap spaced)

theorem aliasForMember_eq (text : String) : aliasForMember text = String.ofList (aliasChars text.toList) := rfl

theorem isNameChar_iff (c : Char) : isNameChar c = true ↔
    ( 'A' ≤ c ∧ c ≤ 'Z') ∨ ( 'a' ≤ c ∧ c ≤ 'z') ∨ ( '0' ≤ c ∧ c ≤ '9') ∨ c = '_' := by
  simp only [isNameChar, Char.isAlphanum, Ascii.isAlpha_eq, Bool.or_eq_true, Ascii.isUpper_iff, Ascii.isLower_iff,
    Char.isDigit, Bool.and_eq_true, decide_eq_true_eq]
  exact or_assoc.trans or_assoc

variable {c : Char}

theorem replaceRuns_cons (inRun : Bool) (hc : isNameChar c = true) (y : List Char) :
    replaceRuns inRun (c :: y) = c :: replaceRuns false y := by
  rw [replaceRuns, if_pos ((isNameChar_iff c).1 hc)]

theorem replaceRuns_name (inRun : Bool) (hc : isNameChar c = true) (x y : List Char) :
    replaceRuns inRun (x ++ c :: y) = replaceRuns inRun x ++ c :: replaceRuns false y := by
  induction x generalizing inRun with
  | nil => exact replaceRuns_cons inRun hc y
  | cons d x ih =>
    rw [cons_append, replaceRuns, replaceRuns]
    split_ifs
    · rw [ih, cons_append]
    · exact ih true
    · rw [ih, cons_append]

theorem spaced_of_ne (hdot : c ≠ '.') (hblank : c ≠ ' ') : spaced c = [c] := by
  rw [spaced, if_neg hdot, if_neg hblank]

theorem spaced_name {c : Char} (hc : isNameChar c = true) : spaced c = [c] := by
  apply spaced_of_ne
  · rintro rfl
    exact absurd hc (by decide)
  · rintro rfl
    exact absurd hc (by decide)

variable {x : List Char}

/-- names stay as they are -/
theorem aliasChars_names (hx : ∀ c ∈ x, isNameChar c = true) : aliasChars x = x := by
  induction x with
  | nil => rfl
  | cons c x ih =>
    have hc := hx c mem_cons_self
    rw [aliasChars, flatMap_cons, spaced_name hc, singleton_append, replaceRuns_cons _ hc]
    exact congrArg (c :: ·) (ih fun d hd => hx d (mem_cons_of_mem c hd))

/-- a character of a name ends every stretch -/
theorem aliasChars_name (hc : isNameChar c = true) (x y : List Char) :
    aliasChars (x ++ c :: y) = aliasChars x ++ c :: aliasChars y := by
  rw [aliasChars, flatMap_append, flatMap_cons, spaced_name hc, singleton_append, replaceRuns_name _ hc]
  rfl

/-! ## Gaps -/

/-- what follows a replaced character in its stretch is left out -/
theorem replaceRuns_others (hx : ∀ c ∈ x, isNameChar c = false) : replaceRuns true x = [] := by
  induction x with
  | nil => rfl
  | cons c x ih =>
    have hc : ¬_ := fun h => Bool.noConfusion ((hx c mem_cons_self).symm.trans ((isNameChar_iff c).2 h))
    rw [replaceRuns, if_neg hc, if_pos rfl]
    exact ih fun d hd => hx d (mem_cons_of_mem c hd)

/-- a stretch of other characters is one underscore -/
theorem aliasChars_stretch (hmark : ∀ c ∈ x, isMark c = false)
    (hseparator : ∀ c ∈ x, isSeparator c = false) : aliasChars x = List.replicate (gapWidth x) '_' := by
  have hne : ∀ c ∈ x, c ≠ '.' ∧ c ≠ '_' ∧ c ≠ ' ' := fun c hc => by
    simpa [isSeparator, and_assoc] using hseparator c hc
  have hname : ∀ c ∈ x, isNameChar c = false := fun c hc => by
    have halphanum : c.isAlphanum = false := hmark c hc
    rw [isNameChar, halphanum, decide_eq_false (hne c hc).2.1]
    rfl
  have hspaced : x.flatMap spaced = x := by
    calc x.flatMap spaced = x.flatMap fun c => [c] :=
          flatMap_congr fun c hc => spaced_of_ne (hne c hc).1 (hne c hc).2.2
      _ = x := flatMap_singleton' x
  have hweight : (x.map weight).sum = 0 := by
    apply sum_eq_zero
    intro n hn
    obtain ⟨c, hc, rfl⟩ := mem_map.1 hn
    rw [weight, if_neg (hne c hc).1, hseparator c hc, if_neg Bool.false_ne_true]
  rw [aliasChars, hspaced, gapWidth, hweight, splitOnP_eq_singleton hseparator]
  cases x with
  | nil => rfl
  | cons c x =>
    have hc : ¬_ := fun h => Bool.noConfusion ((hname c mem_cons_self).symm.trans ((isNameChar_iff c).2 h))
    rw [replaceRuns, if_neg hc, if_neg Bool.false_ne_true,
      replaceRuns_others fun d hd => hname d (mem_cons_of_mem c hd)]
    rfl

/-- a separator is as many underscores as it is wide -/
theorem aliasChars_separator (hc : isSeparator c = true) (x y : List Char) :
    aliasChars (x ++ c :: y) = aliasChars x ++ (List.replicate (weight c) '_' ++ aliasChars y) := by
  have hname : isNameChar '_' = true := by decide
  simp only [isSeparator, Bool.or_eq_true, decide_eq_true_eq] at hc
  rcases hc with (rfl | rfl) | rfl
  · rw [aliasChars, flatMap_append, flatMap_cons]
    change replaceRuns false (x.flatMap spaced ++ '_' :: '_' :: y.flatMap spaced) = _
    rw [replaceRuns_name _ hname, replaceRuns_cons _ hname]
    rfl
  · exact aliasChars_name hname x y
  · rw [aliasChars, flatMap_append, flatMap_cons]
    change replaceRuns false (x.flatMap spaced ++ '_' :: y.flatMap spaced) = _
    rw [replaceRuns_name _ hname]
    rfl

theorem gapWidth_separator (hc : isSeparator c = true) (hx : ∀ d ∈ x, isSeparator d = false) (y : List Char) :
    gapWidth (x ++ c :: y) = gapWidth x + (weight c + gapWidth y) := by
  rw [gapWidth, gapWidth, gapWidth, splitOnP_mark hx hc, splitOnP_eq_singleton hx, map_append, map_cons,
    sum_append, sum_cons, countP_cons, countP_cons, countP_nil]
  omega

/-- **A gap** is as many underscores as it is wide. -/
theorem aliasChars_gap (x : List Char) (hx : ∀ c ∈ x, isMark c = false) :
    aliasChars x = List.replicate (gapWidth x) '_' := by
  induction hn : x.length using Nat.strong_induction_on generalizing x with
  | h n ih =>
    subst hn
    rcases gap_or_mark isSeparator x with hothers | ⟨o, c, y, rfl, ho, hc⟩
    · exact aliasChars_stretch hx hothers
    · have hlt : y.length < (o ++ c :: y).length := by
        rw [length_append, length_cons]
        omega
      have hy := ih y.length hlt y (fun d hd => hx d (mem_append_right _ (mem_cons_of_mem c hd))) rfl
      have hstretch := aliasChars_stretch (fun d hd => hx d (mem_append_left _ hd)) ho
      rw [aliasChars_separator hc, hstretch, hy, gapWidth_separator hc ho, replicate_add, replicate_add]

theorem filled_aliasChars : Filled isMark '_' gapWidth aliasChars where
  filler_gap := by decide
  gap := aliasChars_gap
  mark s c t _ hc := aliasChars_name (by rw [isNameChar]; exact Bool.or_eq_true_iff.2 (.inl hc)) s t

/-- **Two names are equal** exactly if the full texts have one outline. -/
theorem alias_eq_iff (a b : String) : aliasForMember a = aliasForMember b ↔ SameText a b := by
  rw [aliasForMember_eq, aliasForMember_eq, String.ofList_inj, SameText]
  exact filled_aliasChars.eq_iff a.toList b.toList

/-! ## Columns -/

def Selection.column : Selection → String
  | .dimension d => aliasForMember (d.dataset ++ "." ++ d.column)
  | .timeDimension t => aliasForTimeDimension t.dimension.dataset t.dimension.column (given t.granularity)
  | .measure m => aliasForMember (m.dataset ++ "." ++ m.column)
  | .metric m => aliasForMember m.key

def Selection.Lettered : Selection → Prop
  | .timeDimension t => ∀ g, given t.granularity = some g → ∀ c ∈ g.toList, isNameChar c = true
  | _ => True

theorem column_eq (s : Selection) (h : s.Lettered) : s.column = aliasForMember s.text := by
  cases s with
  | dimension d => rfl
  | measure m => rfl
  | metric m => rfl
  | timeDimension t =>
    cases hg : given t.granularity with
    | none =>
      rw [Selection.column, Selection.text, hg, aliasForTimeDimension]
      exact congrArg aliasForMember (String.append_empty).symm
    | some g =>
      rw [Selection.column, Selection.text, hg, aliasForTimeDimension]
      apply String.toList_inj.1
      simp only [aliasForMember_eq, String.toList_append, String.toList_ofList]
      have hname : isNameChar '_' = true := by decide
      rw [show "_".toList = ['_'] from rfl, singleton_append, aliasChars_name hname, aliasChars_names (h g hg),
        append_assoc, singleton_append]

section Serving

variable [PyNumerals] {S : Surroundings} {model : SemanticModel} {dialect : String}

theorem clause_column {aliasMap : Dict String String} {s : Selection} {clause : Term × String}
    (h : clauseOf S dialect aliasMap s = .ok clause) : clause.2 = s.column := by
  cases s with
  | dimension d =>
    obtain ⟨e, he, rfl⟩ := map_eq_ok_iff.1 h
    obtain ⟨e', -, rfl⟩ := map_eq_ok_iff.1 he
    rfl
  | timeDimension t =>
    obtain ⟨e, he, rfl⟩ := map_eq_ok_iff.1 h
    obtain ⟨base, -, he⟩ := of_bind_ok he
    obtain ⟨e', -, he⟩ := of_bind_ok he
    cases he
    rfl
  | measure m =>
    obtain ⟨e, -, rfl⟩ := map_eq_ok_iff.1 h
    rfl
  | metric m =>
    obtain ⟨e, -, rfl⟩ := map_eq_ok_iff.1 h
    rfl

variable {r : Resolved}

/-- the select list, member by member -/
theorem select_clauses {aliasMap : Dict String String} {select : List (Term × String)}
    {groupBy : List Expr} (h : buildSelects S dialect aliasMap r = .ok (select, groupBy)) :
    List.Forall₂ (fun s clause => clauseOf S dialect aliasMap s = .ok clause) r.selections select := by
  obtain ⟨ds, ts, ms, ks, hselected⟩ := buildSelects_ok h
  have hmap : ∀ {α : Type} {l : List α} {r : List (Expr × String)} {f : α → Except TranslateError (Expr × String)}
      {g : α → Selection}, (∀ a, clauseOf S dialect aliasMap (g a) = (f a).map asTerm) →
      List.Forall₂ (fun a e => f a = .ok e) l r →
      List.Forall₂ (fun s clause => clauseOf S dialect aliasMap s = .ok clause) (l.map g) (r.map asTerm) := by
    intro α l r f g hg hall
    rw [List.forall₂_map_left_iff, List.forall₂_map_right_iff]
    refine hall.imp fun a e he => ?_
    rw [hg, he]
    rfl
  rw [Resolved.selections, hselected.select, map_append]
  refine rel_append (rel_append (rel_append ?_ ?_) ?_) ?_
  · exact hmap (fun _ => rfl) hselected.dimensions
  · exact hmap (fun _ => rfl) hselected.timeDimensions
  · exact List.forall₂_map_left_iff.2 hselected.measures
  · exact List.forall₂_map_left_iff.2 hselected.metrics

variable {q : SemanticQuery} {t : Translation}

theorem columns_eq (h : Translated S model dialect q t) :
    t.statement.columns = t.resolved.selections.map Selection.column :=
  map_eq_of_forall₂ (fun _ _ hclause => clause_column hclause) (select_clauses h.selects)

/-! ## Members of a query -/

theorem resolveQuery_ok (h : resolveQuery S model dialect q = .ok r) :
    (q.dimensions.mapM fun member => (resolveDimension model member).mapError TranslateError.model) =
        .ok r.dimensions ∧
      q.timeDimensions.mapM (resolveTimeDimension model) = .ok r.timeDimensions ∧
      ∃ members, q.measures.mapM (resolveMeasureOrMetric model) = .ok members ∧
        r.measures = members.filterMap Sum.getLeft? ∧ r.metrics = members.filterMap Sum.getRight? := by
  obtain ⟨dimensions, hdimensions, h⟩ := of_bind_ok h
  obtain ⟨timeDimensions, htimeDimensions, h⟩ := of_bind_ok h
  obtain ⟨members, hmembers, h⟩ := of_bind_ok h
  obtain ⟨filters, -, h⟩ := of_bind_ok h
  obtain ⟨segments, -, h⟩ := of_bind_ok h
  cases h
  exact ⟨hdimensions, htimeDimensions, members, hmembers, rfl, rfl⟩

/-- the selected members of a query are those of the select list -/
theorem selectionsOf_ok (h : resolveQuery S model dialect q = .ok r) :
    ∃ members, selectionsOf model q = .ok members ∧ ∀ s ∈ members, s ∈ r.selections := by
  obtain ⟨hdimensions, htimeDimensions, members, hmembers, hmeasures, hmetrics⟩ := resolveQuery_ok h
  refine ⟨r.dimensions.map .dimension ++ r.timeDimensions.map .timeDimension ++ members.map .ofMeasure, ?_, ?_⟩
  · rw [selectionsOf, hdimensions, htimeDimensions, hmembers]
    rfl
  · intro s hs
    simp only [Resolved.selections, mem_append, mem_map] at hs ⊢
    rcases hs with (hs | hs) | ⟨m, hm, rfl⟩
    · exact .inl (.inl (.inl hs))
    · exact .inl (.inl (.inr hs))
    · cases m with
      | inl m =>
        have hmem : m ∈ r.measures := hmeasures ▸ mem_filterMap.2 ⟨_, hm, rfl⟩
        exact .inl (.inr ⟨m, hmem, rfl⟩)
      | inr m =>
        have hmem : m ∈ r.metrics := hmetrics ▸ mem_filterMap.2 ⟨_, hm, rfl⟩
        exact .inr ⟨m, hmem, rfl⟩

theorem granularity_of_resolved {item : TimeDimension} {ref : TimeDimensionRef}
    (h : resolveTimeDimension model item = .ok ref) : ref.granularity = item.granularity := by
  rw [resolveTimeDimension] at h
  cases hd : resolveDimension model item.dimension with
  | ok d =>
    rw [hd] at h
    cases h
    rfl
  | error e =>
    rw [hd] at h
    cases h

/-- the granularities of a translation are units -/
theorem lettered_of_translated (h : Translated S model dialect q t) : ∀ s ∈ t.resolved.selections, s.Lettered := by
  intro s hs
  cases s with
  | dimension d => trivial
  | measure m => trivial
  | metric m => trivial
  | timeDimension ref =>
    intro g hg
    have hclause := forall₂_exists_right (select_clauses h.selects) _ hs
    obtain ⟨clause, -, hclause⟩ := hclause
    obtain ⟨e, he, -⟩ := map_eq_ok_iff.1 hclause
    obtain ⟨base, -, he⟩ := of_bind_ok he
    obtain ⟨truncated, htruncated, -⟩ := of_bind_ok he
    have hmem : ref ∈ t.resolved.timeDimensions := by
      simpa [Resolved.selections] using hs
    obtain ⟨-, htimeDimensions, -⟩ := resolveQuery_ok h.resolved
    obtain ⟨item, -, hitem⟩ := (mem_mapM htimeDimensions ref).1 hmem
    have hgranularity := granularity_of_resolved hitem
    have hnorm : PyText.norm g = g := by
      obtain ⟨hsome, -⟩ := Option.filter_eq_some_iff.1 hg
      have := item.normalized
      rw [← hgranularity, hsome] at this
      exact Option.some.inj this
    simp only [truncate, hg, dateTrunc, hnorm] at htruncated
    by_cases hunit : g ∈ supportedUnits
    · have hall : (supportedUnits.all fun unit => unit.toList.all isNameChar) = true := by decide +kernel
      exact all_eq_true.1 (all_eq_true.1 hall g hunit)
    · rw [if_pos hunit] at htruncated
      cases htruncated

omit [PyNumerals] in
/-- what the members of a list resolve to, with something made of each -/
theorem mapM_made {α β γ : Type} {f : α → Except TranslateError β} {g : α → Except TranslateError γ} {u : β → γ}
    (h : ∀ a, (f a).map u = g a) {l : List α} {r : List β} (hr : l.mapM f = .ok r) : l.mapM g = .ok (r.map u) := by
  have hmap := map_mapM (k := id) h (l := l)
  rw [hr, List.map_id] at hmap
  exact hmap.symm

/-- the entry of a member -/
def Selection.entry : Selection → MetadataEntry
  | .dimension d => dimensionEntry d
  | .timeDimension t => timeDimensionEntry t.dimension t.granularity
  | .measure m => measureEntry (.inl m)
  | .metric m => measureEntry (.inr m)

/-- **The metadata** has an entry for each selected member. -/
theorem buildResultMetadata_ok {members : List Selection} (h : selectionsOf model q = .ok members) :
    buildResultMetadata model q = .ok (members.map Selection.entry) := by
  obtain ⟨dimensions, hdimensions, h⟩ := of_bind_ok h
  obtain ⟨timeDimensions, htimeDimensions, h⟩ := of_bind_ok h
  obtain ⟨measures, hmeasures, h⟩ := of_bind_ok h
  cases h
  have hd := mapM_made (g := fun member => ((resolveDimension model member).map dimensionEntry).mapError .model)
    (u := dimensionEntry) (fun member => by cases resolveDimension model member <;> rfl) hdimensions
  have ht := mapM_made
    (g := fun item => ((resolveDimension model item.dimension).map fun d =>
      timeDimensionEntry d item.granularity).mapError .model)
    (u := fun ref => timeDimensionEntry ref.dimension ref.granularity)
    (fun item => by
      rw [resolveTimeDimension]
      cases resolveDimension model item.dimension <;> rfl) htimeDimensions
  have hm := mapM_made (g := fun member => (resolveMeasureOrMetric model member).map measureEntry) (fun _ => rfl)
    hmeasures
  rw [buildResultMetadata, hd, ht, hm, map_append, map_append, List.map_map, List.map_map, List.map_map]
  have hmeasure : Selection.entry ∘ Selection.ofMeasure = measureEntry := by
    funext m
    cases m <;> rfl
  rw [hmeasure]
  rfl

omit [PyNumerals] in
theorem entry_column (s : Selection) : s.entry.column = s.column := by
  cases s <;> rfl

/-! ## The claim of the columns -/

omit [PyNumerals] in
/-- rows keyed by different names keep every value -/
theorem formatRow_keeps {V : Type} {columns : List String} (h : columns.Nodup) (row : List V)
    (hlength : row.length = columns.length) {column : String} {value : V} (hmem : (column, value) ∈ columns.zip row) :
    (formatRow columns row).get? column = some value := by
  have hkeys : ((columns.zip row).map Prod.fst).Nodup := by
    rw [map_fst_zip (le_of_eq hlength.symm)]
    exact h
  have hrow : formatRow columns row = ⟨columns.zip row, hkeys⟩ := Dict.ofList_entries ⟨columns.zip row, hkeys⟩
  rw [hrow, Dict.get?_eq_some_iff]
  exact hmem

/-- the names are different exactly if the texts have different outlines -/
theorem columns_nodup_iff (h : Translated S model dialect q t) : t.statement.columns.Nodup ↔ t.resolved.Apart := by
  have hlettered := lettered_of_translated h
  have hcolumns : t.statement.columns = (t.resolved.selections.map Selection.text).map aliasForMember := by
    rw [columns_eq h, List.map_map]
    exact map_congr_left fun s hs => column_eq s (hlettered s hs)
  rw [hcolumns, Resolved.Apart, List.Nodup, pairwise_map]
  exact List.Pairwise.iff fun {a b} => not_congr (alias_eq_iff a b)

variable (S model dialect)

/-- **Output columns** serve their purpose exactly where no two selected members have texts of one outline. -/
theorem output_columns_iff (q : SemanticQuery) (t : Translation) (h : translate S model dialect q = .ok t) :
    ColumnsServe S model dialect q t ↔ t.resolved.Apart := by
  have htranslated := translate_ok h
  apply Iff.intro
  · exact fun hserve => (columns_nodup_iff htranslated).1 hserve.apart
  · intro hapart
    have hnodup := (columns_nodup_iff htranslated).2 hapart
    obtain ⟨members, hmembers, hmem⟩ := selectionsOf_ok htranslated.resolved
    refine ⟨hnodup, fun V row hlength column value => formatRow_keeps hnodup row hlength, members, _, hmembers,
      buildResultMetadata_ok hmembers, ?_⟩
    rw [List.forall₂_map_right_iff, List.forall₂_same]
    intro s hs
    obtain ⟨⟨term, column⟩, hin, hclause⟩ := forall₂_exists_right (select_clauses htranslated.selects) s (hmem s hs)
    obtain rfl : column = s.column := clause_column hclause
    rw [entry_column]
    exact ⟨term, hclause, hin⟩

end Serving

/-! ## A hyphen -/

section Hyphen

open scoped Ascii

/-- one dataset with three dimensions -/
def totals : SemanticModel where
  datasets := Dict.ofList [("orders", ⟨none, none, none, some
    [⟨"net-total", some "net", "decimal", none⟩, ⟨"net_total", some "total", "decimal", none⟩,
      ⟨"region", some "region", "string", none⟩], none, none⟩)]
  relationships := none
  metrics := none

def totalsRead : Surroundings :=
  .ofTable (["net", "total", "region"].map fun name => (name, Expr.column ⟨name, "", "", ""⟩))

def queryOf (dimensions : List String) : SemanticQuery := ⟨[], dimensions, [], [], [], .none, none, none⟩

/-- **A value is lost**: two dimensions that differ in a hyphen have one output column. -/
theorem net_total_lost : ∃ t,
    translate totalsRead totals "duckdb" (queryOf ["orders.net-total", "orders.net_total"]) = .ok t ∧
      (t.resolved.selections.map Selection.text).Nodup ∧
      ¬ColumnsServe totalsRead totals "duckdb" (queryOf ["orders.net-total", "orders.net_total"]) t := by
  have hrun : (translate totalsRead totals "duckdb" (queryOf ["orders.net-total", "orders.net_total"])).toOption.map
      (fun t => (t.resolved.selections.map Selection.text, t.statement.columns)) =
        some (["orders.net-total", "orders.net_total"], ["orders__net_total", "orders__net_total"]) := by
    decide +kernel
  cases ht : translate totalsRead totals "duckdb" (queryOf ["orders.net-total", "orders.net_total"]) with
  | error e =>
    rw [ht] at hrun
    cases hrun
  | ok t =>
    rw [ht] at hrun
    obtain ⟨htexts, hcolumns⟩ := Prod.mk.inj (Option.some.inj hrun)
    refine ⟨t, rfl, ?_, fun hserve => ?_⟩
    · rw [htexts]
      decide
    · have hnodup := hserve.apart
      rw [hcolumns] at hnodup
      exact absurd hnodup (by decide)

theorem output_columns_region : ∃ t,
    translate totalsRead totals "duckdb" (queryOf ["orders.net-total", "orders.region"]) = .ok t ∧
      ColumnsServe totalsRead totals "duckdb" (queryOf ["orders.net-total", "orders.region"]) t := by
  have hrun : (translate totalsRead totals "duckdb" (queryOf ["orders.net-total", "orders.region"])).toOption.map
      (fun t => t.resolved.selections.map Selection.text) = some ["orders.net-total", "orders.region"] := by
    decide +kernel
  cases ht : translate totalsRead totals "duckdb" (queryOf ["orders.net-total", "orders.region"]) with
  | error e =>
    rw [ht] at hrun
    cases hrun
  | ok t =>
    rw [ht] at hrun
    refine ⟨t, rfl, (output_columns_iff _ _ _ _ t ht).2 ?_⟩
    have htexts : t.resolved.selections.map Selection.text = _ := Option.some.inj hrun
    rw [Resolved.Apart, htexts]
    decide +kernel

end Hyphen

end Langbridge.Semantic.Compiler
