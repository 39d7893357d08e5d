/-
The rows and the column names of the answer to a semantic query (`query_semantic_models` of
`runtime/application/semantic.py`, `_normalize_semantic_rows` and `_columns_from_rows` of
`runtime/bootstrap/configured_runtime.py`). The output columns are split at a double underscore, to get the names of the
members back; without rows, the column names are those of the request.
-/
import Mathlib.Data.List.TakeWhile
import Langbridge.Semantic.OutputColumns

namespace Langbridge.Semantic.Compiler.ResultRows

open Core Semantic.DateRanges Semantic.Resolver List Function PyText

/-! ## Normalising rows -/

/-- `str.split("__", 1)`, if there is a double underscore -/
def cut : List Char → Option (List Char × List Char)
  | '_' :: '_' :: rest => some ([], rest)
  | c :: rest => (cut rest).map fun p => (c :: p.1, p.2)
  | [] => none

/-- the dataset and the suffix that a key is split into: of three parts the last two -/
def parts (key : List Char) : Option (List Char × List Char) := (cut key).map fun p => (cut p.2).getD p

/-- the key of a normalised row -/
def normalizeKey (datasets : List String) (key : String) : String :=
  match parts key.toList with
  | some (d, f) => if String.ofList d ∈ datasets then String.ofList d ++ "." ++ String.ofList f else key
  | none => key

section Rows

variable {V : Type} (datasets : List String)

def normalizeSemanticRow (row : Dict String V) : Dict String V :=
  Dict.ofList (row.entries.map fun e => (normalizeKey datasets e.1, e.2))

def normalizeSemanticRows (rows : List (Dict String V)) : List (Dict String V) :=
  rows.map (normalizeSemanticRow datasets)

end Rows

/-! ## Names for the columns -/

/-- a time dimension of a request -/
structure AskedTime where
  dimension : String
  granularity : Option String

section Names

variable [PyText]

/-- the texts that are not blank -/
def displaySemanticMembers (members : List String) : List String := members.filter (strip · ≠ "")

/-- the part after the last dot -/
def afterLastDot (text : String) : String := String.ofList (text.toList.reverse.takeWhile (· ≠ '.')).reverse

def displayTimeDimension (item : AskedTime) : String :=
  let dimension := afterLastDot (strip item.dimension)
  let granularity := norm (item.granularity.getD "")
  if dimension ≠ "" ∧ granularity ≠ "" then dimension ++ "_" ++ granularity else dimension

def columnsFromRows {V : Type} (rows : List (Dict String V)) (fallbackNames : List String) : List String :=
  match rows with
  | row :: _ => row.keys
  | [] => displaySemanticMembers fallbackNames

end Names

/-! ## Answers -/

/-- where a dataset of the executed model comes from: a dataset of a selected model, with the key of that model if there
are several -/
structure Origin where
  key : Option String
  dataset : String

def Origin.executed (o : Origin) : String :=
  match o.key with
  | none => o.dataset
  | some key => key ++ "__" ++ o.dataset

/-- a member as it is named in the request: the field of a dataset, with the granularity, or a metric -/
inductive Output
  | field (origin : Origin) (field : String)
  | metric (key : String)

def Output.name : Output → String
  | .field o f => o.dataset ++ "." ++ f
  | .metric key => key

/-- its text in the executed model -/
def Output.text : Output → String
  | .field o f => o.executed ++ "." ++ f
  | .metric key => key

/-- a selected member as the request names it -/
def output (origin : String → Origin) : Selection → Output
  | .dimension d => .field (origin d.dataset) d.column
  | .timeDimension t => .field (origin t.dimension.dataset) <|
      match given t.granularity with
      | none => t.dimension.column
      | some g => t.dimension.column ++ "_" ++ g
  | .measure m => .field (origin m.dataset) m.column
  | .metric m => .metric m.key

/-- the dataset of a selected member -/
def datasetOf : Selection → Option String
  | .dimension d => some d.dataset
  | .timeDimension t => some t.dimension.dataset
  | .measure m => some m.dataset
  | .metric _ => none

section Answers

variable [PyNumerals] (S : Surroundings) (model : SemanticModel) (dialect : String)

/-- a request over some semantic models, and the translation of the query that is executed for it -/
structure Answer where
  query : SemanticQuery
  translation : Translation
  translated : translate S model dialect query = .ok translation
  /-- the datasets of the selected models -/
  datasets : List String
  origin : String → Origin
  executed : ∀ s ∈ translation.resolved.selections, ∀ d ∈ datasetOf s, (origin d).executed = d
  dimensions : List String
  timeDimensions : List AskedTime
  measures : List String
  /-- what becomes of a member of the request -/
  qualify : String → String
  asked_dimensions : query.dimensions = (displaySemanticMembers dimensions).map qualify
  asked_times : query.timeDimensions.map (fun t => (t.dimension, t.granularity)) =
    (timeDimensions.filter (strip ·.dimension ≠ "")).map fun t =>
      (qualify t.dimension, t.granularity.map norm)
  asked_measures : query.measures = (displaySemanticMembers measures).map qualify

namespace Answer

variable {S model dialect} (a : Answer S model dialect)

def columns : List String := a.translation.statement.columns

def outputs : List Output := a.translation.resolved.selections.map (output a.origin)

/-- the names of the selected members -/
def names : List String := a.outputs.map Output.name

/-- `output_fields` -/
def outputFields : List String :=
  displaySemanticMembers a.dimensions ++ a.timeDimensions.map displayTimeDimension ++ displaySemanticMembers a.measures

variable {V : Type}

def rows (raws : List (List V)) : List (Dict String V) :=
  normalizeSemanticRows a.datasets (formatRows a.columns raws)

def reported (raws : List (List V)) : List String := columnsFromRows (a.rows raws) a.outputFields

/-- **What an answer is for**: the output columns get the names of their members, which are different, each row keeps
every value under its name, and the names are reported whether or not there are rows. -/
structure Serves : Prop where
  named : a.columns.map (normalizeKey a.datasets) = a.names
  apart : a.names.Nodup
  keeps : ∀ (V : Type) (raw : List V), raw.length = a.columns.length → ∀ name value, (name, value) ∈ a.names.zip raw →
    (normalizeSemanticRow a.datasets (formatRow a.columns raw)).get? name = some value
  reported : ∀ (V : Type) (raws : List (List V)), (∀ raw ∈ raws, raw.length = a.columns.length) →
    a.reported raws = a.reported ([] : List (List V))

end Answer

end Answers

/-! ## Legible names -/

/-- letters, digits and underscores -/
def Plain (text : String) : Prop := ∀ c ∈ text.toList, isNameChar c = true

/-- a plain dataset of the selected models whose name has no double underscore, nor gets one from an underscore after
it -/
structure SplitsOff (datasets : List String) (dataset field : String) : Prop where
  dataset_plain : Plain dataset
  field_plain : Plain field
  selected : dataset ∈ datasets
  closed : cut (dataset.toList ++ ['_']) = none

/-- a text is not split at a dataset's name -/
def LeftAlone (datasets : List String) (key : String) : Prop :=
  ∀ d f, parts key.toList = some (d, f) → String.ofList d ∉ datasets

/-- a member whose name its output column shows: the field has no double underscore, or, after the key of a model, the
key has none -/
def Output.Legible (datasets : List String) : Output → Prop
  | .field ⟨none, d⟩ f => SplitsOff datasets d f ∧ cut f.toList = none
  | .field ⟨some key, d⟩ f => SplitsOff datasets d f ∧ cut (aliasChars key.toList ++ ['_']) = none
  | .metric m => (Plain m ∧ LeftAlone datasets m) ∨
      ∃ d f, m = d ++ "." ++ f ∧ SplitsOff datasets d f ∧ cut f.toList = none

/-! ## Double underscores -/

theorem cut_cons_eq_none_iff (c : Char) (l : List Char) :
    cut (c :: l) = none ↔ cut l = none ∧ ¬(c = '_' ∧ l.head? = some '_') := by
  by_cases hpair : c = '_' ∧ l.head? = some '_'
  · obtain ⟨rfl, hhead⟩ := hpair
    obtain ⟨rest, rfl⟩ := head?_eq_some_iff.1 hhead
    simp [cut]
  · rw [cut, Option.map_eq_none_iff, and_iff_left hpair]
    grind

/-- a text is cut at its first double underscore -/
theorem cut_eq_some_iff (l a b : List Char) :
    cut l = some (a, b) ↔ l = a ++ '_' :: '_' :: b ∧ cut (a ++ ['_']) = none := by
  fun_induction cut l generalizing a b with
  | case1 rest => rcases a with _ | ⟨c, _ | ⟨d, a⟩⟩ <;> grind [cut]
  | case2 c rest hpair ih =>
    rw [Option.map_eq_some_iff]
    rcases a with _ | ⟨c, a⟩
    · grind
    · rw [cons_append, cons_append, cut_cons_eq_none_iff]
      cases a <;> grind
  | case3 => simp

theorem parts_eq_some_iff (key d f : List Char) : parts key = some (d, f) ↔ cut (d ++ ['_']) = none ∧
    ((key = d ++ '_' :: '_' :: f ∧ cut f = none) ∨
      ∃ p, key = p ++ '_' :: '_' :: (d ++ '_' :: '_' :: f) ∧ cut (p ++ ['_']) = none) := by
  rw [parts, Option.map_eq_some_iff]
  constructor
  · rintro ⟨⟨first, rest⟩, hcut, hparts⟩
    cases hrest : cut rest <;> grind [cut_eq_some_iff]
  · rintro ⟨hd, ⟨hkey, hf⟩ | ⟨p, hkey, hp⟩⟩
    · exact ⟨(d, f), by grind [cut_eq_some_iff]⟩
    · exact ⟨(p, d ++ '_' :: '_' :: f), by grind [cut_eq_some_iff]⟩

/-- **A normalised key**: the key itself, or the field that it is split into. -/
theorem normalizeKey_eq_iff (datasets : List String) (key name : String) : normalizeKey datasets key = name ↔
    (key = name ∧ LeftAlone datasets key) ∨
      ∃ d f, parts key.toList = some (d, f) ∧ String.ofList d ∈ datasets ∧
        String.ofList d ++ "." ++ String.ofList f = name := by
  rw [normalizeKey, LeftAlone]
  cases hparts : parts key.toList with
  | none => simp
  | some p =>
    obtain ⟨d, f⟩ := p
    by_cases hmem : String.ofList d ∈ datasets
    · simp [hmem]
    · simp [hmem]

/-! ## Names that the output columns show -/

theorem plain_replaceRuns (inRun : Bool) (x : List Char) : ∀ c ∈ replaceRuns inRun x, isNameChar c = true := by
  induction x generalizing inRun with
  | nil => exact fun c h => absurd h not_mem_nil
  | cons d x ih =>
    rw [replaceRuns]
    split_ifs with hd
    · exact forall_mem_cons.2 ⟨(isNameChar_iff d).2 hd, ih false⟩
    · exact ih true
    · exact forall_mem_cons.2 ⟨by decide, ih true⟩

theorem plain_aliasChars (x : List Char) : ∀ c ∈ aliasChars x, isNameChar c = true := plain_replaceRuns false _

theorem aliasForMember_eq_self_iff (text : String) : aliasForMember text = text ↔ Plain text := by
  rw [aliasForMember_eq]
  constructor
  · intro h c hc
    rw [← h, String.toList_ofList] at hc
    exact plain_aliasChars _ c hc
  · intro h
    rw [aliasChars_names h, String.ofList_toList]

theorem dot_not_mem {text : String} (h : Plain text) : '.' ∉ text.toList := fun hdot => absurd (h '.' hdot) (by decide)

/-- two texts of two parts with a dot between them, of which the first has no other dot -/
theorem dotted_inj {d f d' f' : String} (hd : Plain d) (hf : Plain f) (h : d ++ "." ++ f = d' ++ "." ++ f') :
    d = d' ∧ f = f' := by
  have hlist : d.toList ++ '.' :: f.toList = d'.toList ++ '.' :: f'.toList := by
    simpa using congrArg String.toList h
  obtain ⟨hd, -, hf⟩ := (append_cons_inj_of_notMem (dot_not_mem hd) (dot_not_mem hf)).1 hlist
  exact ⟨String.toList_injective hd, String.toList_injective hf⟩

theorem aliasChars_dotted (d f : String) :
    aliasChars (d ++ "." ++ f).toList = aliasChars d.toList ++ '_' :: '_' :: aliasChars f.toList := by
  rw [String.toList_append, String.toList_append, append_assoc]
  exact aliasChars_separator (c := '.') (by decide) d.toList f.toList

theorem aliasChars_keyed (k x : List Char) : aliasChars (k ++ '_' :: '_' :: x) = aliasChars k ++ '_' :: '_' :: aliasChars x := by
  have hline : isNameChar '_' = true := by decide
  rw [aliasChars_name hline]
  exact congrArg (aliasChars k ++ '_' :: ·) (aliasChars_name hline [] x)

/-- a key without dots gets the name of a field exactly if it is split into it -/
theorem normalizeKey_eq_dotted_iff (datasets : List String) {x : List Char} (hx : ∀ c ∈ x, isNameChar c = true)
    (d f : String) : normalizeKey datasets (String.ofList x) = d ++ "." ++ f ↔
      (Plain d ∧ Plain f) ∧ d ∈ datasets ∧ parts x = some (d.toList, f.toList) := by
  rw [normalizeKey_eq_iff, String.toList_ofList]
  constructor
  · rintro (⟨h, -⟩ | ⟨d', f', hparts, hmem, hname⟩)
    · have hdot : '.' ∈ x := by
        rw [← String.toList_ofList (l := x), h]
        simp
      exact absurd (hx '.' hdot) (by decide)
    · have hsub : (∀ c ∈ d', c ∈ x) ∧ ∀ c ∈ f', c ∈ x := by
        obtain ⟨-, ⟨rfl, -⟩ | ⟨p, rfl, -⟩⟩ := (parts_eq_some_iff x d' f').1 hparts
        · exact ⟨fun c hc => by simp [hc], fun c hc => by simp [hc]⟩
        · exact ⟨fun c hc => by simp [hc], fun c hc => by simp [hc]⟩
      have hd : Plain (String.ofList d') := fun c hc => hx c (hsub.1 c (by rwa [String.toList_ofList] at hc))
      have hf : Plain (String.ofList f') := fun c hc => hx c (hsub.2 c (by rwa [String.toList_ofList] at hc))
      obtain ⟨rfl, rfl⟩ := dotted_inj hd hf hname
      exact ⟨⟨hd, hf⟩, hmem, by rw [String.toList_ofList, String.toList_ofList, hparts]⟩
  · rintro ⟨-, hmem, hparts⟩
    exact .inr ⟨_, _, hparts, by rwa [String.ofList_toList], by rw [String.ofList_toList, String.ofList_toList]⟩

/-- the field of a dataset of the only model -/
theorem normalizeKey_field_iff (datasets : List String) (d f : String) :
    normalizeKey datasets (aliasForMember (d ++ "." ++ f)) = d ++ "." ++ f ↔
      SplitsOff datasets d f ∧ cut f.toList = none := by
  rw [aliasForMember_eq, normalizeKey_eq_dotted_iff datasets (plain_aliasChars _), aliasChars_dotted]
  constructor
  · rintro ⟨⟨hd, hf⟩, hmem, hparts⟩
    rw [aliasChars_names hd, aliasChars_names hf] at hparts
    obtain ⟨hclosed, ⟨-, hcut⟩ | ⟨p, hlong, -⟩⟩ := (parts_eq_some_iff _ _ _).1 hparts
    · exact ⟨⟨hd, hf, hmem, hclosed⟩, hcut⟩
    · have := congrArg List.length hlong
      simp at this
      omega
  · rintro ⟨h, hcut⟩
    rw [aliasChars_names h.dataset_plain, aliasChars_names h.field_plain]
    exact ⟨⟨h.dataset_plain, h.field_plain⟩, h.selected, (parts_eq_some_iff _ _ _).2 ⟨h.closed, .inl ⟨rfl, hcut⟩⟩⟩

/-- the field of a dataset of one of several models -/
theorem normalizeKey_keyed_iff (datasets : List String) (k d f : String) :
    normalizeKey datasets (aliasForMember (k ++ "__" ++ d ++ "." ++ f)) = d ++ "." ++ f ↔
      SplitsOff datasets d f ∧ cut (aliasChars k.toList ++ ['_']) = none := by
  have hchars : aliasChars (k ++ "__" ++ d ++ "." ++ f).toList =
      aliasChars k.toList ++ '_' :: '_' :: (aliasChars d.toList ++ '_' :: '_' :: aliasChars f.toList) := by
    rw [← aliasChars_dotted, ← aliasChars_keyed]
    simp
  rw [aliasForMember_eq, normalizeKey_eq_dotted_iff datasets (plain_aliasChars _), hchars]
  constructor
  · rintro ⟨⟨hd, hf⟩, hmem, hparts⟩
    rw [aliasChars_names hd, aliasChars_names hf] at hparts
    obtain ⟨hclosed, ⟨hshort, -⟩ | ⟨p, hkey, hp⟩⟩ := (parts_eq_some_iff _ _ _).1 hparts
    · have := congrArg List.length hshort
      simp at this
      omega
    · rw [append_cancel_right hkey]
      exact ⟨⟨hd, hf, hmem, hclosed⟩, hp⟩
  · rintro ⟨h, hkey⟩
    rw [aliasChars_names h.dataset_plain, aliasChars_names h.field_plain]
    exact ⟨⟨h.dataset_plain, h.field_plain⟩, h.selected,
      (parts_eq_some_iff _ _ _).2 ⟨h.closed, .inr ⟨_, rfl, hkey⟩⟩⟩

/-- **An output column** gets the name of its member exactly if that is legible. -/
theorem normalizeKey_column_iff (datasets : List String) (o : Output) :
    normalizeKey datasets (aliasForMember o.text) = o.name ↔ o.Legible datasets := by
  match o with
  | .field ⟨none, d⟩ f => exact normalizeKey_field_iff datasets d f
  | .field ⟨some k, d⟩ f => exact normalizeKey_keyed_iff datasets k d f
  | .metric m =>
    constructor
    · intro h
      rcases (normalizeKey_eq_iff datasets _ _).1 h with ⟨hself, halone⟩ | ⟨d, f, -, -, hname⟩
      · refine .inl ⟨(aliasForMember_eq_self_iff m).1 hself, ?_⟩
        rwa [show aliasForMember (Output.metric m).text = m from hself] at halone
      · refine .inr ⟨_, _, hname.symm, (normalizeKey_field_iff datasets _ _).1 ?_⟩
        rw [hname]
        exact h
    · rintro (⟨hplain, halone⟩ | ⟨d, f, rfl, h⟩)
      · have hself := (aliasForMember_eq_self_iff m).2 hplain
        exact (normalizeKey_eq_iff datasets _ _).2 (.inl ⟨hself, hself.symm ▸ halone⟩)
      · exact (normalizeKey_field_iff datasets d f).2 h

/-! ## Answers whose names are right -/

theorem entries_formatRow {V : Type} {columns : List String} (h : columns.Nodup) {raw : List V}
    (hlength : raw.length = columns.length) : (formatRow columns raw).entries = columns.zip raw := by
  have hkeys : ((columns.zip raw).map Prod.fst).Nodup := by
    rwa [map_fst_zip hlength.ge]
  rw [formatRow, Dict.ofList_entries ⟨columns.zip raw, hkeys⟩]

theorem normalizeSemanticRow_formatRow {V : Type} (datasets : List String) {columns : List String}
    (h : columns.Nodup) {raw : List V} (hlength : raw.length = columns.length) :
    normalizeSemanticRow datasets (formatRow columns raw) = formatRow (columns.map (normalizeKey datasets)) raw := by
  rw [normalizeSemanticRow, entries_formatRow h hlength, formatRow, zip_map_left]
  rfl

section Serving

variable [PyNumerals] {S : Surroundings} {model : SemanticModel} {dialect : String}

/-- the text of a selected member in the executed model -/
theorem text_output (a : Answer S model dialect) {s : Selection} (hs : s ∈ a.translation.resolved.selections) :
    (output a.origin s).text = s.text := by
  have hexecuted := a.executed s hs
  cases s with
  | dimension d => exact congrArg (· ++ "." ++ d.column) (hexecuted d.dataset rfl)
  | measure m => exact congrArg (· ++ "." ++ m.column) (hexecuted m.dataset rfl)
  | metric m => rfl
  | timeDimension t =>
    have hd := hexecuted t.dimension.dataset rfl
    cases hg : given t.granularity with
    | none => simp [output, Output.text, Selection.text, hg, hd]
    | some g => simp [output, Output.text, Selection.text, hg, hd, String.append_assoc]

theorem columns_outputs (a : Answer S model dialect) :
    a.columns = a.outputs.map fun o => aliasForMember o.text := by
  have htranslated := translate_ok a.translated
  rw [Answer.columns, columns_eq htranslated, Answer.outputs, List.map_map]
  refine map_congr_left fun s hs => ?_
  rw [column_eq s (lettered_of_translated htranslated s hs), comp_apply, text_output a hs]

theorem named_iff (a : Answer S model dialect) :
    a.columns.map (normalizeKey a.datasets) = a.names ↔ ∀ o ∈ a.outputs, o.Legible a.datasets := by
  rw [columns_outputs, Answer.names, List.map_map, map_inj_left]
  simp only [comp_apply, normalizeKey_column_iff]

/-- the rows of an answer whose columns get the names of their members -/
theorem rows_named (a : Answer S model dialect) (hnamed : a.columns.map (normalizeKey a.datasets) = a.names)
    (hapart : a.names.Nodup) {V : Type} {raw : List V} (hlength : raw.length = a.columns.length) :
    normalizeSemanticRow a.datasets (formatRow a.columns raw) = formatRow a.names raw := by
  rw [← hnamed] at hapart ⊢
  exact normalizeSemanticRow_formatRow a.datasets (hapart.of_map _) hlength

omit [PyNumerals] in
theorem length_sides {α β : Type} (l : List (α ⊕ β)) :
    l.length = (l.filterMap Sum.getLeft?).length + (l.filterMap Sum.getRight?).length := by
  induction l with
  | nil => rfl
  | cons x l ih =>
    rw [length_cons, ih]
    cases x with
    | inl a => exact (Nat.succ_add _ _).symm
    | inr b => exact (Nat.add_succ _ _).symm

theorem displayed_append (l l' : List String) :
    displaySemanticMembers (l ++ l') = displaySemanticMembers l ++ displaySemanticMembers l' := filter_append ..

theorem displayed_displayed (l : List String) :
    displaySemanticMembers (displaySemanticMembers l) = displaySemanticMembers l := by
  rw [displaySemanticMembers, displaySemanticMembers, filter_filter]
  simp

omit [PyNumerals] in
theorem dot_not_mem_afterLastDot (text : String) : '.' ∉ (afterLastDot text).toList := by
  rw [afterLastDot, String.toList_ofList, mem_reverse]
  exact fun h => absurd (mem_takeWhile_imp h) (by decide)

theorem displayTime_blank {item : AskedTime} (h : strip item.dimension = "") : displayTimeDimension item = "" := by
  have hlast : afterLastDot "" = "" := by decide
  simp [displayTimeDimension, h, hlast]

/-- the dataset of a time dimension is not displayed -/
theorem dot_not_mem_displayTime (a : Answer S model dialect) :
    ∀ item ∈ a.timeDimensions, '.' ∉ (displayTimeDimension item).toList := by
  intro item hitem
  by_cases hblank : strip item.dimension = ""
  · rw [displayTime_blank hblank]
    exact not_mem_nil
  have htranslated := translate_ok a.translated
  obtain ⟨-, hresolved, -⟩ := resolveQuery_ok htranslated.resolved
  have hgranularity : ∀ g, norm (item.granularity.getD "") = g → g ≠ "" → Plain g := by
    rintro g rfl hne
    have hasked : (a.qualify item.dimension, item.granularity.map norm) ∈
        a.query.timeDimensions.map fun t => (t.dimension, t.granularity) := by
      rw [a.asked_times]
      exact mem_map.2 ⟨item, mem_filter.2 ⟨hitem, decide_eq_true hblank⟩, rfl⟩
    obtain ⟨t, ht, hpair⟩ := mem_map.1 hasked
    obtain ⟨ref, href, hok⟩ := forall₂_exists_right (forall₂_of_mapM hresolved) t ht
    have hsame : ref.granularity = item.granularity.map norm :=
      (granularity_of_resolved hok).trans (Prod.mk.inj hpair).2
    cases hitemgran : item.granularity with
    | none => simp [hitemgran] at hne
    | some g =>
      rw [hitemgran] at hsame hne
      rw [Option.getD_some] at hne ⊢
      have hmem : Selection.timeDimension ref ∈ a.translation.resolved.selections := by
        simp [Resolved.selections, href]
      refine lettered_of_translated htranslated _ hmem _ ?_
      rw [given, hsame, Option.map_some, Option.filter_some, if_pos (decide_eq_true hne)]
  have hlast := dot_not_mem_afterLastDot (strip item.dimension)
  rw [displayTimeDimension]
  split_ifs with hboth
  · have hg := dot_not_mem (hgranularity _ rfl hboth.2)
    simpa using ⟨hlast, hg⟩
  · exact hlast

theorem timeDimensions_eq_nil_iff (a : Answer S model dialect) :
    a.query.timeDimensions = [] ↔ a.translation.resolved.timeDimensions = [] := by
  obtain ⟨-, hresolved, -⟩ := resolveQuery_ok (translate_ok a.translated).resolved
  rw [← length_eq_zero_iff, (forall₂_of_mapM hresolved).length_eq, length_eq_zero_iff]

/-- the names that are reported with rows and without them -/
theorem reported_iff (a : Answer S model dialect) : a.names = displaySemanticMembers a.outputFields ↔
    a.query.timeDimensions = [] ∧
      displaySemanticMembers a.dimensions ++ displaySemanticMembers a.measures = a.names := by
  obtain ⟨hdimensions, -, members, hmembers, hmeasures, hmetrics⟩ :=
    resolveQuery_ok (translate_ok a.translated).resolved
  have hnames : a.names = (a.translation.resolved.dimensions.map fun d => (output a.origin (.dimension d)).name) ++
      ((a.translation.resolved.timeDimensions.map fun t => (output a.origin (.timeDimension t)).name) ++
      ((a.translation.resolved.measures.map fun m => (output a.origin (.measure m)).name) ++
        a.translation.resolved.metrics.map fun m => (output a.origin (.metric m)).name)) := by
    simp [Answer.names, Answer.outputs, Resolved.selections, append_assoc, comp_def]
  have hfields : displaySemanticMembers a.outputFields = displaySemanticMembers a.dimensions ++
      (displaySemanticMembers (a.timeDimensions.map displayTimeDimension) ++ displaySemanticMembers a.measures) := by
    rw [Answer.outputFields, displayed_append, displayed_append, displayed_displayed, displayed_displayed,
      append_assoc]
  have hleft : (displaySemanticMembers a.dimensions).length = a.translation.resolved.dimensions.length := by
    rw [← (forall₂_of_mapM hdimensions).length_eq, a.asked_dimensions, length_map]
  have hright : (displaySemanticMembers a.measures).length =
      a.translation.resolved.measures.length + a.translation.resolved.metrics.length := by
    rw [hmeasures, hmetrics, ← length_sides, ← (forall₂_of_mapM hmembers).length_eq, a.asked_measures, length_map]
  rw [timeDimensions_eq_nil_iff, hfields]
  constructor
  · intro h
    rw [hnames] at h
    obtain ⟨-, hrest⟩ := List.append_inj h (by rw [length_map, hleft])
    obtain ⟨htimes, -⟩ := append_inj' hrest (by simp [hright])
    have hnone : a.translation.resolved.timeDimensions = [] := by
      refine eq_nil_iff_forall_not_mem.2 fun t ht => ?_
      have hmem := mem_map_of_mem (f := fun t => (output a.origin (.timeDimension t)).name) ht
      rw [htimes] at hmem
      obtain ⟨item, hitem, hdisplay⟩ := mem_map.1 (mem_of_mem_filter hmem)
      refine dot_not_mem_displayTime a item hitem ?_
      rw [hdisplay]
      simp [output, Output.name]
    refine ⟨hnone, ?_⟩
    rw [hnone, map_nil] at htimes
    rw [hnames, h, ← htimes, nil_append]
  · rintro ⟨hnone, hgiven⟩
    have hblank : displaySemanticMembers (a.timeDimensions.map displayTimeDimension) = [] := by
      have hasked := a.asked_times
      rw [(timeDimensions_eq_nil_iff a).2 hnone, map_nil, eq_comm, map_eq_nil_iff, filter_eq_nil_iff]
        at hasked
      refine filter_eq_nil_iff.2 fun name hname => ?_
      obtain ⟨item, hitem, rfl⟩ := mem_map.1 hname
      rw [displayTime_blank (by simpa using hasked item hitem), PyText.strip_empty]
      decide
    rw [hblank, nil_append, hgiven]

/-- **An answer serves its purpose** exactly if its members are legible, none is selected twice, and the request names
each as the rows do, without time dimensions. -/
theorem serves_iff (a : Answer S model dialect) : a.Serves ↔ (∀ o ∈ a.outputs, o.Legible a.datasets) ∧ a.names.Nodup ∧
    a.query.timeDimensions = [] ∧
      displaySemanticMembers a.dimensions ++ displaySemanticMembers a.measures = a.names := by
  have hreported : ∀ hnamed : a.columns.map (normalizeKey a.datasets) = a.names, a.names.Nodup →
      ∀ (V : Type) (raws : List (List V)), raws ≠ [] → (∀ raw ∈ raws, raw.length = a.columns.length) →
        a.reported raws = a.names := by
    intro hnamed hapart V raws hne hlengths
    obtain ⟨raw, raws, rfl⟩ := exists_cons_of_ne_nil hne
    have hlength := hlengths raw mem_cons_self
    have hnames : raw.length = a.names.length := by rw [hlength, ← hnamed, length_map]
    change (normalizeSemanticRow a.datasets (formatRow a.columns raw)).keys = a.names
    rw [rows_named a hnamed hapart hlength, Dict.keys, entries_formatRow hapart hnames, map_fst_zip hnames.ge]
  constructor
  · intro h
    refine ⟨(named_iff a).1 h.named, h.apart, (reported_iff a).1 ?_⟩
    have hsame := h.reported ℕ [List.replicate a.columns.length 0] (by simp)
    rwa [hreported h.named h.apart ℕ _ (cons_ne_nil _ _) (by simp)] at hsame
  · rintro ⟨hlegible, hapart, hasked⟩
    have hnamed := (named_iff a).2 hlegible
    refine ⟨hnamed, hapart, ?_, ?_⟩
    · intro V raw hlength name value hmem
      rw [rows_named a hnamed hapart hlength]
      exact formatRow_keeps hapart raw (by rw [hlength, ← hnamed, length_map]) hmem
    · intro V raws hlengths
      by_cases hne : raws = []
      · rw [hne]
      · rw [hreported hnamed hapart V raws hne hlengths]
        exact (reported_iff a).2 hasked

end Serving

/-! ## A hyphen -/

section Hyphen

open scoped Ascii

/-- **A value under another name**: a dimension with a hyphen is answered under the name of another one. -/
theorem hyphen_renamed : ∃ a : Answer totalsRead totals "duckdb", a.dimensions = ["orders.net-total"] ∧
    a.names = ["orders.net-total"] ∧ (a.rows [[5]]).map Dict.entries = [[("orders.net_total", 5)]] ∧ ¬a.Serves := by
  have hrun : (translate totalsRead totals "duckdb" (queryOf ["orders.net-total"])).toOption.map
      (fun t => (t.resolved.selections.map Selection.text, t.statement.columns)) =
        some (["orders.net-total"], ["orders__net_total"]) := by
    decide +kernel
  cases ht : translate totalsRead totals "duckdb" (queryOf ["orders.net-total"]) with
  | error e =>
    rw [ht] at hrun
    cases hrun
  | ok t =>
    rw [ht] at hrun
    obtain ⟨htexts, hcolumns⟩ := Prod.mk.inj (Option.some.inj hrun)
    let a : Answer totalsRead totals "duckdb" := {
      query := queryOf ["orders.net-total"]
      translation := t
      translated := ht
      datasets := ["orders"]
      origin := fun d => ⟨none, d⟩
      executed := fun _ _ _ _ => rfl
      dimensions := ["orders.net-total"]
      timeDimensions := []
      measures := []
      qualify := id
      asked_dimensions := by decide +kernel
      asked_times := rfl
      asked_measures := rfl }
    have hnames : a.names = ["orders.net-total"] := by
      rw [← htexts, Answer.names, Answer.outputs, List.map_map]
      refine map_congr_left fun s hs => ?_
      rw [← text_output a hs]
      cases s <;> rfl
    have hcut : a.columns.map (normalizeKey a.datasets) = ["orders.net_total"] := by
      change t.statement.columns.map (normalizeKey ["orders"]) = _
      rw [hcolumns]
      decide +kernel
    refine ⟨a, rfl, hnames, ?_, fun hserves => ?_⟩
    · change [(normalizeSemanticRow ["orders"] (formatRow t.statement.columns [5])).entries] = _
      rw [hcolumns]
      decide +kernel
    · have hnamed := hserves.named
      rw [hcut, hnames] at hnamed
      exact absurd hnamed (by decide)

end Hyphen

end Langbridge.Semantic.Compiler.ResultRows
