/-
Semantic queries over several semantic models (`runtime/bootstrap/configured_runtime.py`,
`runtime/services/semantic_query_execution_service.py`, `semantic/unified_query.py`). The members of a query are first
qualified with their datasets, then each dataset gets the key of its model before it. The unified model puts keys before
its datasets too, but makes them of the names differently: sanitised, and with a suffix for a name that comes again.
-/
import Langbridge.Runtime.FederatedDatasets

namespace Langbridge.Runtime.UnifiedQueries

open Core List Dict PyText
open Federation.Workflow (Uuid isUuidText isHexDigit)
open Runtime.FederatedDatasets (hexPrefix)

/-! ## Queries -/

/-- `TimeDimension` -/
structure TimeDimension where
  dimension : String
  granularity : Option String
  dateRange : Option Json
  compareDateRange : Option Json

/-- `FilterItem` -/
structure FilterItem where
  member : Option String
  dimension : Option String
  measure : Option String
  timeDimension : Option String
  operator : String
  values : Option (List String)

/-- an order: members with their directions, in one mapping or in several -/
inductive Order where
  | one (entry : Dict String String)
  | many (entries : List (Dict String String))

/-- `SemanticQuery` -/
structure SemanticQuery where
  measures : List String
  dimensions : List String
  timeDimensions : List TimeDimension
  filters : List FilterItem
  segments : List String
  order : Option Order
  limit : Option ℤ
  offset : Option ℤ
  timezone : Option String

/-- where a member stands in a query -/
inductive Clause where
  | measure
  | dimension
  | timeDimension
  | filterMember
  | filterDimension
  | filterMeasure
  | filterTimeDimension
  | segment
  | order
deriving DecidableEq

/-- an optional text that is not empty -/
def given (text : Option String) : List String := text.toList.filter (· ≠ "")

def Order.entries : Order → List (Dict String String)
  | one entry => [entry]
  | many entries => entries

def FilterItem.members (item : FilterItem) : Clause → List String
  | .filterMember => given item.member
  | .filterDimension => given item.dimension
  | .filterMeasure => given item.measure
  | .filterTimeDimension => given item.timeDimension
  | _ => []

def SemanticQuery.members (q : SemanticQuery) : Clause → List String
  | .measure => q.measures
  | .dimension => q.dimensions
  | .timeDimension => q.timeDimensions.map (·.dimension)
  | .segment => q.segments
  | .order => (q.order.toList.flatMap Order.entries).flatMap Dict.keys
  | c => q.filters.flatMap (·.members c)

/-! ## Semantic models -/

/-- the fields of a dataset -/
structure SemanticDataset where
  dimensions : List String
  measures : List String
  filters : List String

/-- the fields that a clause may name -/
def SemanticDataset.fields (d : SemanticDataset) : Clause → List String
  | .segment => d.filters
  | _ => d.dimensions ++ d.measures

structure SemanticModelRecord where
  id : Uuid
  name : String
  datasets : Dict String SemanticDataset

/-- what is read of `UnifiedSemanticSourceModelRequest` -/
structure UnifiedSource where
  id : Uuid
  aliasName : String
  name : Option String

/-- the selected models, of which none is selected twice, and the sources of the unified model configured for them; one
model alone is queried as it is -/
structure Selection where
  models : List SemanticModelRecord
  sources : List UnifiedSource
  once : (models.map (·.id)).Nodup
  several : 1 < models.length

section Queries

variable [PyStrip]

/-! ## Qualifying members -/

/-- the members with an unqualified name, each once -/
def qualifiedMatches (models : List SemanticModelRecord) (value : String) : List String :=
  (models.flatMap fun m => (m.datasets.entries.filter fun e =>
    value ∈ e.2.dimensions ∨ value ∈ e.2.measures).map fun e => e.1 ++ "." ++ value).dedup

def ambiguousMember (value : String) : String :=
  "Semantic member '" ++ value ++ "' is ambiguous across datasets; use a qualified name like 'dataset." ++ value ++ "'."

def qualifySemanticMember (models : List SemanticModelRecord) (member : String) : Except String String :=
  let value := strip member
  if value = "" then .error "semantic member names must not be empty."
  else if '.' ∈ value.toList then .ok value
  else
    match qualifiedMatches models value with
    | [qualified] => .ok qualified
    | [] => .error ("Semantic member '" ++ value ++ "' was not found in the selected semantic models.")
    | _ => .error (ambiguousMember value)

def normalizeSemanticMembers (models : List SemanticModelRecord) (members : List String) :
    Except String (List String) :=
  (members.filter fun member => strip member ≠ "").mapM (qualifySemanticMember models)

/-- one field of a filter, which is qualified where it is given -/
def normalizeFilterField (models : List SemanticModelRecord) (field : Option String) : Except String (Option String) :=
  match field with
  | none => .ok none
  | some text => if text = "" then .ok (some "") else (qualifySemanticMember models text).map some

def normalizeFilter (models : List SemanticModelRecord) (item : FilterItem) : Except String FilterItem := do
  let member ← normalizeFilterField models item.member
  let dimension ← normalizeFilterField models item.dimension
  let measure ← normalizeFilterField models item.measure
  let timeDimension ← normalizeFilterField models item.timeDimension
  return { item with member, dimension, measure, timeDimension }

def normalizeTimeDimensions (models : List SemanticModelRecord) (items : List TimeDimension) :
    Except String (List TimeDimension) :=
  (items.filter fun item => strip item.dimension ≠ "").mapM fun item => do
    let dimension ← qualifySemanticMember models item.dimension
    return { item with dimension }

/-- one mapping of `_normalize_order_for_models` -/
def normalizeEntry (models : List SemanticModelRecord) (entry : Dict String String) :
    Except String (Dict String String) := do
  let pairs ← entry.entries.mapM fun e => do
    let key ← qualifySemanticMember models e.1
    return (key, e.2)
  return Dict.ofList pairs

def normalizeOrder (models : List SemanticModelRecord) : Option Order → Except String (Option Order)
  | none => .ok none
  | some order => do
    let entries ← order.entries.mapM (normalizeEntry models)
    let kept := entries.filter fun entry => entry.entries ≠ []
    return match order with
      | .one _ => kept.head?.map .one
      | .many _ => some (.many kept)

/-- the query that `query_semantic_models` makes; a request has no segments -/
def normalizeQuery (models : List SemanticModelRecord) (q : SemanticQuery) : Except String SemanticQuery := do
  let measures ← normalizeSemanticMembers models q.measures
  let dimensions ← normalizeSemanticMembers models q.dimensions
  let filters ← q.filters.mapM (normalizeFilter models)
  let timeDimensions ← normalizeTimeDimensions models q.timeDimensions
  let order ← normalizeOrder models q.order
  return { q with measures, dimensions, filters, timeDimensions, order }

/-! ## Rewriting members -/

/-- the key of a model that is rewritten to: the alias, the name or the identifier of its configured source, or else the
name of the model -/
def rawKey (sources : List UnifiedSource) (m : SemanticModelRecord) : String :=
  let configured := (Dict.ofList (sources.map fun s =>
    (s.id, let named := strip (if s.aliasName = "" then s.name.getD "" else s.aliasName)
      if named = "" then s.id.text else named))).get? m.id
  match configured with
  | some key => if key = "" then m.name else key
  | none => m.name

/-- `_build_unified_dataset_source_keys` -/
def datasetSourceKeys (S : Selection) : Dict String String :=
  Dict.ofList (S.models.flatMap fun m => m.datasets.keys.map fun key => (key, rawKey S.sources m))

/-- the part before the first dot -/
def firstPart (text : String) : String := String.ofList (text.toList.takeWhile (· ≠ '.'))

/-- the part after the first dot -/
def lastPart (text : String) : String := String.ofList ((text.toList.dropWhile (· ≠ '.')).drop 1)

def rewrittenKey (S : Selection) (member : String) : Option String :=
  let normalized := strip member
  if '.' ∈ normalized.toList then
    (((datasetSourceKeys S).get? (firstPart normalized)).filter (· ≠ "")).map fun key =>
      key ++ "__" ++ firstPart normalized
  else none

/-- `_rewrite_member_for_unified_execution` -/
def rewriteMember (S : Selection) (member : String) : String :=
  match rewrittenKey S member with
  | some key => key ++ "." ++ lastPart (strip member)
  | none => strip member

/-- `_rewrite_order_for_unified_execution` -/
def rewriteOrder (S : Selection) (order : Order) : Order :=
  let rewrite := fun entry : Dict String String =>
    Dict.ofList (entry.entries.map fun e => (rewriteMember S e.1, e.2))
  match order with
  | .one entry => .one (rewrite entry)
  | .many entries => .many (entries.map rewrite)

/-- `_rewrite_semantic_query_for_unified_execution` -/
def rewriteQuery (S : Selection) (q : SemanticQuery) : SemanticQuery :=
  { q with
    measures := q.measures.map (rewriteMember S)
    dimensions := q.dimensions.map (rewriteMember S)
    filters := q.filters.map fun item => { item with member := some (rewriteMember S (item.member.getD "")) }
    timeDimensions := q.timeDimensions.map fun item => { item with dimension := rewriteMember S item.dimension }
    order := q.order.map (rewriteOrder S) }

/-- the query that is executed over the unified model -/
def executionQuery (S : Selection) (q : SemanticQuery) : Except String SemanticQuery := do
  let normalized ← normalizeQuery S.models q
  return rewriteQuery S normalized

/-! ## The unified model -/

/-- `re.sub(r"[^0-9A-Za-z_]+", "_", text).strip("_")` -/
def sanitized (text : String) : String :=
  String.ofList (trim (· = '_') (VectorIndex.subUnsafe false text.toList))

def buildSourceModelKey (preferredName : String) (modelId : Uuid) (seenKeys : List String) : String :=
  let name := sanitized (strip preferredName)
  let base := if name = "" then "model_" ++ hexPrefix modelId 8 else name
  if base ∈ seenKeys then base ++ "_" ++ hexPrefix modelId 8 else base

/-- the name that the key of a model is made of: the alias of its configured source, or its own -/
def preferredName (sources : List UnifiedSource) (m : SemanticModelRecord) : String :=
  match (Dict.ofList (sources.map fun s => (s.id, s.aliasName))).get? m.id with
  | some aliasName => if aliasName = "" then m.name else aliasName
  | none => m.name

/-- the models with their keys, made one after the other -/
def sourceKeys (sources : List UnifiedSource) : List String → List SemanticModelRecord →
    List (SemanticModelRecord × String)
  | _, [] => []
  | seenKeys, m :: models =>
    let key := buildSourceModelKey (preferredName sources m) m.id seenKeys
    (m, key) :: sourceKeys sources (key :: seenKeys) models

/-- what is read of `UnifiedSourceModel` -/
structure UnifiedSourceModel where
  key : Option String
  aliasName : Option String
  name : Option String
  modelId : Option Uuid
  datasets : Dict String SemanticDataset

def sourceKey (source : UnifiedSourceModel) : String :=
  let explicit := strip ((given source.key ++ given source.aliasName).head?.getD "")
  if explicit ≠ "" then explicit
  else
    let named := sanitized (lower (strip (source.name.getD "")))
    if named ≠ "" then named
    else
      match source.modelId with
      | some id => "model_" ++ hexPrefix id 8
      | none => "model"

def loadedSourceModels (S : Selection) : List UnifiedSourceModel :=
  (sourceKeys S.sources [] S.models).map fun e => ⟨some e.2, none, some e.1.name, some e.1.id, e.1.datasets⟩

def addDataset (datasets : Dict String SemanticDataset) (e : String × SemanticDataset) :
    Except String (Dict String SemanticDataset) :=
  if datasets.has e.1 then .error ("Duplicate dataset key '" ++ e.1 ++ "' detected while building unified model.")
  else .ok (datasets.set e.1 e.2)

/-- the datasets of `build_unified_semantic_model` -/
def unifiedDatasets (S : Selection) : Except String (Dict String SemanticDataset) :=
  ((loadedSourceModels S).flatMap fun source =>
    source.datasets.entries.map fun e => (sourceKey source ++ "__" ++ e.1, e.2)).foldlM addDataset Dict.empty

/-! ## The keys of the models -/

/-- a character that a key is made of -/
def isKeyChar (c : Char) : Prop := 33 ≤ c.toNat ∧ c.toNat ≤ 126

instance : DecidablePred isKeyChar := fun _ => instDecidableAnd

omit [PyStrip] in
theorem isKeyChar_of_safe {c : Char} (h : VectorIndex.isSafe c = true) : isKeyChar c := by
  rw [VectorIndex.isSafe, Bool.or_eq_true, decide_eq_true_eq] at h
  rcases h with h | rfl
  · have hbounds := alphanum_bounds h
    exact ⟨by omega, by omega⟩
  · exact ⟨by decide, by decide⟩

omit [PyStrip] in
theorem isKeyChar_subUnsafe {c : Char} : ∀ (inRun : Bool) (cs : List Char), c ∈ VectorIndex.subUnsafe inRun cs →
    isKeyChar c := by
  intro inRun cs h
  induction cs generalizing inRun with
  | nil => cases h
  | cons d cs ih =>
    rw [VectorIndex.subUnsafe] at h
    split_ifs at h with hsafe
    · rcases mem_cons.1 h with rfl | h
      · exact isKeyChar_of_safe hsafe
      · exact ih _ h
    · exact ih _ h
    · rcases mem_cons.1 h with rfl | h
      · exact ⟨by decide, by decide⟩
      · exact ih _ h

variable {text : String}

omit [PyStrip] in
theorem isKeyChar_sanitized {c : Char} (h : c ∈ (sanitized text).toList) : isKeyChar c := by
  rw [sanitized, String.toList_ofList] at h
  exact isKeyChar_subUnsafe _ _ (mem_of_mem_trim _ h)

omit [PyStrip] in
theorem isKeyChar_hexPrefix {id : Uuid} {n : ℕ} {c : Char} (h : c ∈ (hexPrefix id n).toList) : isKeyChar c := by
  rw [hexPrefix, String.toList_ofList] at h
  obtain ⟨hmem, hdash⟩ := mem_filter.1 (mem_of_mem_take h)
  have hcanonical := id.canonical
  rw [isUuidText, Bool.and_eq_true, all_eq_true] at hcanonical
  obtain ⟨i, hi, rfl⟩ := mem_iff_getElem.1 hmem
  have hdigit := hcanonical.2 (id.text.toList[i], i) (mem_zipIdx_iff_getElem?.2 (getElem?_eq_getElem hi))
  simp only at hdigit
  split_ifs at hdigit
  · simp_all
  · rw [isHexDigit, Bool.or_eq_true, Bool.and_eq_true, Bool.and_eq_true] at hdigit
    simp only [decide_eq_true_eq] at hdigit
    rcases hdigit with ⟨hlow, hhigh⟩ | ⟨hlow, hhigh⟩
    · exact ⟨le_trans (by decide) (show ( '0').toNat ≤ _ from hlow),
        le_trans (show _ ≤ ( '9').toNat from hhigh) (by decide)⟩
    · exact ⟨le_trans (by decide) (show ( 'a').toNat ≤ _ from hlow),
        le_trans (show _ ≤ ( 'f').toNat from hhigh) (by decide)⟩

/-- a key that visible characters make up -/
structure IsKey (key : String) : Prop where
  chars : ∀ c ∈ key.toList, isKeyChar c
  ne : key ≠ ""

variable {key : String}

omit [PyStrip] in
theorem IsKey.append (h : IsKey key) (ht : ∀ c ∈ text.toList, isKeyChar c) : IsKey (key ++ text) := by
  refine ⟨fun c hc => ?_, fun hnil => h.ne ?_⟩
  · rw [String.toList_append, mem_append] at hc
    exact hc.elim (h.chars c) (ht c)
  · have hlist := congrArg String.toList hnil
    rw [String.toList_append, String.toList_empty, append_eq_nil_iff] at hlist
    exact String.toList_eq_nil_iff.1 hlist.1

theorem isKey_buildSourceModelKey (name : String) (id : Uuid) (seenKeys : List String) :
    IsKey (buildSourceModelKey name id seenKeys) := by
  have hmodel : IsKey "model_" := ⟨forall_mem_of_all (p := isKeyChar) (by decide), by decide⟩
  have hbase : IsKey (if sanitized (strip name) = "" then "model_" ++ hexPrefix id 8
      else sanitized (strip name)) := by
    split_ifs with hempty
    · exact hmodel.append fun c hc => isKeyChar_hexPrefix hc
    · exact ⟨fun c hc => isKeyChar_sanitized hc, hempty⟩
  have hline : ∀ c ∈ "_".toList, isKeyChar c := forall_mem_of_all (p := isKeyChar) (by decide)
  have hkey : ∀ base, IsKey base → IsKey (if base ∈ seenKeys then base ++ "_" ++ hexPrefix id 8 else base) := by
    intro base hbase
    split_ifs
    · exact (hbase.append hline).append fun c hc => isKeyChar_hexPrefix hc
    · exact hbase
  exact hkey _ hbase

/-- every key that the service makes is one -/
theorem isKey_of_sourceKeys {sources : List UnifiedSource} {e : SemanticModelRecord × String} :
    ∀ {seenKeys : List String} {models : List SemanticModelRecord},
      e ∈ sourceKeys sources seenKeys models → IsKey e.2 := by
  intro seenKeys models h
  induction models generalizing seenKeys with
  | nil => cases h
  | cons m models ih =>
    rcases mem_cons.1 h with rfl | h
    · exact isKey_buildSourceModelKey _ _ _
    · exact ih h

/-- the unified model's own rule gives the key that the service has made -/
theorem sourceKey_loaded (h : IsKey key) (name : Option String) (id : Option Uuid)
    (datasets : Dict String SemanticDataset) : sourceKey ⟨some key, none, name, id, datasets⟩ = key := by
  have hgiven : (given (some key) ++ given none).head?.getD "" = key := by
    simp [given, h.ne]
  rw [sourceKey]
  simp only [hgiven, PyGraph.strip_graph key h.chars]
  exact if_pos h.ne

def unifiedEntries (S : Selection) : List (String × SemanticDataset) :=
  (sourceKeys S.sources [] S.models).flatMap fun e => e.1.datasets.entries.map fun d => (e.2 ++ "__" ++ d.1, d.2)

omit [PyStrip] in
theorem foldlM_addDataset (l : List (String × SemanticDataset)) (start datasets : Dict String SemanticDataset) :
    l.foldlM addDataset start = .ok datasets ↔
      ((start.entries ++ l).map Prod.fst).Nodup ∧ datasets.entries = start.entries ++ l := by
  induction l generalizing start with
  | nil =>
    rw [append_nil, foldlM_nil]
    constructor
    · intro h
      obtain rfl := Except.ok.inj h
      exact ⟨start.nodup, rfl⟩
    · exact fun h => congrArg Except.ok (Dict.ext h.2.symm)
  | cons e l ih =>
    rw [foldlM_cons, addDataset]
    split_ifs with hhas
    · refine iff_of_false (fun h => by cases h) fun h => ?_
      rw [map_append, map_cons, nodup_append] at h
      exact h.1.2.2 e.1 ((has_iff _ _).1 hhas) e.1 mem_cons_self rfl
    · have hnew : e.1 ∉ start.entries.map Prod.fst := fun hmem => hhas ((has_iff _ _).2 hmem)
      have hset : (start.set e.1 e.2).entries = start.entries ++ [e] := setEntry_of_not_mem e.1 e.2 _ hnew
      change l.foldlM addDataset (start.set e.1 e.2) = _ ↔ _
      rw [ih, hset, append_assoc, singleton_append]

/-- **The unified model** can be built exactly if its keys are distinct, and has its datasets then. -/
theorem unifiedDatasets_ok_iff (S : Selection) (datasets : Dict String SemanticDataset) :
    unifiedDatasets S = .ok datasets ↔
      ((unifiedEntries S).map Prod.fst).Nodup ∧ datasets.entries = unifiedEntries S := by
  have hentries : ((loadedSourceModels S).flatMap fun source =>
      source.datasets.entries.map fun e => (sourceKey source ++ "__" ++ e.1, e.2)) = unifiedEntries S := by
    rw [loadedSourceModels, flatMap_map, unifiedEntries]
    refine flatMap_congr fun e he => ?_
    rw [sourceKey_loaded (isKey_of_sourceKeys he)]
  rw [unifiedDatasets, hentries, foldlM_addDataset]
  rfl

/-! ## What becomes of the members of a query -/

def Clause.rewritten : Clause → Bool
  | .measure | .dimension | .timeDimension | .filterMember | .order => true
  | _ => false

/-- the clauses that leave blank members out -/
def Clause.dropsBlank : Clause → Bool
  | .measure | .dimension | .timeDimension => true
  | _ => false

/-- the qualified member that a text is taken for -/
def qualifyText (models : List SemanticModelRecord) (c : Clause) (text : String) : Except String (Option String) :=
  if c = .segment then .ok (some text)
  else if c.dropsBlank = true ∧ strip text = "" then .ok none
  else (qualifySemanticMember models text).map some

def rewriteText (S : Selection) (c : Clause) (text : String) : String :=
  if c.rewritten then rewriteMember S text else text

/-- the member of the executed query that a text becomes -/
def executeText (S : Selection) (c : Clause) (text : String) : Except String (Option String) :=
  (qualifyText S.models c text).map (Option.map (rewriteText S c))

variable {models : List SemanticModelRecord} {t : String}

theorem strip_qualified (h : qualifySemanticMember models text = .ok t) : strip t ≠ "" := by
  rw [qualifySemanticMember] at h
  split_ifs at h with hblank hdot
  · cases h
    rwa [PyText.strip_strip]
  · have hmem : t ∈ qualifiedMatches models (strip text) := by
      split at h
      · rename_i qualified hmatches
        rw [hmatches, ← Except.ok.inj h]
        exact mem_cons_self
      · cases h
      · cases h
    obtain ⟨m, -, hmem⟩ := mem_flatMap.1 (mem_dedup.1 hmem)
    obtain ⟨e, -, rfl⟩ := mem_map.1 hmem
    intro hempty
    have hdot : '.' ∈ (strip (e.1 ++ "." ++ strip text)).toList :=
      PyStrip.mem_strip (by simp) (by decide)
    rw [hempty] at hdot
    cases hdot

theorem qualified_ne_empty (h : qualifySemanticMember models text = .ok t) : t ≠ "" := by
  rintro rfl
  exact strip_qualified h PyText.strip_empty

variable {c : Clause}

/-- a step takes each of some texts to what it is qualified to, and fails if one of them is rejected; what it gives has
these beside the `done` ones -/
structure Takes (models : List SemanticModelRecord) {Y : Type} (step : Except String Y)
    (done texts : Clause → String → Prop) (out : Y → Clause → String → Prop) : Prop where
  mem : ∀ y, step = .ok y → ∀ c t,
    out y c t ↔ done c t ∨ ∃ text, texts c text ∧ qualifyText models c text = .ok (some t)
  ok : (∃ y, step = .ok y) ↔ ∀ c text, texts c text → ∃ r, qualifyText models c text = .ok r

/-- the members `l` of one clause -/
def only (c : Clause) (l : List String) (c' : Clause) (t : String) : Prop := c' = c ∧ t ∈ l

section Takes

variable {Y Z : Type} {step : Except String Y} {done texts texts' : Clause → String → Prop}
  {out : Y → Clause → String → Prop} {out' : Z → Clause → String → Prop}

theorem Takes.pure (y : Y) (h : ∀ c t, out y c t ↔ done c t) : Takes models (.ok y) done ⊥ out where
  mem _ hy c t := by
    cases hy
    simp [h]
  ok := iff_of_true ⟨y, rfl⟩ fun _ _ h => h.elim

theorem Takes.bind (h : Takes models step ⊥ texts out) (rest : Y → Except String Z)
    (hrest : ∀ y, step = .ok y → Takes models (rest y) (done ⊔ out y) texts' out') :
    Takes models (step >>= rest) done (texts ⊔ texts') out' where
  mem z hz c t := by
    obtain ⟨y, hy, hz⟩ := of_bind_ok hz
    rw [(hrest y hy).mem z hz]
    simp [h.mem y hy, or_and_right, exists_or, or_assoc]
  ok := by
    constructor
    · rintro ⟨z, hz⟩ c text htext
      obtain ⟨y, hy, hz⟩ := of_bind_ok hz
      exact htext.elim (h.ok.1 ⟨y, hy⟩ c text) ((hrest y hy).ok.1 ⟨z, hz⟩ c text)
    · intro hall
      obtain ⟨y, hy⟩ := h.ok.2 fun c text htext => hall c text (.inl htext)
      obtain ⟨z, hz⟩ := (hrest y hy).ok.2 fun c text htext => hall c text (.inr htext)
      exact ⟨z, by rw [hy]; exact hz⟩

theorem Takes.map (g : Y → Z) (h : Takes models step done texts out)
    (hout : ∀ y, step = .ok y → ∀ c t, out' (g y) c t ↔ out y c t) :
    Takes models (step >>= fun y => .ok (g y)) done texts out' where
  mem z hz c t := by
    obtain ⟨y, hy, hz⟩ := of_bind_ok hz
    cases hz
    rw [hout y hy, h.mem y hy]
  ok := by
    rw [← h.ok]
    constructor
    · rintro ⟨z, hz⟩
      obtain ⟨y, hy, -⟩ := of_bind_ok hz
      exact ⟨y, hy⟩
    · rintro ⟨y, hy⟩
      exact ⟨g y, by rw [hy]; rfl⟩

theorem Takes.mapM {f : Z → Except String Y} {textsOf : Z → Clause → String → Prop} {xs : List Z}
    (h : ∀ x ∈ xs, Takes models (f x) ⊥ (textsOf x) out) :
    Takes models (xs.mapM f) ⊥ (fun c t => ∃ x ∈ xs, textsOf x c t) (fun ys c t => ∃ y ∈ ys, out y c t) where
  mem ys hys c t := by
    constructor
    · rintro ⟨y, hy, ht⟩
      obtain ⟨x, hx, hxy⟩ := (mem_mapM hys y).1 hy
      obtain ⟨text, htext, ht⟩ := (((h x hx).mem y hxy c t).1 ht).resolve_left id
      exact .inr ⟨text, ⟨x, hx, htext⟩, ht⟩
    · rintro (hfalse | ⟨text, ⟨x, hx, htext⟩, ht⟩)
      · exact hfalse.elim
      · obtain ⟨y, hxy⟩ := exists_mapM_iff.1 ⟨ys, hys⟩ x hx
        exact ⟨y, (mem_mapM hys y).2 ⟨x, hx, hxy⟩, ((h x hx).mem y hxy c t).2 (.inr ⟨text, htext, ht⟩)⟩
  ok := by
    rw [exists_mapM_iff]
    constructor
    · rintro hall c text ⟨x, hx, htext⟩
      exact (h x hx).ok.1 (hall x hx) c text htext
    · exact fun hall x hx => (h x hx).ok.2 fun c text htext => hall c text ⟨x, hx, htext⟩

/-- texts that nothing becomes of may be left out -/
theorem Takes.of_drop {out' : Y → Clause → String → Prop} (h : Takes models step done texts out)
    (htexts : ∀ c t, texts' c t ↔ texts c t ∨ texts' c t ∧ qualifyText models c t = .ok none)
    (hout : ∀ y c t, out' y c t ↔ out y c t) : Takes models step done texts' out' where
  mem y hy c t := by
    rw [hout, h.mem y hy]
    refine or_congr_right ⟨fun ⟨text, htext, ht⟩ => ⟨text, (htexts c text).2 (.inl htext), ht⟩, ?_⟩
    rintro ⟨text, htext, ht⟩
    rcases (htexts c text).1 htext with htext | ⟨-, hnone⟩
    · exact ⟨text, htext, ht⟩
    · rw [hnone] at ht
      cases ht
  ok := by
    rw [h.ok]
    refine ⟨fun hall c text htext => ?_, fun hall c text htext => hall c text ((htexts c text).2 (.inl htext))⟩
    rcases (htexts c text).1 htext with htext | ⟨-, hnone⟩
    · exact hall c text htext
    · exact ⟨none, hnone⟩

theorem Takes.congr {out' : Y → Clause → String → Prop} (h : Takes models step done texts out)
    (htexts : ∀ c t, texts' c t ↔ texts c t) (hout : ∀ y c t, out' y c t ↔ out y c t) :
    Takes models step done texts' out' :=
  h.of_drop (fun c t => by rw [htexts]; exact (or_iff_left_of_imp And.left).symm) hout

end Takes

theorem takes_qualify (hc : c ≠ .segment) (hblank : c.dropsBlank = true → strip text ≠ "") :
    Takes models (qualifySemanticMember models text) ⊥ (only c [text]) (fun t => only c [t]) := by
  have hqualify : qualifyText models c text = (qualifySemanticMember models text).map some := by
    rw [qualifyText, if_neg hc, if_neg fun h => hblank h.1 h.2]
  constructor
  · intro t h c' t'
    simp only [only, mem_singleton, Pi.bot_apply, Prop.bot_eq_false, false_or, and_assoc, exists_and_left,
      exists_eq_left]
    refine and_congr_right ?_
    rintro rfl
    rw [hqualify, h]
    simp [Except.map, eq_comm]
  · simp [only, hqualify, map_eq_ok_iff]

/-- the members of a clause that leaves blank ones out -/
theorem takes_notBlank {X Y : Type} {f : X → Except String Y} (read : X → String) (out : Y → String)
    (hc : c.dropsBlank = true) (hf : ∀ x, strip (read x) ≠ "" →
      Takes models (f x) ⊥ (only c [read x]) (fun y => only c [out y])) (xs : List X) :
    Takes models ((xs.filter fun x => strip (read x) ≠ "").mapM f) ⊥ (only c (xs.map read))
      (fun ys => only c (ys.map out)) := by
  have hsegment : c ≠ .segment := by
    rintro rfl
    cases hc
  refine (Takes.mapM fun x hx => hf x (of_decide_eq_true (mem_filter.1 hx).2)).of_drop (fun c' t => ?_)
    fun ys c' t => ?_
  · constructor
    · rintro ⟨rfl, hmem⟩
      obtain ⟨x, hx, rfl⟩ := mem_map.1 hmem
      by_cases hblank : strip (read x) = ""
      · exact .inr ⟨⟨rfl, hmem⟩, by rw [qualifyText, if_neg hsegment, if_pos ⟨hc, hblank⟩]⟩
      · exact .inl ⟨x, mem_filter.2 ⟨hx, decide_eq_true hblank⟩, rfl, mem_singleton_self _⟩
    · rintro (⟨x, hx, rfl, ht⟩ | h)
      · exact ⟨rfl, mem_map.2 ⟨x, mem_of_mem_filter hx, (mem_singleton.1 ht).symm⟩⟩
      · exact h.1
  · simp only [only, mem_map, mem_singleton, eq_comm]
    tauto

theorem takes_normalizeSemanticMembers (hc : c.dropsBlank = true) (hsegment : c ≠ .segment) (members : List String) :
    Takes models (normalizeSemanticMembers models members) ⊥ (only c members) (only c) := by
  have h := takes_notBlank id id hc (fun x hx => @takes_qualify _ _ models _ hsegment fun _ => hx) members
  simp only [List.map_id] at h
  exact h

theorem takes_normalizeTimeDimensions (items : List TimeDimension) :
    Takes models (normalizeTimeDimensions models items) ⊥ (only .timeDimension (items.map (·.dimension)))
      fun items' => only .timeDimension (items'.map (·.dimension)) :=
  takes_notBlank _ _ rfl (fun _ hx => (takes_qualify (by decide) fun _ => hx).map _ fun _ _ _ _ => .rfl) items

theorem takes_normalizeFilterField (hc : c ≠ .segment) (hblank : c.dropsBlank = false) (field : Option String) :
    Takes models (normalizeFilterField models field) ⊥ (only c (given field)) (only c <| given ·) := by
  cases field with
  | none => exact (Takes.pure none fun _ _ => by simp [only, given]).congr (by simp [only, given]) fun _ _ _ => .rfl
  | some text =>
    rw [normalizeFilterField]
    split_ifs with hempty
    · exact (Takes.pure _ fun _ _ => by simp [only, given]).congr (by simp [only, given, hempty]) fun _ _ _ => .rfl
    · have hmap : (qualifySemanticMember models text).map some =
          qualifySemanticMember models text >>= fun t => .ok (some t) := by
        cases qualifySemanticMember models text <;> rfl
      rw [hmap]
      refine ((takes_qualify hc (by simp [hblank])).map _ fun t ht c t => ?_).congr (fun c t => ?_) fun _ _ _ => .rfl
      · simp [only, given, qualified_ne_empty ht]
      · simp [only, given, hempty]

theorem takes_normalizeFilter (item : FilterItem) :
    Takes models (normalizeFilter models item) ⊥ (fun c t => t ∈ item.members c)
      (fun item' c t => t ∈ item'.members c) := by
  refine Takes.congr (.bind (takes_normalizeFilterField (c := .filterMember) (by decide) rfl _) _ fun _ _ =>
    .bind (takes_normalizeFilterField (c := .filterDimension) (by decide) rfl _) _ fun _ _ =>
    .bind (takes_normalizeFilterField (c := .filterMeasure) (by decide) rfl _) _ fun _ _ =>
    .bind (takes_normalizeFilterField (c := .filterTimeDimension) (by decide) rfl _) _ fun _ _ =>
    .pure _ fun c t => ?_) (fun c t => ?_) fun _ _ _ => .rfl
  · cases c <;> simp [only, FilterItem.members]
  · cases c <;> simp [only, FilterItem.members]

theorem takes_normalizeEntry (entry : Dict String String) :
    Takes models (normalizeEntry models entry) ⊥ (only .order entry.keys) (fun entry' => only .order entry'.keys) := by
  have hpair : ∀ e ∈ entry.entries, Takes models (qualifySemanticMember models e.1 >>= fun key => .ok (key, e.2)) ⊥
      (only .order [e.1]) (fun pair => only .order [pair.1]) := fun e _ =>
    (takes_qualify (by decide) fun h => by cases h).map _ fun _ _ _ _ => .rfl
  refine ((Takes.mapM hpair).map Dict.ofList fun pairs _ c t => ?_).congr (fun c t => ?_) fun _ _ _ => .rfl
  · simp only [only, mem_keys_ofList, mem_map, mem_singleton, eq_comm]
    tauto
  · simp only [only, Dict.keys, mem_map, mem_singleton, eq_comm]
    tauto

def orderMembers (order : Option Order) : List String := (order.toList.flatMap Order.entries).flatMap Dict.keys

theorem takes_normalizeOrder (order : Option Order) : Takes models (normalizeOrder models order) ⊥
    (only .order (orderMembers order)) (only .order <| orderMembers ·) := by
  cases order with
  | none =>
    exact (Takes.pure none fun _ _ => by simp [only, orderMembers]).congr (by simp [only, orderMembers])
      fun _ _ _ => .rfl
  | some order =>
    refine ((Takes.mapM fun entry _ => takes_normalizeEntry entry).map _ fun entries hentries c t => ?_).congr
      (fun c t => ?_) fun _ _ _ => .rfl
    · have hkept : ∀ l : List (Dict String String), (∃ entry ∈ l, only .order entry.keys c t) ↔
          only .order ((l.filter fun entry => entry.entries ≠ []).flatMap Dict.keys) c t := by
        intro l
        simp only [only, mem_flatMap, mem_filter, decide_eq_true_eq]
        constructor
        · rintro ⟨entry, hentry, rfl, ht⟩
          exact ⟨rfl, entry, ⟨hentry, fun hempty => by simp [Dict.keys, hempty] at ht⟩, ht⟩
        · rintro ⟨rfl, entry, hentry, ht⟩
          exact ⟨entry, hentry.1, rfl, ht⟩
      rw [hkept]
      cases order with
      | one entry =>
        obtain ⟨entry', hentry, h⟩ := of_bind_ok hentries
        cases h
        by_cases hempty : entry'.entries = []
        · simp [hempty, orderMembers]
        · simp [hempty, orderMembers, Order.entries]
      | many many => simp [orderMembers, Order.entries]
    · simp only [only, orderMembers, Option.toList_some, flatMap_singleton, mem_flatMap]
      tauto

omit [PyStrip] in
theorem members_order (q : SemanticQuery) : q.members .order = orderMembers q.order := rfl

/-- **Qualifying a query** takes its members one by one, in all clauses. -/
theorem takes_normalizeQuery (q : SemanticQuery) : Takes models (normalizeQuery models q) ⊥
    (fun c t => t ∈ q.members c) (fun q' c t => t ∈ q'.members c) := by
  have hsegments : Takes models (.ok q.segments) ⊥ (only .segment q.segments) (only .segment) := by
    constructor
    · rintro _ ⟨⟩ c t
      refine ⟨fun h => .inr ⟨t, h, if_pos h.1⟩, ?_⟩
      rintro (h | ⟨text, h, ht⟩)
      · exact h.elim
      · rw [qualifyText, if_pos h.1] at ht
        cases ht
        exact h
    · exact iff_of_true ⟨_, rfl⟩ fun c text h => ⟨some text, if_pos h.1⟩
  refine Takes.congr (hsegments.bind (fun _ => normalizeQuery models q) fun segments hsame =>
    .bind (takes_normalizeSemanticMembers (c := .measure) rfl (by decide) _) _ fun _ _ =>
    .bind (takes_normalizeSemanticMembers (c := .dimension) rfl (by decide) _) _ fun _ _ =>
    .bind (.mapM fun item _ => takes_normalizeFilter item) _ fun _ _ =>
    .bind (takes_normalizeTimeDimensions _) _ fun _ _ =>
    (takes_normalizeOrder q.order).bind _ fun _ _ => .pure _ fun c t => ?_) (fun c t => ?_) fun _ _ _ => .rfl
  · cases hsame
    cases c <;> simp [only, orderMembers, SemanticQuery.members, FilterItem.members]
  · cases c <;> simp [only, orderMembers, SemanticQuery.members, FilterItem.members]

theorem mem_normalizeQuery {q q' : SemanticQuery} (h : normalizeQuery models q = .ok q') (c : Clause) (t : String) :
    t ∈ q'.members c ↔ ∃ text ∈ q.members c, qualifyText models c text = .ok (some t) :=
  ((takes_normalizeQuery q).mem q' h c t).trans (or_iff_right id)

theorem rewriteMember_empty (S : Selection) : rewriteMember S "" = "" := by
  have hkey : rewrittenKey S "" = none := by
    rw [rewrittenKey, PyText.strip_empty]
    exact if_neg (by decide)
  rw [rewriteMember, hkey, PyText.strip_empty]

theorem rewriteMember_ne_empty (S : Selection) (h : strip text ≠ "") : rewriteMember S text ≠ "" := by
  rw [rewriteMember]
  cases rewrittenKey S text with
  | none => exact h
  | some key =>
    intro hempty
    have hdot : '.' ∈ (key ++ "." ++ lastPart (strip text)).toList := by simp
    rw [show key ++ "." ++ lastPart (strip text) = "" from hempty] at hdot
    cases hdot

theorem mem_rewriteQuery (S : Selection) (q : SemanticQuery)
    (hfilters : ∀ text ∈ q.members .filterMember, strip text ≠ "") (c : Clause) (t : String) :
    t ∈ (rewriteQuery S q).members c ↔ ∃ text ∈ q.members c, rewriteText S c text = t := by
  cases c with
  | measure => exact mem_map
  | dimension => exact mem_map
  | timeDimension =>
    simp [SemanticQuery.members, rewriteQuery, rewriteText, Clause.rewritten]
  | filterMember =>
    have hitem : ∀ item ∈ q.filters, t ∈ given (some (rewriteMember S (item.member.getD ""))) ↔
        ∃ text ∈ given item.member, rewriteMember S text = t := by
      intro item hitem
      cases hmember : item.member with
      | none => simp [given, rewriteMember_empty]
      | some text =>
        by_cases hempty : text = ""
        · simp [given, hempty, rewriteMember_empty]
        · have htext : text ∈ q.members .filterMember :=
            mem_flatMap.2 ⟨item, hitem, by simp [FilterItem.members, given, hmember, hempty]⟩
          have hne := rewriteMember_ne_empty S (hfilters text htext)
          simp [given, hempty, hne, eq_comm]
    constructor
    · intro h
      obtain ⟨item', hitem', ht⟩ := mem_flatMap.1 h
      obtain ⟨item, hmem, rfl⟩ := mem_map.1 hitem'
      obtain ⟨text, htext, hrewritten⟩ := (hitem item hmem).1 ht
      exact ⟨text, mem_flatMap.2 ⟨item, hmem, htext⟩, hrewritten⟩
    · rintro ⟨text, htext, hrewritten⟩
      obtain ⟨item, hmem, htext⟩ := mem_flatMap.1 htext
      exact mem_flatMap.2 ⟨_, mem_map_of_mem hmem, (hitem item hmem).2 ⟨text, htext, hrewritten⟩⟩
  | filterDimension =>
    simp [SemanticQuery.members, rewriteQuery, rewriteText, Clause.rewritten, FilterItem.members]
  | filterMeasure =>
    simp [SemanticQuery.members, rewriteQuery, rewriteText, Clause.rewritten, FilterItem.members]
  | filterTimeDimension =>
    simp [SemanticQuery.members, rewriteQuery, rewriteText, Clause.rewritten, FilterItem.members]
  | segment => simp [SemanticQuery.members, rewriteQuery, rewriteText, Clause.rewritten]
  | order =>
    rw [members_order, members_order]
    have hentry : ∀ entry : Dict String String,
        t ∈ (Dict.ofList (entry.entries.map fun e => (rewriteMember S e.1, e.2))).keys ↔
          ∃ text ∈ entry.keys, rewriteMember S text = t := by
      intro entry
      rw [mem_keys_ofList, List.map_map, Dict.keys, mem_map]
      simp
    cases horder : q.order with
    | none => simp [orderMembers, rewriteQuery, horder]
    | some order =>
      have hrewritten : (rewriteQuery S q).order = some (rewriteOrder S order) := by
        rw [rewriteQuery, horder]
        rfl
      rw [hrewritten]
      cases order with
      | one entry => simpa [orderMembers, Order.entries, rewriteOrder, rewriteText, Clause.rewritten] using hentry entry
      | many entries =>
        simp only [orderMembers, Order.entries, rewriteOrder, Option.toList_some, flatMap_singleton,
          mem_flatMap, mem_map, exists_exists_and_eq_and, hentry]
        constructor
        · rintro ⟨entry, hmem, text, htext, h⟩
          exact ⟨text, ⟨entry, hmem, htext⟩, h⟩
        · rintro ⟨text, ⟨entry, hmem, htext⟩, h⟩
          exact ⟨entry, hmem, text, htext, h⟩

/-- **The members of a query**: the members of the executed query are what the texts become, and the query is rejected
if one of its texts is. -/
theorem executionQuery_members (S : Selection) (q : SemanticQuery) :
    (∀ q', executionQuery S q = .ok q' → ∀ c t, t ∈ q'.members c ↔
        ∃ text ∈ q.members c, executeText S c text = .ok (some t)) ∧
      ((∃ q', executionQuery S q = .ok q') ↔ ∀ c, ∀ text ∈ q.members c, ∃ r, executeText S c text = .ok r) := by
  have hexecute : ∀ c text r, executeText S c text = .ok r ↔
      ∃ o, qualifyText S.models c text = .ok o ∧ o.map (rewriteText S c) = r := fun c text r => map_eq_ok_iff
  constructor
  · intro q' h c t
    obtain ⟨normalized, hnormalized, h⟩ := of_bind_ok h
    cases h
    have hfilters : ∀ text ∈ normalized.members .filterMember, strip text ≠ "" := by
      intro text htext
      obtain ⟨original, -, hqualified⟩ := (mem_normalizeQuery hnormalized .filterMember text).1 htext
      obtain ⟨t', ht', heq⟩ := map_eq_ok_iff.1 hqualified
      exact Option.some.inj heq ▸ strip_qualified ht'
    rw [mem_rewriteQuery S normalized hfilters]
    constructor
    · rintro ⟨text, htext, hrewritten⟩
      obtain ⟨original, horiginal, hqualified⟩ := (mem_normalizeQuery hnormalized c text).1 htext
      exact ⟨original, horiginal, (hexecute _ _ _).2 ⟨_, hqualified, congrArg some hrewritten⟩⟩
    · rintro ⟨original, horiginal, hexecuted⟩
      obtain ⟨o, hqualified, hrewritten⟩ := (hexecute _ _ _).1 hexecuted
      obtain ⟨text, rfl, htext⟩ := Option.map_eq_some_iff.1 hrewritten
      exact ⟨text, (mem_normalizeQuery hnormalized c text).2 ⟨original, horiginal, hqualified⟩, htext⟩
  · have hnormalized : (∃ q', executionQuery S q = .ok q') ↔ ∃ q', normalizeQuery S.models q = .ok q' := by
      constructor
      · rintro ⟨q', h⟩
        obtain ⟨normalized, hnormalized, -⟩ := of_bind_ok h
        exact ⟨normalized, hnormalized⟩
      · rintro ⟨normalized, hnormalized⟩
        exact ⟨_, by rw [executionQuery, hnormalized]; rfl⟩
    rw [hnormalized, (takes_normalizeQuery q).ok]
    refine forall_congr' fun c => forall₂_congr fun text _ => ?_
    constructor
    · rintro ⟨o, ho⟩
      exact ⟨_, (hexecute _ _ _).2 ⟨o, ho, rfl⟩⟩
    · rintro ⟨r, hr⟩
      obtain ⟨o, ho, -⟩ := (hexecute _ _ _).1 hr
      exact ⟨o, ho⟩

/-! ## What a text denotes -/

/-- a text denotes a field of a dataset of a selected model, which it names with the dataset or alone -/
structure Denotes (S : Selection) (c : Clause) (text : String) (m : SemanticModelRecord) (k f : String) : Prop where
  model : m ∈ S.models
  field : ∃ d, (k, d) ∈ m.datasets.entries ∧ f ∈ d.fields c
  written : strip text = k ++ "." ++ f ∨ (strip text = f ∧ f ≠ "" ∧ '.' ∉ f.toList)

/-- a text denotes a field and no other -/
structure DenotesOnly (S : Selection) (c : Clause) (text : String) (m : SemanticModelRecord) (k f : String) :
    Prop extends Denotes S c text m k f where
  only : ∀ m' k' f', Denotes S c text m' k' f' → m' = m ∧ k' = k ∧ f' = f

def lastOwner (S : Selection) (k : String) : Option SemanticModelRecord :=
  (S.models.filter fun m => k ∈ m.datasets.keys).getLast?

/-- what a text is qualified to: itself, or its field of the only dataset with one -/
inductive Qualified (S : Selection) (c : Clause) (text : String) : String → Prop
  | dotted : '.' ∈ (strip text).toList → Qualified S c text (strip text)
  | bare {m : SemanticModelRecord} {k : String} : '.' ∉ (strip text).toList →
      Denotes S c text m k (strip text) → (∀ m' k' f', Denotes S c text m' k' f' → k' = k) →
      Qualified S c text (k ++ "." ++ strip text)

variable {S : Selection} {k f : String} {m : SemanticModelRecord}

theorem Denotes.dot_or (h : Denotes S c text m k f) :
    ('.' ∈ (strip text).toList ∧ strip text = k ++ "." ++ f) ∨
      ('.' ∉ (strip text).toList ∧ strip text = f ∧ f ≠ "") := by
  rcases h.written with hw | ⟨hw, hne, hdot⟩
  · exact .inl ⟨by rw [hw]; simp, hw⟩
  · exact .inr ⟨by rwa [hw], hw, hne⟩

theorem Denotes.strip_ne (h : Denotes S c text m k f) : strip text ≠ "" := by
  rcases h.dot_or with ⟨hdot, -⟩ | ⟨-, rfl, hne⟩
  · intro hempty
    rw [hempty] at hdot
    cases hdot
  · exact hne

omit [PyStrip] in
theorem fields_of_ne_segment (hc : c ≠ .segment) (d : SemanticDataset) : d.fields c = d.dimensions ++ d.measures := by
  cases c <;> first | rfl | exact absurd rfl hc

omit [PyStrip] in
theorem nodup_qualifiedMatches (models : List SemanticModelRecord) (value : String) :
    (qualifiedMatches models value).Nodup := nodup_dedup _

/-- the matches of an unqualified text are its fields -/
theorem mem_qualifiedMatches (hc : c ≠ .segment)
    (hne : strip text ≠ "") (hdot : '.' ∉ (strip text).toList) (q : String) :
    q ∈ qualifiedMatches S.models (strip text) ↔
      ∃ m k, Denotes S c text m k (strip text) ∧ q = k ++ "." ++ strip text := by
  rw [qualifiedMatches, mem_dedup, mem_flatMap]
  constructor
  · rintro ⟨m, hm, hq⟩
    obtain ⟨⟨k, d⟩, he, rfl⟩ := mem_map.1 hq
    obtain ⟨he, hfield⟩ := mem_filter.1 he
    refine ⟨m, k, ⟨hm, ⟨d, he, ?_⟩, .inr ⟨rfl, hne, hdot⟩⟩, rfl⟩
    rw [fields_of_ne_segment hc, mem_append]
    exact of_decide_eq_true hfield
  · rintro ⟨m, k, h, rfl⟩
    obtain ⟨d, he, hfield⟩ := h.field
    rw [fields_of_ne_segment hc, mem_append] at hfield
    exact ⟨m, h.model, mem_map.2 ⟨(k, d), mem_filter.2 ⟨he, decide_eq_true hfield⟩, rfl⟩⟩

variable {q : String}

theorem qualifySemanticMember_ok_iff (hc : c ≠ .segment) :
    qualifySemanticMember S.models text = .ok q ↔ Qualified S c text q := by
  rw [qualifySemanticMember]
  split_ifs with hblank hdot
  · refine iff_of_false (fun h => nomatch h) fun h => ?_
    cases h with
    | dotted h => rw [hblank] at h; cases h
    | bare _ h => exact h.strip_ne hblank
  · constructor
    · intro h
      cases h
      exact .dotted hdot
    · intro h
      cases h with
      | dotted => rfl
      | bare h => exact absurd hdot h
  · have hmatch : (match qualifiedMatches S.models (strip text) with
        | [qualified] => Except.ok qualified
        | [] => .error ("Semantic member '" ++ strip text ++ "' was not found in the selected semantic models.")
        | _ => .error (ambiguousMember (strip text))) = .ok q ↔
        qualifiedMatches S.models (strip text) = [q] := by
      constructor
      · intro h
        split at h
        · rename_i hmatches
          rw [hmatches, Except.ok.inj h]
        · cases h
        · cases h
      · intro h
        rw [h]
    refine hmatch.trans ?_
    rw [eq_singleton_iff (nodup_qualifiedMatches _ _), mem_qualifiedMatches hc hblank hdot]
    constructor
    · rintro ⟨⟨m, k, h, rfl⟩, hall⟩
      refine .bare hdot h fun m' k' f' h' => ?_
      rcases h'.dot_or with ⟨h, -⟩ | ⟨-, rfl, -⟩
      · exact absurd h hdot
      · have heq := hall _ ((mem_qualifiedMatches hc hblank hdot _).2 ⟨m', k', h', rfl⟩)
        exact (String.append_left_inj _).1 ((String.append_left_inj _).1 heq)
    · intro h
      cases h with
      | dotted h => exact absurd h hdot
      | @bare m k _ h hall =>
        refine ⟨⟨m, k, h, rfl⟩, fun q' hq' => ?_⟩
        obtain ⟨m', k', h', rfl⟩ := (mem_qualifiedMatches hc hblank hdot q').1 hq'
        rw [hall m' k' _ h']

theorem qualifyText_iff (hc : c ≠ .segment) : qualifyText S.models c text = .ok (some q) ↔ Qualified S c text q := by
  rw [qualifyText, if_neg hc]
  split_ifs with hblank
  · refine iff_of_false (fun h => nomatch h) fun h => ?_
    cases h with
    | dotted h => rw [hblank.2] at h; cases h
    | bare _ h => exact h.strip_ne hblank.2
  · rw [map_eq_ok_iff, ← qualifySemanticMember_ok_iff hc]
    simp

theorem DenotesOnly.qualified (h : DenotesOnly S c text m k f) : Qualified S c text (k ++ "." ++ f) := by
  rcases h.toDenotes.dot_or with ⟨hdot, hw⟩ | ⟨hdot, rfl, -⟩
  · rw [← hw]
    exact .dotted hdot
  · exact .bare hdot h.toDenotes fun m' k' f' h' => (h.only m' k' f' h').2.1

/-! ## Which key a dataset is rewritten with -/

omit [PyStrip] in
theorem get?_foldl_const (keys : List String) (v : String) (d : Dict String String) (k : String) :
    ((keys.map (·, v)).foldl (fun d e => d.set e.1 e.2) d).get? k = if k ∈ keys then some v else d.get? k := by
  induction keys generalizing d with
  | nil => rfl
  | cons key keys ih =>
    rw [map_cons, foldl_cons, ih, get?_set]
    by_cases hmem : k ∈ keys
    · simp [hmem]
    · by_cases hkey : k = key <;> simp [hmem, hkey]

theorem get?_datasetSourceKeys (S : Selection) (k : String) :
    (datasetSourceKeys S).get? k = (lastOwner S k).map (rawKey S.sources) := by
  rw [datasetSourceKeys, lastOwner, Dict.ofList]
  generalize S.models = models
  induction models using List.reverseRecOn with
  | nil => rfl
  | append_singleton models m ih =>
    rw [flatMap_append, foldl_append, flatMap_singleton, get?_foldl_const, ih, filter_append,
      getLast?_append]
    by_cases hmem : k ∈ m.datasets.keys <;> simp [hmem]

theorem rewrittenKey_eq_some_iff : rewrittenKey S q = some key ↔ '.' ∈ (strip q).toList ∧
      ∃ owner, lastOwner S (firstPart (strip q)) = some owner ∧
      rawKey S.sources owner ≠ "" ∧ key = rawKey S.sources owner ++ "__" ++ firstPart (strip q) := by
  rw [rewrittenKey, get?_datasetSourceKeys]
  by_cases hdot : '.' ∈ (strip q).toList
  · rw [if_pos hdot]
    cases lastOwner S (firstPart (strip q)) with
    | none => simp
    | some owner =>
      by_cases hkey : rawKey S.sources owner = ""
      · simp [hkey]
      · rw [Option.map_some, Option.filter_some, if_pos (decide_eq_true hkey), Option.map_some, Option.some_inj]
        constructor
        · rintro rfl
          exact ⟨hdot, owner, rfl, hkey, rfl⟩
        · rintro ⟨-, owner', howner, -, rfl⟩
          rw [Option.some.inj howner]
  · rw [if_neg hdot]
    exact iff_of_false (fun h => nomatch h) fun h => hdot h.1

omit [PyStrip] in
/-- a text is what stands before its first dot and what stands after it -/
theorem firstPart_lastPart (h : '.' ∈ text.toList) : firstPart text ++ "." ++ lastPart text = text := by
  apply String.toList_injective
  rw [firstPart, lastPart, String.toList_append, String.toList_append, String.toList_ofList, String.toList_ofList]
  have hdrop : text.toList.dropWhile (· ≠ '.') = '.' :: (text.toList.dropWhile (· ≠ '.')).drop 1 := by
    cases hrest : text.toList.dropWhile (· ≠ '.') with
    | nil =>
      have hall := dropWhile_eq_nil_iff.1 hrest '.' h
      simp at hall
    | cons c rest =>
      have hc := head_dropWhile (· ≠ '.') text.toList c (by rw [hrest]; rfl)
      simp only [ne_eq, decide_not, Bool.not_eq_eq_eq_not, Bool.not_false, decide_eq_true_eq] at hc
      rw [hc]
      rfl
  conv_rhs => rw [← takeWhile_append_dropWhile (p := fun c => decide (c ≠ '.')) (l := text.toList), hdrop]
  simp

theorem rewriteMember_of_key (h : rewrittenKey S q = some key) :
    ∃ owner, lastOwner S (firstPart (strip q)) = some owner ∧
      rewriteMember S q = rawKey S.sources owner ++ "__" ++ strip q := by
  obtain ⟨hdot, owner, howner, -, rfl⟩ := rewrittenKey_eq_some_iff.1 h
  refine ⟨owner, howner, ?_⟩
  rw [rewriteMember, h]
  calc rawKey S.sources owner ++ "__" ++ firstPart (strip q) ++ "." ++ lastPart (strip q)
      = rawKey S.sources owner ++ "__" ++ (firstPart (strip q) ++ "." ++ lastPart (strip q)) := by
        simp only [String.append_assoc]
    _ = rawKey S.sources owner ++ "__" ++ strip q := by rw [firstPart_lastPart hdot]

/-! ## The members that are rewritten right -/

/-- The property of a text in a clause: the field it denotes becomes the unified model's field of the same dataset; a
text with fields of two models is rejected as ambiguous; the key it is rewritten with is one of the unified model's. -/
structure TextRight (S : Selection) (c : Clause) (text : String) : Prop where
  one : ∀ m k f, DenotesOnly S c text m k f → ∃ key d datasets, (m, key) ∈ sourceKeys S.sources [] S.models ∧
    (k, d) ∈ m.datasets.entries ∧ unifiedDatasets S = .ok datasets ∧ (key ++ "__" ++ k, d) ∈ datasets.entries ∧
    executeText S c text = .ok (some (key ++ "__" ++ (k ++ "." ++ f)))
  two : ∀ m k f m' k' f', Denotes S c text m k f → Denotes S c text m' k' f' → m ≠ m' →
    executeText S c text = .error (ambiguousMember (strip text))
  found : ∀ q key, c.rewritten = true → qualifyText S.models c text = .ok (some q) → rewrittenKey S q = some key →
    ∃ datasets, unifiedDatasets S = .ok datasets ∧ key ∈ datasets.keys

/-- When it holds: in a clause that is rewritten the field's model has its raw name for its key and is the last one with
the dataset, and nothing is stripped; fields of two models stand in datasets of two names; the raw name of the last
model with a dataset makes a key of the unified model, whose keys are distinct. -/
structure TextAgrees (S : Selection) (c : Clause) (text : String) : Prop where
  one : ∀ m k f, DenotesOnly S c text m k f → c.rewritten = true ∧ ((unifiedEntries S).map Prod.fst).Nodup ∧
    strip (k ++ "." ++ f) = k ++ "." ++ f ∧ ∃ owner, lastOwner S (firstPart (k ++ "." ++ f)) = some owner ∧
      (m, rawKey S.sources owner) ∈ sourceKeys S.sources [] S.models
  two : ∀ m k f m' k' f', Denotes S c text m k f → Denotes S c text m' k' f' → m ≠ m' →
    c ≠ .segment ∧ '.' ∉ (strip text).toList ∧
      ∃ m₁ k₁ f₁ m₂ k₂ f₂, Denotes S c text m₁ k₁ f₁ ∧ Denotes S c text m₂ k₂ f₂ ∧ k₁ ≠ k₂
  found : ∀ q owner, c.rewritten = true → Qualified S c text q → '.' ∈ (strip q).toList →
    lastOwner S (firstPart (strip q)) = some owner → rawKey S.sources owner ≠ "" →
    ((unifiedEntries S).map Prod.fst).Nodup ∧ ∃ e ∈ sourceKeys S.sources [] S.models, ∃ k ∈ e.1.datasets.keys,
      rawKey S.sources owner ++ "__" ++ firstPart (strip q) = e.2 ++ "__" ++ k

omit [PyStrip] in
theorem ne_segment_of_rewritten (h : c.rewritten = true) : c ≠ .segment := by
  rintro rfl
  cases h

theorem unified_dataset_iff {d : SemanticDataset}
    (hkey : (m, key) ∈ sourceKeys S.sources [] S.models) (hd : (k, d) ∈ m.datasets.entries) :
    (∃ datasets, unifiedDatasets S = .ok datasets ∧ (key ++ "__" ++ k, d) ∈ datasets.entries) ↔
      ((unifiedEntries S).map Prod.fst).Nodup := by
  simp only [unifiedDatasets_ok_iff]
  constructor
  · rintro ⟨datasets, ⟨hnodup, -⟩, -⟩
    exact hnodup
  · intro hnodup
    refine ⟨⟨unifiedEntries S, hnodup⟩, ⟨hnodup, rfl⟩, ?_⟩
    exact mem_flatMap.2 ⟨(m, key), hkey, mem_map.2 ⟨(k, d), hd, rfl⟩⟩

theorem mem_unified_keys_iff : (∃ datasets, unifiedDatasets S = .ok datasets ∧ key ∈ datasets.keys) ↔
      ((unifiedEntries S).map Prod.fst).Nodup ∧
        ∃ e ∈ sourceKeys S.sources [] S.models, ∃ k ∈ e.1.datasets.keys, key = e.2 ++ "__" ++ k := by
  have hmem : key ∈ (unifiedEntries S).map Prod.fst ↔
      ∃ e ∈ sourceKeys S.sources [] S.models, ∃ k ∈ e.1.datasets.keys, key = e.2 ++ "__" ++ k := by
    simp only [unifiedEntries, mem_map, mem_flatMap, Dict.keys]
    constructor
    · rintro ⟨-, ⟨e, he, d, hd, rfl⟩, rfl⟩
      exact ⟨e, he, d.1, ⟨d, hd, rfl⟩, rfl⟩
    · rintro ⟨e, he, -, ⟨d, hd, rfl⟩, rfl⟩
      exact ⟨_, ⟨e, he, d, hd, rfl⟩, rfl⟩
  simp only [unifiedDatasets_ok_iff, ← hmem]
  constructor
  · rintro ⟨datasets, ⟨hnodup, hentries⟩, hkey⟩
    rw [Dict.keys, hentries] at hkey
    exact ⟨hnodup, hkey⟩
  · rintro ⟨hnodup, hkey⟩
    exact ⟨⟨unifiedEntries S, hnodup⟩, ⟨hnodup, rfl⟩, hkey⟩

/-- how often a text has an underscore -/
def underscores (text : String) : ℕ := text.toList.count '_'

omit [PyStrip] in
theorem underscores_append (s t : String) : underscores (s ++ t) = underscores s + underscores t := by
  rw [underscores, String.toList_append, count_append, underscores, underscores]

theorem underscores_strip (s : String) : underscores (strip s) = underscores s := by
  obtain ⟨before, after, hparts, hspace⟩ := trim_parts isSpace s.toList
  have hnone : '_' ∉ before ++ after := by
    intro hmem
    have := hspace '_' hmem
    rw [PyStrip.isSpace_graph '_' (by decide) (by decide)] at this
    cases this
  rw [mem_append, not_or] at hnone
  rw [underscores, underscores, PyStrip.toList_strip]
  conv_rhs => rw [hparts]
  rw [count_append, count_append, count_eq_zero.2 hnone.1, count_eq_zero.2 hnone.2]
  omega

/-- what a text becomes, from what it is qualified to -/
theorem executeText_eq_ok_iff : executeText S c text = .ok (some t) ↔
      ∃ q, qualifyText S.models c text = .ok (some q) ∧ rewriteText S c q = t := by
  rw [executeText, map_eq_ok_iff]
  simp only [Option.map_eq_some_iff]
  constructor
  · rintro ⟨-, ho, q, rfl, hq⟩
    exact ⟨q, ho, hq⟩
  · rintro ⟨q, ho, hq⟩
    exact ⟨some q, ho, q, rfl, hq⟩

/-- a text that becomes a key and a field is rewritten with that key, and is not stripped -/
theorem rewriteText_eq_iff (hkey : IsKey key) (hq : '.' ∈ q.toList) : rewriteText S c q = key ++ "__" ++ q ↔
      c.rewritten = true ∧ strip q = q ∧ ∃ owner, lastOwner S (firstPart q) = some owner ∧
        rawKey S.sources owner = key := by
  have hmore : underscores q < underscores (key ++ "__" ++ q) := by
    rw [underscores_append, underscores_append, show underscores "__" = 2 by decide]
    omega
  constructor
  · intro h
    have hc : c.rewritten = true := by
      by_contra hc
      rw [rewriteText, if_neg hc] at h
      rw [← h] at hmore
      exact lt_irrefl _ hmore
    rw [rewriteText, if_pos hc] at h
    cases hkeys : rewrittenKey S q with
    | none =>
      rw [rewriteMember, hkeys] at h
      rw [← h, underscores_strip] at hmore
      exact absurd hmore (lt_irrefl _)
    | some found =>
      obtain ⟨owner, howner, hrewritten⟩ := rewriteMember_of_key hkeys
      rw [hrewritten] at h
      have hlists : ((rawKey S.sources owner).toList ++ ['_']) ++ '_' :: trim isSpace q.toList =
          (key.toList ++ ['_']) ++ '_' :: q.toList := by
        have := congrArg String.toList h
        simpa [PyStrip.toList_strip] using this
      have hne : trim isSpace q.toList ≠ [] := by
        have := PyStrip.mem_strip hq (by decide)
        rw [PyStrip.toList_strip] at this
        exact ne_nil_of_mem this
      obtain ⟨htrim, hraw⟩ := append_trim_inj _ (PyStrip.isSpace_graph '_' (by decide) (by decide)) hne hlists
      have hstrip : strip q = q := String.toList_injective (by rw [PyStrip.toList_strip, htrim])
      rw [hstrip] at howner
      exact ⟨hc, hstrip, owner, howner, String.toList_injective (append_cancel_right hraw)⟩
  · rintro ⟨hc, hstrip, owner, howner, rfl⟩
    have hkeys : rewrittenKey S q = some (rawKey S.sources owner ++ "__" ++ firstPart q) := by
      refine rewrittenKey_eq_some_iff.2 ?_
      rw [hstrip]
      exact ⟨hq, owner, howner, hkey.ne, rfl⟩
    obtain ⟨owner', howner', hrewritten⟩ := rewriteMember_of_key hkeys
    rw [hstrip, howner, Option.some_inj] at howner'
    rw [rewriteText, if_pos hc, hrewritten, hstrip, howner']

/-- a member that is denoted becomes the unified model's exactly if its model's key is the one it is rewritten with -/
theorem one_iff (h : DenotesOnly S c text m k f) :
    (∃ key d datasets, (m, key) ∈ sourceKeys S.sources [] S.models ∧ (k, d) ∈ m.datasets.entries ∧
      unifiedDatasets S = .ok datasets ∧ (key ++ "__" ++ k, d) ∈ datasets.entries ∧
      executeText S c text = .ok (some (key ++ "__" ++ (k ++ "." ++ f)))) ↔
    c.rewritten = true ∧ ((unifiedEntries S).map Prod.fst).Nodup ∧ strip (k ++ "." ++ f) = k ++ "." ++ f ∧
      ∃ owner, lastOwner S (firstPart (k ++ "." ++ f)) = some owner ∧
        (m, rawKey S.sources owner) ∈ sourceKeys S.sources [] S.models := by
  have hdot : '.' ∈ (k ++ "." ++ f).toList := by simp
  constructor
  · rintro ⟨key, d, datasets, hkey, hd, hok, hmem, hexecuted⟩
    have hnodup := (unified_dataset_iff hkey hd).1 ⟨datasets, hok, hmem⟩
    obtain ⟨q, hqualified, hrewritten⟩ := executeText_eq_ok_iff.1 hexecuted
    have hc : c ≠ .segment := by
      rintro rfl
      obtain rfl := Option.some.inj (Except.ok.inj hqualified)
      change text = _ at hrewritten
      have hcount := congrArg underscores hrewritten
      rw [← underscores_strip text, underscores_append, underscores_append,
        show underscores "__" = 2 by decide] at hcount
      rcases h.toDenotes.dot_or with ⟨-, hw⟩ | ⟨-, hw, -⟩
      · rw [hw] at hcount
        omega
      · rw [hw, underscores_append] at hcount
        omega
    obtain rfl : q = k ++ "." ++ f := by
      have hsame := (qualifyText_iff hc).2 h.qualified
      rw [hqualified] at hsame
      exact Option.some.inj (Except.ok.inj hsame)
    obtain ⟨hc, hstrip, owner, howner, rfl⟩ := (rewriteText_eq_iff (isKey_of_sourceKeys hkey) hdot).1 hrewritten
    exact ⟨hc, hnodup, hstrip, owner, howner, hkey⟩
  · rintro ⟨hc, hnodup, hstrip, owner, howner, hkey⟩
    obtain ⟨d, hd, -⟩ := h.field
    obtain ⟨datasets, hok, hmem⟩ := (unified_dataset_iff hkey hd).2 hnodup
    refine ⟨rawKey S.sources owner, d, datasets, hkey, hd, hok, hmem, executeText_eq_ok_iff.2 ⟨k ++ "." ++ f, ?_, ?_⟩⟩
    · exact (qualifyText_iff (ne_segment_of_rewritten hc)).2 h.qualified
    · exact (rewriteText_eq_iff (isKey_of_sourceKeys hkey) hdot).2 ⟨hc, hstrip, owner, howner, rfl⟩

/-- a text with a field is rejected as ambiguous exactly if it has fields of datasets of two names -/
theorem ambiguous_iff (h : Denotes S c text m k f) :
    executeText S c text = .error (ambiguousMember (strip text)) ↔
      c ≠ .segment ∧ '.' ∉ (strip text).toList ∧
        ∃ m₁ k₁ f₁ m₂ k₂ f₂, Denotes S c text m₁ k₁ f₁ ∧ Denotes S c text m₂ k₂ f₂ ∧ k₁ ≠ k₂ := by
  by_cases hc : c = .segment
  · subst hc
    exact iff_of_false (fun h => nomatch h) fun h => h.1 rfl
  have hne := h.strip_ne
  have hexecute : executeText S c text =
      ((qualifySemanticMember S.models text).map some).map (Option.map (rewriteText S c)) := by
    rw [executeText, qualifyText, if_neg hc, if_neg fun h => hne h.2]
  rw [hexecute, qualifySemanticMember]
  simp only [if_neg hne]
  by_cases hdot : '.' ∈ (strip text).toList
  · rw [if_pos hdot]
    exact iff_of_false (fun h => nomatch h) fun h => h.2.1 hdot
  rw [if_neg hdot]
  have hmem := mem_qualifiedMatches (S := S) hc hne hdot
  have hbare : ∀ m' k' f', Denotes S c text m' k' f' → f' = strip text := by
    intro m' k' f' h'
    rcases h'.dot_or with ⟨h', -⟩ | ⟨-, h', -⟩
    · exact absurd h' hdot
    · exact h'.symm
  obtain rfl := hbare m k f h
  constructor
  · intro herror
    refine ⟨hc, hdot, ?_⟩
    by_contra hone
    have hsingle : qualifiedMatches S.models (strip text) = [k ++ "." ++ strip text] := by
      refine (eq_singleton_iff (nodup_qualifiedMatches _ _)).2 ⟨(hmem _).2 ⟨m, k, h, rfl⟩, fun q hq => ?_⟩
      obtain ⟨m', k', h', rfl⟩ := (hmem q).1 hq
      have hk : k' = k := by
        by_contra hk
        exact hone ⟨m', k', _, m, k, _, h', h, hk⟩
      rw [hk]
    rw [hsingle] at herror
    cases herror
  · rintro ⟨-, -, m₁, k₁, f₁, m₂, k₂, f₂, h₁, h₂, hk⟩
    obtain rfl := hbare m₁ k₁ f₁ h₁
    obtain rfl := hbare m₂ k₂ _ h₂
    have hq₁ := (hmem _).2 ⟨m₁, k₁, h₁, rfl⟩
    have hq₂ := (hmem _).2 ⟨m₂, k₂, h₂, rfl⟩
    generalize qualifiedMatches S.models (strip text) = found at hq₁ hq₂
    match found, hq₁, hq₂ with
    | [], hq₁, _ => cases hq₁
    | [q], hq₁, hq₂ =>
      have heq := (mem_singleton.1 hq₁).trans (mem_singleton.1 hq₂).symm
      exact absurd ((String.append_left_inj _).1 ((String.append_left_inj _).1 heq)) hk
    | _ :: _ :: _, _, _ => rfl

theorem textRight_iff (S : Selection) (c : Clause) (text : String) : TextRight S c text ↔ TextAgrees S c text := by
  constructor
  · intro h
    refine ⟨fun m k f hm => (one_iff hm).1 (h.one m k f hm),
      fun m k f m' k' f' hm hm' hne => (ambiguous_iff hm).1 (h.two m k f m' k' f' hm hm' hne), ?_⟩
    intro q owner hc hq hdot howner hraw
    exact mem_unified_keys_iff.1 (h.found q _ hc ((qualifyText_iff (ne_segment_of_rewritten hc)).2 hq)
      (rewrittenKey_eq_some_iff.2 ⟨hdot, owner, howner, hraw, rfl⟩))
  · intro h
    refine ⟨fun m k f hm => (one_iff hm).2 (h.one m k f hm),
      fun m k f m' k' f' hm hm' hne => (ambiguous_iff hm).2 (h.two m k f m' k' f' hm hm' hne), ?_⟩
    intro q key hc hq hkey
    obtain ⟨hdot, owner, howner, hraw, rfl⟩ := rewrittenKey_eq_some_iff.1 hkey
    exact mem_unified_keys_iff.2
      (h.found q owner hc ((qualifyText_iff (ne_segment_of_rewritten hc)).1 hq) hdot howner hraw)

/-- The property of a query: each of its members is right, and the executed query has what they become, or is rejected
if one of them is. -/
structure QueryRight (S : Selection) (q : SemanticQuery) : Prop where
  texts : ∀ c, ∀ text ∈ q.members c, TextRight S c text
  executed : ∀ q', executionQuery S q = .ok q' → ∀ c t, t ∈ q'.members c ↔
    ∃ text ∈ q.members c, executeText S c text = .ok (some t)
  rejected : (∃ q', executionQuery S q = .ok q') ↔ ∀ c, ∀ text ∈ q.members c, ∃ r, executeText S c text = .ok r

/-- **A query is rewritten right** exactly if each of its members is in a clause that is rewritten and the three keys of
its model agree. -/
theorem rewritten_iff (S : Selection) (q : SemanticQuery) :
    QueryRight S q ↔ ∀ c, ∀ text ∈ q.members c, TextAgrees S c text := by
  constructor
  · exact fun h c text htext => (textRight_iff S c text).1 (h.texts c text htext)
  · intro h
    obtain ⟨hexecuted, hrejected⟩ := executionQuery_members S q
    exact ⟨fun c text htext => (textRight_iff S c text).2 (h c text htext), hexecuted, hrejected⟩

end Queries

/-! ## A name with a blank -/

section SpacedName

open scoped Ascii

/-- a model whose name has a blank, which the unified model makes an underscore of -/
def salesModel : SemanticModelRecord where
  id := ⟨"00000000-0000-0000-0000-00000000000a", rfl⟩
  name := "sales model"
  datasets := ⟨[("orders", ⟨[], ["amount"], []⟩)], by simp⟩

/-- another model -/
def stockModel : SemanticModelRecord where
  id := ⟨"00000000-0000-0000-0000-00000000000b", rfl⟩
  name := "stock"
  datasets := ⟨[("items", ⟨[], ["pieces"], []⟩)], by simp⟩

def sales : Selection := ⟨[salesModel, stockModel], [], by decide, by decide⟩

def amounts : SemanticQuery := ⟨["orders.amount"], [], [], [], [], none, none, none, none⟩

/-- **A name with a blank**: the amount is asked of a dataset that the unified model has not. -/
theorem spaced_name : ¬ QueryRight sales amounts ∧
    executeText sales .measure "orders.amount" = .ok (some "sales model__orders.amount") ∧
    ∃ datasets, unifiedDatasets sales = .ok datasets ∧ datasets.keys = ["sales_model__orders", "stock__items"] := by
  have hexecuted : executeText sales .measure "orders.amount" = .ok (some "sales model__orders.amount") := by rfl
  refine ⟨fun h => ?_, hexecuted, _, rfl, by decide +kernel⟩
  have hdenotes : DenotesOnly sales .measure "orders.amount" salesModel "orders" "amount" := by
    refine ⟨⟨mem_cons_self, ⟨_, mem_cons_self, mem_cons_self⟩, .inl (by decide)⟩, ?_⟩
    intro m k f hm
    obtain ⟨d, hd, hf⟩ := hm.field
    rcases mem_cons.1 hm.model with rfl | hmodel
    · obtain ⟨rfl, rfl⟩ := Prod.mk.inj (mem_singleton.1 hd)
      exact ⟨rfl, rfl, mem_singleton.1 hf⟩
    · obtain rfl := mem_singleton.1 hmodel
      obtain ⟨rfl, rfl⟩ := Prod.mk.inj (mem_singleton.1 hd)
      obtain rfl := mem_singleton.1 hf
      rcases hm.written with hw | ⟨hw, -⟩
      · exact absurd hw (by decide)
      · exact absurd hw (by decide)
  obtain ⟨key, d, datasets, hkey, -, -, -, hright⟩ :=
    (h.texts .measure "orders.amount" mem_cons_self).one _ _ _ hdenotes
  have hkeys : (sourceKeys sales.sources [] sales.models).map Prod.snd = ["sales_model", "stock"] := by rfl
  have hmem : key ∈ ["sales_model", "stock"] := hkeys ▸ mem_map_of_mem hkey
  rcases mem_cons.1 hmem with rfl | hmem
  · exact absurd (Option.some.inj (Except.ok.inj hright)) (by decide)
  · obtain rfl := mem_singleton.1 hmem
    exact absurd (Option.some.inj (Except.ok.inj hright)) (by decide)

end SpacedName

end Langbridge.Runtime.UnifiedQueries
