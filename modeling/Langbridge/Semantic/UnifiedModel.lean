/-
The unified model (`semantic/unified_query.py`). Datasets, relationships and metrics of several source models are put
into one under the keys of their sources, and the expressions of the metrics are rewritten. For a metric of a source the
references to its datasets are replaced one dataset after the other, from the longest key; for a metric of the unified
model all references are replaced at once. A reference is meant to be a word before a dot that stands in code.
-/
import Langbridge.Core.Qualifiers
import Langbridge.Core.Template
import Langbridge.Federation.PortablePasses
import Langbridge.Runtime.UnifiedQueries
import Langbridge.Semantic.Compiler

namespace Langbridge.Semantic.UnifiedModel

open Core List Dict PyText Option
open Federation.PortableSql (PyRegex Place placeStep)
open Federation.Workflow (Uuid)
open Semantic.Compiler (referencePattern isNameStart isNameChar mentions)

/-! ## Source models -/

structure UnifiedSourceModel where
  model : SemanticModel
  connectorId : Option Uuid
  key : Option String
  aliasName : Option String
  name : Option String
  modelId : Option Uuid

def UnifiedSourceModel.relationships (source : UnifiedSourceModel) : List Relationship :=
  source.model.relationships.getD []

def UnifiedSourceModel.metrics (source : UnifiedSourceModel) : List (String × Metric) :=
  (source.model.metrics.getD Dict.empty).entries

/-- `ValueError`, with that of a failed validation, and `re.error` -/
inductive BuildError
  | value (message : String)
  | template (datasetKey : String)
deriving DecidableEq

/-- `_ResolvedMember` -/
structure ResolvedMember where
  datasetKey : String
  fieldName : String
deriving DecidableEq

section Building

variable [PyRegex]

def sourceKey (source : UnifiedSourceModel) : String :=
  Runtime.UnifiedQueries.sourceKey ⟨source.key, source.aliasName, source.name, source.modelId, Dict.empty⟩

def materializedDatasetKey (modelKey datasetKey : String) : String := modelKey ++ "__" ++ datasetKey

/-! ## Resolving members -/

/-- the fields that `_build_indexes` goes through -/
def indexedMembers (source : UnifiedSourceModel) : List ResolvedMember :=
  source.model.datasets.entries.flatMap fun e =>
    ((e.2.dimensions.getD []).map (·.name) ++ (e.2.measures.getD []).map (·.name)).map fun name => ⟨e.1, name⟩

/-- `_SourceModelResolver.resolve` -/
def resolve (source : UnifiedSourceModel) (memberRef : String) : Except BuildError ResolvedMember :=
  let normalized := strip memberRef
  let qualified := Dict.ofList ((indexedMembers source).map fun m => (m.datasetKey ++ "." ++ m.fieldName, m))
  if normalized = "" then
    .error (.value ("Unified semantic model field reference is empty for '" ++ sourceKey source ++ "'."))
  else
    match qualified.get? normalized, (indexedMembers source).filter fun m => m.fieldName = normalized with
    | some m, _ => .ok m
    | none, [m] => .ok m
    | none, [] =>
      .error (.value ("Field '" ++ normalized ++ "' was not found in semantic model '" ++ sourceKey source ++ "'."))
    | none, _ =>
      .error (.value ("Field '" ++ normalized ++ "' is ambiguous in semantic model '" ++ sourceKey source ++ "'. " ++
        "Use dataset.field notation within the semantic model."))

/-- the sources by their keys (`resolvers` and `source_lookup`) -/
def sourceLookup (sources : List UnifiedSourceModel) : Dict String UnifiedSourceModel :=
  Dict.ofList (sources.map fun source => (sourceKey source, source))

/-! ## Rewriting expressions -/

def longestFirst (source : UnifiedSourceModel) : List String :=
  source.model.datasets.keys.insertionSort fun a b => b.length ≤ a.length

/-- what the references to a dataset are replaced by -/
def replacement (source : UnifiedSourceModel) (datasetKey : String) : Option (List Char) :=
  Template.expand (materializedDatasetKey (sourceKey source) datasetKey ++ ".").toList (datasetKey ++ ".").toList

/-- `re.sub` for one dataset -/
def rewriteReferences (source : UnifiedSourceModel) (text : List Char) (datasetKey : String) :
    Except BuildError (List Char) :=
  match replacement source datasetKey with
  | some written => .ok ((referencePattern datasetKey).sub (fun _ => written) text)
  | none => .error (.template datasetKey)

def rewriteSourceMetricExpression (source : UnifiedSourceModel) (expression : String) : Except BuildError String :=
  ((longestFirst source).foldlM (rewriteReferences source) expression.toList).map String.ofList

/-- `_MODEL_MEMBER_RE`; a name is taken to its end, since no boundary of words is inside it -/
def memberPattern : Pattern Char (String × String) := fun before text =>
  let model := text.takeWhile isNameChar
  let afterModel := text.drop model.length
  let first := (afterModel.drop 1).takeWhile isNameChar
  let afterFirst := afterModel.drop (1 + first.length)
  let second := (afterFirst.drop 1).takeWhile isNameChar
  let afterSecond := afterFirst.drop (1 + second.length)
  if before.any isWord ∨ ¬text.head?.any isNameStart ∨ afterModel.head? ≠ some '.' ∨
      ¬(afterModel.drop 1).head?.any isNameStart then none
  else if afterFirst.head? = some '.' ∧ (afterFirst.drop 1).head?.any isNameStart ∧
      ¬afterSecond.head?.any isWord then
    some (model.length + 1 + first.length + 1 + second.length,
      (String.ofList model, String.ofList first ++ "." ++ String.ofList second))
  else if ¬afterFirst.head?.any isWord then
    some (model.length + 1 + first.length, (String.ofList model, String.ofList first))
  else none

def materializedMember (source : UnifiedSourceModel) (m : ResolvedMember) : List Char :=
  (materializedDatasetKey (sourceKey source) m.datasetKey ++ "." ++ m.fieldName).toList

def replaceMember (sources : List UnifiedSourceModel) :
    Piece Char Unit (String × String) → Except BuildError (List Char)
  | .same c => .ok [c]
  | .found _ text (modelKey, memberRef) =>
    match (sourceLookup sources).get? modelKey with
    | none => .ok text
    | some source => (resolve source memberRef).map (materializedMember source)

def rewriteUnifiedMetricExpression (sources : List UnifiedSourceModel) (expression : String) :
    Except BuildError String :=
  ((memberPattern.pieces (fun _ _ => ()) () none 0 expression.toList).mapM (replaceMember sources)).map
    fun parts => String.ofList parts.flatten

/-! ## Relationships -/

/-- what is read of a relationship of the unified model -/
structure RelationshipPayload where
  name : Option String
  sourceSemanticModelId : Uuid
  sourceField : String
  targetSemanticModelId : Uuid
  targetField : String
  relationshipType : String
  operator : String

def relationshipTypes : List (String × RelationshipType) :=
  [("one_to_many", .oneToMany), ("many_to_one", .manyToOne), ("one_to_one", .oneToOne), ("many_to_many", .manyToMany),
    ("inner", .inner), ("left", .left), ("right", .right), ("full", .full)]

/-- `_validate_required_text` -/
def requiredText (text : String) : Except BuildError String :=
  if strip text = "" then .error (.value "Unified semantic relationship fields must be non-empty.")
  else .ok (strip text)

def requireSourceModelById (sources : List UnifiedSourceModel) (modelId : Uuid) :
    Except BuildError UnifiedSourceModel :=
  match sources.find? fun source => source.modelId = some modelId with
  | some source => .ok source
  | none =>
    .error (.value ("Semantic model '" ++ modelId.text ++ "' is not available in the unified semantic model."))

/-- `resolvers[_source_key(source)].resolve(field)` -/
def resolveField (sources : List UnifiedSourceModel) (source : UnifiedSourceModel) (field : String) :
    Except BuildError ResolvedMember :=
  resolve (((sourceLookup sources).get? (sourceKey source)).getD source) field

def buildRelationshipName (source : UnifiedSourceModel) (sourceRef : ResolvedMember) (target : UnifiedSourceModel)
    (targetRef : ResolvedMember) : String :=
  sourceKey source ++ "__" ++ sourceRef.datasetKey ++ "_" ++ sourceRef.fieldName ++ "__to__" ++ sourceKey target ++
    "__" ++ targetRef.datasetKey ++ "_" ++ targetRef.fieldName

def linkModels (sources : List UnifiedSourceModel) (payload : RelationshipPayload) :
    Except BuildError Relationship := do
  let sourceField ← requiredText payload.sourceField
  let targetField ← requiredText payload.targetField
  let relationshipType ← requiredText payload.relationshipType
  let operator ← requiredText payload.operator
  let source ← requireSourceModelById sources payload.sourceSemanticModelId
  let target ← requireSourceModelById sources payload.targetSemanticModelId
  let sourceRef ← resolveField sources source sourceField
  let targetRef ← resolveField sources target targetField
  let named := strip (payload.name.getD "")
  match relationshipTypes.lookup relationshipType with
  | none => .error (.value ("Input should be a relationship type, not '" ++ relationshipType ++ "'"))
  | some type => return {
      name := if named = "" then buildRelationshipName source sourceRef target targetRef else named
      sourceDataset := materializedDatasetKey (sourceKey source) sourceRef.datasetKey
      sourceField := sourceRef.fieldName
      targetDataset := materializedDatasetKey (sourceKey target) targetRef.datasetKey
      targetField := targetRef.fieldName
      operator := operator
      type := type }

def materializedRelationship (source : UnifiedSourceModel) (r : Relationship) : Relationship :=
  { r with
    name := sourceKey source ++ "__" ++ r.name
    sourceDataset := materializedDatasetKey (sourceKey source) r.sourceDataset
    targetDataset := materializedDatasetKey (sourceKey source) r.targetDataset }

/-! ## Building -/

/-- what has been put together so far -/
structure Merged where
  datasets : Dict String Dataset
  connectors : Dict String Uuid
  relationships : List Relationship
  metrics : Dict String Metric

def addDataset (source : UnifiedSourceModel) (merged : Merged) (e : String × Dataset) : Except BuildError Merged :=
  let key := materializedDatasetKey (sourceKey source) e.1
  if merged.datasets.has key then
    .error (.value ("Duplicate dataset key '" ++ key ++ "' detected while building unified model."))
  else .ok { merged with
    datasets := merged.datasets.set key e.2
    connectors :=
      match source.connectorId with
      | some id => merged.connectors.set key id
      | none => merged.connectors }

def rewrittenMetrics (source : UnifiedSourceModel) : Except BuildError (List (String × Metric)) :=
  source.metrics.mapM fun e =>
    (rewriteSourceMetricExpression source e.2.expression).map fun x => (sourceKey source ++ "." ++ e.1, ⟨x⟩)

def setMetrics (metrics : Dict String Metric) (pairs : List (String × Metric)) : Dict String Metric :=
  pairs.foldl (fun metrics e => metrics.set e.1 e.2) metrics

/-- the parts of one source -/
def addSource (merged : Merged) (source : UnifiedSourceModel) : Except BuildError Merged := do
  let added ← source.model.datasets.entries.foldlM (addDataset source) merged
  let pairs ← rewrittenMetrics source
  return { added with
    relationships := added.relationships ++ source.relationships.map (materializedRelationship source)
    metrics := setMetrics added.metrics pairs }

def unifiedMetric (sources : List UnifiedSourceModel) (e : String × Metric) : Except BuildError (String × Metric) :=
  (rewriteUnifiedMetricExpression sources e.2.expression).map fun x => (e.1, ⟨x⟩)

/-- `build_unified_semantic_model`: the model, and the connectors of its datasets -/
def buildUnifiedSemanticModel (sources : List UnifiedSourceModel) (relationships : List RelationshipPayload)
    (metrics : Dict String Metric) : Except BuildError (SemanticModel × Dict String Uuid) := do
  if sources.isEmpty then .error (.value "source_models must include at least one semantic model.")
  else
    let merged ← sources.foldlM addSource ⟨Dict.empty, Dict.empty, [], Dict.empty⟩
    let links ← relationships.mapM (linkModels sources)
    let named ← metrics.entries.mapM (unifiedMetric sources)
    let relationships := merged.relationships ++ links
    let metrics := setMetrics merged.metrics named
    return (⟨merged.datasets, if relationships.isEmpty then none else some relationships,
      if metrics.entries.isEmpty then none else some metrics⟩, merged.connectors)

end Building

/-! ## References, renamed at once -/

section Renaming

variable [PyRegex] (quotes : Char → Option Char)

/-- the qualifiers of an expression, with the places they stand in; `quotes` gives the ends of the quoted identifiers -/
def qualifierPieces (text : List Char) : List (Piece Char Place (List Char)) :=
  (qualifier isWord '.').pieces (placeStep quotes) .code none 0 text

def renamedReference (source : UnifiedSourceModel) (name : List Char) : List Char :=
  (sourceKey source ++ "__").toList ++ name ++ ['.']

/-- an expression with the references to some datasets renamed, wherever they stand in code -/
def renamedText (source : UnifiedSourceModel) (datasetKeys : List String) (text : List Char) : List Char :=
  (qualifierPieces quotes text).flatMap
    (Piece.rewrite (renameAll Place.isCode (renamedReference source) (datasetKeys.map String.toList)))

/-- **References are renamed at once.** After each dataset the references to the datasets so far are renamed and nothing
else is, and what is found is replaced by the dataset's key in the unified model. -/
structure RenamesReferences (source : UnifiedSourceModel) (text : List Char) : Prop where
  steps : ∀ done, done <+: longestFirst source →
    done.foldlM (rewriteReferences source) text = .ok (renamedText quotes source done text)
  written : ∀ done key, done ++ [key] <+: longestFirst source →
    mentions key (String.ofList (renamedText quotes source done text)) = true →
    replacement source key = some (renamedReference source key.toList)

/-- a key that is a word, and so can be a qualifier -/
def IsWord (key : String) : Prop := key.toList ≠ [] ∧ ∀ c ∈ key.toList, isWord c = true

/-- one dataset is settled: a key that is a word stands before a dot in code only, and is no qualifier in a reference
that has been renamed before it; another key is not found; and the key of a dataset that is found has no escapes -/
structure SettledAt (source : UnifiedSourceModel) (text : List Char) (done : List String) (key : String) : Prop where
  word : IsWord key → ∀ place found name, .found place found name ∈ qualifierPieces quotes text →
    (name = key.toList → place.isCode = true) ∧ (place.isCode = true → name ∈ done.map String.toList →
      key.toList ∉ qualifiers isWord '.' (renamedReference source name))
  other : ¬IsWord key → mentions key (String.ofList (renamedText quotes source done text)) = false
  written : mentions key (String.ofList (renamedText quotes source done text)) = true →
    replacement source key = some (renamedReference source key.toList)

/-- **When they are.** Each dataset is settled when its turn comes. -/
def Settled (source : UnifiedSourceModel) (text : List Char) : Prop :=
  ∀ done key, done ++ [key] <+: longestFirst source → SettledAt quotes source text done key

theorem isWord_dot : isWord '.' = false := by
  rw [PyClasses.isWord_ascii '.' (by decide)]
  decide

omit quotes in
/-- the pattern of the code, on characters -/
theorem referencePattern_eq (key : String) : referencePattern key = reference isWord '.' key.toList := by
  funext before text
  have hdot : ".".toList = ['.'] := rfl
  rw [referencePattern, reference, String.toList_append, hdot, length_append, length_singleton]

variable {quotes}

theorem renamedText_nil (source : UnifiedSourceModel) (text : List Char) :
    renamedText quotes source [] text = text := by
  have hbounded : (qualifier isWord '.').Bounded := qualifier_bounded isWord_dot
  have htext := flatMap_text hbounded (placeStep quotes) .code none 0 text
  rw [drop_zero] at htext
  conv_rhs => rw [← htext]
  refine flatMap_congr fun p _ => ?_
  cases p with
  | same c => rfl
  | found place found name =>
    rw [Piece.rewrite, renameAll, if_neg fun h => not_mem_nil h.2]
    rfl

/-- one dataset more -/
theorem step_iff {source : UnifiedSourceModel} {done : List String} {key : String}
    (hinit : done ++ [key] <+: longestFirst source) {written : List Char}
    (hwritten : replacement source key = some written) (text : List Char)
    (hfound : mentions key (String.ofList (renamedText quotes source done text)) = true →
      replacement source key = some (renamedReference source key.toList)) :
    rewriteReferences source (renamedText quotes source done text) key =
        .ok (renamedText quotes source (done ++ [key]) text) ↔ SettledAt quotes source text done key := by
  have hrename : ∀ name, name.length + 1 < (renamedReference source name).length ∧
      ∃ y, renamedReference source name = y ++ ['.'] := by
    refine fun name => ⟨?_, _, rfl⟩
    rw [renamedReference, String.toList_append]
    simp
    omega
  have hnew : key.toList ∉ done.map String.toList := by
    have hnodup : (done ++ [key]).Nodup :=
      hinit.sublist.nodup ((perm_insertionSort _ _).nodup_iff.2 source.model.datasets.keys_nodup)
    rintro hmem
    obtain ⟨other, hother, heq⟩ := mem_map.1 hmem
    rw [String.toList_injective heq] at hother
    exact (nodup_append.1 hnodup).2.2 key hother key (mem_singleton_self key) rfl
  have hmentions : mentions key (String.ofList (renamedText quotes source done text)) =
      ((reference isWord '.' key.toList).pieces (fun _ _ => ()) () none 0
        (renamedText quotes source done text)).any Piece.isFound := by
    rw [mentions, referencePattern_eq, String.toList_ofList]
  have hsub : (reference isWord '.' key.toList).sub (fun _ => written) (renamedText quotes source done text) =
      (reference isWord '.' key.toList).sub (fun _ => renamedReference source key.toList)
        (renamedText quotes source done text) := by
    cases hany : mentions key (String.ofList (renamedText quotes source done text)) with
    | true =>
      obtain rfl : written = _ := Option.some.inj (hwritten.symm.trans (hfound hany))
      rfl
    | false =>
      rw [hmentions] at hany
      rw [sub_of_not_found (reference_bounded _) _ hany, sub_of_not_found (reference_bounded _) _ hany]
  rw [rewriteReferences, hwritten, Except.ok.injEq, referencePattern_eq, hsub]
  by_cases hkey : IsWord key
  · rw [renamedText, renamedText, map_append, map_singleton, qualifierPieces,
      sub_renameAll_iff isWord_dot hrename hkey.1 hkey.2 hnew]
    exact ⟨fun h => ⟨fun _ => h, fun hother => absurd hkey hother, hfound⟩, fun h => h.word hkey⟩
  · have hsame : renamedText quotes source (done ++ [key]) text = renamedText quotes source done text := by
      rw [renamedText, renamedText, map_append, map_singleton]
      exact renameAll_of_not_word _ _ isWord_dot hkey _ _ _ _
    rw [hsame, sub_eq_self_iff (reference_bounded _), ← hmentions]
    · exact ⟨fun h => ⟨fun hword => absurd hword hkey, fun _ => h, hfound⟩, fun h => h.other hkey⟩
    · intro before cs n d h
      rw [reference] at h
      split_ifs at h
      cases h
      exact (hrename key.toList).1

theorem replacement_of_ok {source : UnifiedSourceModel} {datasetKeys : List String} {text written : List Char}
    (h : datasetKeys.foldlM (rewriteReferences source) text = .ok written) :
    ∀ key ∈ datasetKeys, ∃ w, replacement source key = some w := by
  induction datasetKeys generalizing text with
  | nil => exact fun key hkey => absurd hkey not_mem_nil
  | cons key datasetKeys ih =>
    obtain ⟨next, hnext, h⟩ := of_bind_ok h
    refine forall_mem_cons.2 ⟨?_, ih h⟩
    rw [rewriteReferences] at hnext
    cases hw : replacement source key with
    | some w => exact ⟨w, rfl⟩
    | none =>
      rw [hw] at hnext
      cases hnext

variable (quotes) in
/-- **One dataset after the other.** The references are renamed at once exactly where the keys are settled. -/
theorem steps_iff {source : UnifiedSourceModel} {expression rewritten : String}
    (h : rewriteSourceMetricExpression source expression = .ok rewritten) :
    RenamesReferences quotes source expression.toList ↔ Settled quotes source expression.toList := by
  obtain ⟨written, hwritten, -⟩ := map_eq_ok_iff.1 h
  have hreplacement : ∀ done key, done ++ [key] <+: longestFirst source → ∃ w, replacement source key = some w :=
    fun done key hinit => replacement_of_ok hwritten key (hinit.subset (by simp))
  have hstep : ∀ done key, (done ++ [key]).foldlM (rewriteReferences source) expression.toList =
      done.foldlM (rewriteReferences source) expression.toList >>= fun text => rewriteReferences source text key := by
    intro done key
    rw [foldlM_append]
    refine bind_congr fun text => ?_
    exact bind_pure _
  constructor
  · intro hrenames done key hinit
    obtain ⟨w, hw⟩ := hreplacement done key hinit
    have hnext := hrenames.steps _ hinit
    rw [hstep, hrenames.steps done ((prefix_append done [key]).trans hinit)] at hnext
    exact (step_iff hinit hw expression.toList (hrenames.written done key hinit)).1 hnext
  · intro hsettled
    refine ⟨fun done => ?_, fun done key hinit => (hsettled done key hinit).written⟩
    induction done using List.reverseRecOn with
    | nil => exact fun _ => by rw [renamedText_nil]; rfl
    | append_singleton done key ih =>
      intro hinit
      obtain ⟨w, hw⟩ := hreplacement done key hinit
      rw [hstep, ih ((prefix_append done [key]).trans hinit)]
      exact (step_iff hinit hw expression.toList (hsettled done key hinit).written).2 (hsettled done key hinit)

theorem RenamesReferences.rewritten {source : UnifiedSourceModel} {expression : String}
    (h : RenamesReferences quotes source expression.toList) : rewriteSourceMetricExpression source expression =
      .ok (String.ofList (renamedText quotes source (longestFirst source) expression.toList)) := by
  rw [rewriteSourceMetricExpression, h.steps _ (prefix_refl _)]
  rfl

/-! ## Members, renamed at once -/

def memberText (sources : List UnifiedSourceModel) (d : String × String) : Option (List Char) :=
  ((sourceLookup sources).get? d.1).bind fun source =>
    (resolve source d.2).toOption.map (materializedMember source)

variable (quotes) in
/-- the members of an expression, with the places they stand in -/
def memberPieces (text : List Char) : List (Piece Char Place (String × String)) :=
  memberPattern.pieces (placeStep quotes) .code none 0 text

variable (quotes) in
/-- an expression with the members of the sources renamed, wherever they stand in code -/
def renamedMembers (sources : List UnifiedSourceModel) (text : List Char) : List Char :=
  (memberPieces quotes text).flatMap
    (Piece.rewrite fun place d => if place.isCode then memberText sources d else none)

variable {sources : List UnifiedSourceModel}

theorem sourceKey_of_lookup {key : String} {source : UnifiedSourceModel}
    (h : (sourceLookup sources).get? key = some source) : source ∈ sources ∧ sourceKey source = key := by
  rw [sourceLookup, get?_ofList, map_eq_some_iff] at h
  obtain ⟨e, he, rfl⟩ := h
  obtain ⟨hmem, hkey⟩ := mem_filter.1 (mem_of_getLast? he)
  obtain ⟨source, hsource, rfl⟩ := mem_map.1 hmem
  exact ⟨hsource, of_decide_eq_true hkey⟩

/-- what is found begins with the name of the model and a dot -/
theorem memberPattern_found {before : Option Char} {text : List Char} {n : ℕ} {d : String × String}
    (h : memberPattern before text = some (n, d)) : ∃ rest, text.take n = d.1.toList ++ '.' :: rest := by
  obtain ⟨hdot, hn, hd⟩ : (text.drop (text.takeWhile isNameChar).length).head? = some '.' ∧
      (text.takeWhile isNameChar).length + 1 ≤ n ∧ d.1 = String.ofList (text.takeWhile isNameChar) := by
    rw [memberPattern] at h
    split_ifs at h with hno hlong hshort
    · push Not at hno
      cases h
      exact ⟨hno.2.2.1, by omega, rfl⟩
    · push Not at hno
      cases h
      exact ⟨hno.2.2.1, by omega, rfl⟩
  have hmodel : text.take (text.takeWhile isNameChar).length = text.takeWhile isNameChar :=
    (prefix_iff_eq_take.1 (List.takeWhile_prefix _)).symm
  obtain ⟨t, ht⟩ := head?_eq_some_iff.1 hdot
  have htext := take_append_drop (text.takeWhile isNameChar).length text
  rw [hmodel, ht] at htext
  obtain ⟨k, rfl⟩ := Nat.exists_eq_add_of_le hn
  refine ⟨t.take k, ?_⟩
  rw [hd, String.toList_ofList]
  calc text.take ((text.takeWhile isNameChar).length + 1 + k)
      = (text.takeWhile isNameChar ++ '.' :: t).take ((text.takeWhile isNameChar).length + (k + 1)) := by
        rw [htext, Nat.add_assoc, Nat.add_comm 1]
    _ = text.takeWhile isNameChar ++ '.' :: t.take k := by
        rw [take_length_add_append, take_succ_cons]

/-- one piece that is rewritten -/
theorem replaceMember_ok {p : Piece Char Unit (String × String)} {part : List Char}
    (h : replaceMember sources p = .ok part) : part = p.rewrite (fun _ => memberText sources) ∧
      ∀ m text d, p = .found m text d →
        ((sourceLookup sources).has d.1 = true → memberText sources d ≠ none) := by
  cases p with
  | same c => exact ⟨(Except.ok.inj h).symm, fun _ _ _ h => by cases h⟩
  | found m text d =>
    rw [replaceMember] at h
    rw [Piece.rewrite, memberText]
    cases hlookup : (sourceLookup sources).get? d.1 with
    | none =>
      rw [hlookup] at h
      refine ⟨(Except.ok.inj h).symm, fun m' text' d' heq hhas => ?_⟩
      cases heq
      rw [Dict.has, hlookup] at hhas
      cases hhas
    | some source =>
      rw [hlookup] at h
      obtain ⟨member, hmember, rfl⟩ := map_eq_ok_iff.1 h
      rw [bind_some, hmember]
      refine ⟨rfl, fun m' text' d' heq _ => ?_⟩
      cases heq
      rw [memberText, hlookup, bind_some, hmember]
      exact some_ne_none _

variable (quotes) in
theorem rewriteUnified_ok {expression rewritten : String}
    (h : rewriteUnifiedMetricExpression sources expression = .ok rewritten) :
    rewritten.toList = (memberPieces quotes expression.toList).flatMap (Piece.rewrite fun _ => memberText sources) ∧
      ∀ place text d, .found place text d ∈ memberPieces quotes expression.toList →
        (sourceLookup sources).has d.1 = true → memberText sources d ≠ none := by
  obtain ⟨parts, hparts, rfl⟩ := map_eq_ok_iff.1 h
  have hpieces := map_forget (P := memberPattern) (placeStep quotes) .code none 0 expression.toList
  have hall := forall₂_of_mapM hparts
  rw [← hpieces] at hall
  constructor
  · have hparts := map_eq_of_forall₂ (f := Piece.rewrite fun _ => memberText sources) (g := id)
      (fun p part hpart => (replaceMember_ok hpart).1) hall
    rw [String.toList_ofList, ← List.map_id parts, hparts, List.map_map, ← flatMap_def]
    refine flatMap_congr fun p _ => ?_
    cases p <;> rfl
  · intro place text d hmem
    obtain ⟨part, -, hpart⟩ := forall₂_exists_right hall _ (mem_map_of_mem (f := Piece.forget) hmem)
    exact (replaceMember_ok hpart).2 () text d rfl

variable (quotes) in
/-- **Members** of the sources are renamed at once exactly where they stand in code. -/
theorem members_iff {expression rewritten : String}
    (h : rewriteUnifiedMetricExpression sources expression = .ok rewritten) :
    rewritten = String.ofList (renamedMembers quotes sources expression.toList) ↔
      ∀ place text d, .found place text d ∈ memberPieces quotes expression.toList →
        (sourceLookup sources).has d.1 = true → place.isCode = true := by
  obtain ⟨hrewritten, hresolved⟩ := rewriteUnified_ok quotes h
  rw [← String.toList_inj, String.toList_ofList, hrewritten, renamedMembers, rewrite_eq_iff]
  · refine forall₄_congr fun place text d hmem => ?_
    cases hcode : place.isCode with
    | true => exact iff_of_true (if_pos rfl) fun _ => rfl
    | false =>
      refine ⟨fun hnone hhas => absurd hnone.symm (hresolved place text d hmem hhas), fun hno => ?_⟩
      rw [memberText]
      cases hlookup : (sourceLookup sources).get? d.1 with
      | none => rfl
      | some source =>
        rw [Dict.has, hlookup] at hno
        exact absurd (hno rfl) Bool.false_ne_true
  · intro place text d _
    split_ifs
    · exact .inr rfl
    · exact .inl rfl
  · intro place text d hmem x hx t t' heq
    obtain ⟨source, hsource, hx⟩ := bind_eq_some_iff.1 hx
    obtain ⟨member, -, rfl⟩ := map_eq_some_iff.1 hx
    obtain ⟨before, cs, n, hfound, rfl⟩ := Pattern.found_of_mem hmem
    obtain ⟨rest, hrest⟩ := memberPattern_found hfound
    rw [hrest, materializedMember, materializedDatasetKey, (sourceKey_of_lookup hsource).2] at heq
    simp only [String.toList_append, append_assoc, append_cancel_left_eq] at heq
    exact absurd (List.cons.inj heq).1 (by decide)

end Renaming

/-! ## Unified models -/

section Unifying

variable [PyRegex] (quotes : Char → Option Char)

def sourceDatasets (sources : List UnifiedSourceModel) : List (String × Dataset) :=
  sources.flatMap fun source =>
    source.model.datasets.entries.map fun e => (materializedDatasetKey (sourceKey source) e.1, e.2)

def sourceRelationships (sources : List UnifiedSourceModel) : List Relationship :=
  sources.flatMap fun source => source.relationships.map (materializedRelationship source)

def metricKeys (sources : List UnifiedSourceModel) (metrics : Dict String Metric) : List String :=
  (sources.flatMap fun source => source.metrics.map fun e => sourceKey source ++ "." ++ e.1) ++ metrics.keys

def renamedMetrics (source : UnifiedSourceModel) : List (String × Metric) :=
  source.metrics.map fun e => (sourceKey source ++ "." ++ e.1,
    ⟨String.ofList (renamedText quotes source (longestFirst source) e.2.expression.toList)⟩)

def renamedMetric (sources : List UnifiedSourceModel) (e : String × Metric) : String × Metric :=
  (e.1, ⟨String.ofList (renamedMembers quotes sources e.2.expression.toList)⟩)

/-- **The sources are unified**: each source is found under its key, datasets, relationships and metrics are all kept,
each at its own place, and the references in the expressions of the metrics are renamed at once. -/
structure Unifies (sources : List UnifiedSourceModel) (relationships : List RelationshipPayload)
    (metrics : Dict String Metric) (model : SemanticModel) : Prop where
  found : ∀ source ∈ sources, (sourceLookup sources).get? (sourceKey source) = some source
  keptDatasets : model.datasets.entries = sourceDatasets sources
  keptRelationships : ∃ links, relationships.mapM (linkModels sources) = .ok links ∧
    model.relationships.getD [] = sourceRelationships sources ++ links
  apart : sources.Pairwise fun a b => ∀ r ∈ a.relationships, ∀ r' ∈ b.relationships,
    materializedRelationship a r ≠ materializedRelationship b r'
  keptMetrics : (model.metrics.getD Dict.empty).entries =
    sources.flatMap (renamedMetrics quotes) ++ metrics.entries.map (renamedMetric quotes sources)
  renames : ∀ source ∈ sources, ∀ e ∈ source.metrics, RenamesReferences quotes source e.2.expression.toList

/-- **When they are.** Sources with one key are the same; relationships of different sources, of which one starts at a
dataset that its model does not have, do not become the same; no two metrics get one key; the keys of the datasets are
settled in the metrics of their source; and in the metrics of the unified model members of the sources stand in code. -/
structure UnifiesWhen (sources : List UnifiedSourceModel) (metrics : Dict String Metric) : Prop where
  sameKey : ∀ a ∈ sources, ∀ b ∈ sources, sourceKey a = sourceKey b → a = b
  undeclared : sources.Pairwise fun a b => ∀ r ∈ a.relationships, ∀ r' ∈ b.relationships,
    r.sourceDataset ∉ a.model.datasets.keys ∨ r'.sourceDataset ∉ b.model.datasets.keys →
      materializedRelationship a r ≠ materializedRelationship b r'
  metricKeys : (metricKeys sources metrics).Nodup
  settled : ∀ source ∈ sources, ∀ e ∈ source.metrics, Settled quotes source e.2.expression.toList
  members : ∀ e ∈ metrics.entries, ∀ place text d, .found place text d ∈ memberPieces quotes e.2.expression.toList →
    (sourceLookup sources).has d.1 = true → place.isCode = true

variable {quotes}

theorem foldlM_addDataset_ok {source : UnifiedSourceModel} {l : List (String × Dataset)} {start merged : Merged}
    (h : l.foldlM (addDataset source) start = .ok merged) :
    merged.datasets.entries =
        start.datasets.entries ++ l.map (fun e => (materializedDatasetKey (sourceKey source) e.1, e.2)) ∧
      merged.relationships = start.relationships ∧ merged.metrics = start.metrics := by
  induction l generalizing start with
  | nil =>
    cases h
    exact ⟨(append_nil _).symm, rfl, rfl⟩
  | cons e l ih =>
    rw [foldlM_cons, addDataset] at h
    split_ifs at h with hhas
    · cases h
    · obtain ⟨hdatasets, hrelationships, hmetrics⟩ := ih h
      have hnew : materializedDatasetKey (sourceKey source) e.1 ∉ start.datasets.entries.map Prod.fst :=
        fun hmem => hhas ((has_iff _ _).2 hmem)
      refine ⟨?_, hrelationships, hmetrics⟩
      rw [hdatasets, map_cons, ← singleton_append, ← append_assoc]
      exact congrArg (· ++ _) (setEntry_of_not_mem _ e.2 _ hnew)

variable {sources : List UnifiedSourceModel}

theorem foldlM_addSource_ok {start merged : Merged} (h : sources.foldlM addSource start = .ok merged) :
    merged.datasets.entries = start.datasets.entries ++ sourceDatasets sources ∧
      merged.relationships = start.relationships ++ sourceRelationships sources ∧
      ∃ pairs, sources.mapM rewrittenMetrics = .ok pairs ∧
        merged.metrics = setMetrics start.metrics pairs.flatten := by
  induction sources generalizing start with
  | nil =>
    cases h
    exact ⟨(append_nil _).symm, (append_nil _).symm, [], rfl, rfl⟩
  | cons source sources ih =>
    obtain ⟨next, hnext, h⟩ := of_bind_ok h
    obtain ⟨added, hadded, hnext⟩ := of_bind_ok hnext
    obtain ⟨pairs, hpairs, hnext⟩ := of_bind_ok hnext
    cases hnext
    obtain ⟨hdatasets, hrelationships, rest, hrest, hmetrics⟩ := ih h
    obtain ⟨hadded, hkept, hsame⟩ := foldlM_addDataset_ok hadded
    refine ⟨?_, ?_, pairs :: rest, ?_, ?_⟩
    · rw [hdatasets, hadded, append_assoc]
      rfl
    · rw [hrelationships, hkept, append_assoc]
      rfl
    · rw [mapM_cons, hpairs, hrest]
      rfl
    · rw [hmetrics, hsame, flatten_cons, setMetrics, setMetrics, setMetrics, foldl_append]

variable {metrics : Dict String Metric}

/-- the model that is built -/
theorem build_ok {payloads : List RelationshipPayload} {model : SemanticModel} {connectors : Dict String Uuid}
    (h : buildUnifiedSemanticModel sources payloads metrics = .ok (model, connectors)) :
    model.datasets.entries = sourceDatasets sources ∧
      (∃ links, payloads.mapM (linkModels sources) = .ok links ∧
        model.relationships.getD [] = sourceRelationships sources ++ links) ∧
      ∃ pairs named, sources.mapM rewrittenMetrics = .ok pairs ∧
        metrics.entries.mapM (unifiedMetric sources) = .ok named ∧
        model.metrics.getD Dict.empty = Dict.ofList (pairs.flatten ++ named) := by
  rw [buildUnifiedSemanticModel] at h
  split_ifs at h
  obtain ⟨merged, hmerged, h⟩ := of_bind_ok h
  obtain ⟨links, hlinks, h⟩ := of_bind_ok h
  obtain ⟨named, hnamed, h⟩ := of_bind_ok h
  obtain ⟨hdatasets, hrelationships, pairs, hpairs, hmetrics⟩ := foldlM_addSource_ok hmerged
  obtain ⟨rfl, -⟩ := Prod.mk.inj (Except.ok.inj h)
  refine ⟨hdatasets, ⟨links, hlinks, ?_⟩, pairs, named, hpairs, hnamed, ?_⟩
  · have hrelationships : merged.relationships = sourceRelationships sources := hrelationships
    rw [← hrelationships]
    dsimp only
    split_ifs with hempty
    · exact (isEmpty_iff.1 hempty).symm
    · rfl
  · have hset : setMetrics merged.metrics named = Dict.ofList (pairs.flatten ++ named) := by
      rw [hmetrics, setMetrics, setMetrics, ← foldl_append]
      rfl
    dsimp only
    rw [hset]
    split_ifs with hempty
    · exact (Dict.ext (isEmpty_iff.1 hempty)).symm
    · rfl

omit [PyRegex] in
/-- a list is kept in a dictionary exactly if its keys are different -/
theorem ofList_entries_iff {l : List (String × Metric)} : (Dict.ofList l).entries = l ↔ (l.map Prod.fst).Nodup := by
  constructor
  · intro h
    rw [← h]
    exact (Dict.ofList l).nodup
  · exact fun h => congrArg Dict.entries (ofList_entries ⟨l, h⟩)

/-- sources are found under their keys exactly if those with one key are the same -/
theorem found_iff : (∀ source ∈ sources, (sourceLookup sources).get? (sourceKey source) = some source) ↔
      ∀ a ∈ sources, ∀ b ∈ sources, sourceKey a = sourceKey b → a = b := by
  constructor
  · intro h a ha b hb hkey
    exact Option.some.inj ((h a ha).symm.trans (hkey ▸ h b hb))
  · intro h source hsource
    have hmem : sourceKey source ∈ (sourceLookup sources).keys := by
      rw [sourceLookup, mem_keys_ofList, List.map_map]
      exact mem_map_of_mem (f := Prod.fst ∘ fun source => (sourceKey source, source)) hsource
    obtain ⟨other, hother⟩ := (mem_keys_iff _ _).1 hmem
    obtain ⟨hin, hkey⟩ := sourceKey_of_lookup hother
    rw [hother, h other hin source hsource hkey]

theorem apart_of_built (h : ((sourceDatasets sources).map Prod.fst).Nodup) :
    sources.Pairwise fun a b => ∀ key ∈ a.model.datasets.keys, ∀ key' ∈ b.model.datasets.keys,
      materializedDatasetKey (sourceKey a) key ≠ materializedDatasetKey (sourceKey b) key' := by
  rw [sourceDatasets, map_flatMap, nodup_flatMap] at h
  refine h.2.imp fun {a b} hdisjoint key hkey key' hkey' heq => ?_
  obtain ⟨e, he, rfl⟩ := mem_map.1 hkey
  obtain ⟨e', he', rfl⟩ := mem_map.1 hkey'
  exact hdisjoint (mem_map_of_mem (mem_map_of_mem he))
    (mem_map.2 ⟨_, mem_map_of_mem he', heq.symm⟩)

theorem rewrittenMetrics_of_renames {source : UnifiedSourceModel}
    (h : ∀ e ∈ source.metrics, RenamesReferences quotes source e.2.expression.toList) :
    rewrittenMetrics source = .ok (renamedMetrics quotes source) := by
  rw [rewrittenMetrics, renamedMetrics]
  apply mapM_of_forall₂
  rw [List.forall₂_map_right_iff, List.forall₂_same]
  intro e he
  rw [(h e he).rewritten]
  rfl

omit [PyRegex] in
/-- what related lists have in common, where the relation leaves one value for each element -/
theorem eq_map_iff_of_forall₂ {α β : Type} {R : α → β → Prop} {f : α → β} {p : α → Prop}
    (hR : ∀ a b, R a b → (b = f a ↔ p a)) {l : List α} {r : List β} (h : List.Forall₂ R l r) :
    r = l.map f ↔ ∀ a ∈ l, p a := by
  induction h with
  | nil => simp
  | cons hab _ ih => rw [map_cons, List.cons.injEq, forall_mem_cons, hR _ _ hab, ih]

variable (quotes) in
/-- the metrics of the unified model, where their members are renamed at once -/
theorem named_iff {l named : List (String × Metric)}
    (h : l.mapM (unifiedMetric sources) = .ok named) : named = l.map (renamedMetric quotes sources) ↔
      ∀ e ∈ l, ∀ place text d, .found place text d ∈ memberPieces quotes e.2.expression.toList →
        (sourceLookup sources).has d.1 = true → place.isCode = true := by
  refine eq_map_iff_of_forall₂ (fun e n hn => ?_) (forall₂_of_mapM h)
  obtain ⟨x, hx, rfl⟩ := map_eq_ok_iff.1 hn
  rw [← members_iff quotes hx, renamedMetric, Prod.mk.injEq, and_iff_right rfl, Metric.mk.injEq]

theorem named_keys {named : List (String × Metric)}
    (h : metrics.entries.mapM (unifiedMetric sources) = .ok named) : named.map Prod.fst = metrics.keys := by
  refine map_eq_of_forall₂ (fun e n hn => ?_) (forall₂_of_mapM h)
  obtain ⟨x, -, rfl⟩ := map_eq_ok_iff.1 hn
  rfl

/-- the keys of the metrics, whatever their expressions become -/
theorem metricKeys_eq (sources : List UnifiedSourceModel)
    {named : List (String × Metric)} (h : named.map Prod.fst = metrics.keys) :
    (sources.flatMap (renamedMetrics quotes) ++ named).map Prod.fst = metricKeys sources metrics := by
  rw [map_append, h, map_flatMap, metricKeys]
  congr 1
  refine flatMap_congr fun source _ => ?_
  rw [renamedMetrics, List.map_map]
  rfl

/-- a rewriting that succeeds does so for each metric -/
theorem rewritten_of_pairs {pairs : List (List (String × Metric))}
    (h : sources.mapM rewrittenMetrics = .ok pairs) : ∀ source ∈ sources, ∀ e ∈ source.metrics, ∃ x,
      rewriteSourceMetricExpression source e.2.expression = .ok x := by
  intro source hsource e he
  obtain ⟨l, -, hl⟩ := forall₂_exists_right (forall₂_of_mapM h) source hsource
  obtain ⟨pair, -, hpair⟩ := forall₂_exists_right (forall₂_of_mapM hl) e he
  obtain ⟨x, hx, -⟩ := map_eq_ok_iff.1 hpair
  exact ⟨x, hx⟩

theorem pairs_of_renames {pairs : List (List (String × Metric))} (h : sources.mapM rewrittenMetrics = .ok pairs)
    (hrenames : ∀ source ∈ sources, ∀ e ∈ source.metrics, RenamesReferences quotes source e.2.expression.toList) :
    pairs.flatten = sources.flatMap (renamedMetrics quotes) := by
  have hall : sources.mapM rewrittenMetrics = .ok (sources.map (renamedMetrics quotes)) := by
    apply mapM_of_forall₂
    rw [List.forall₂_map_right_iff, List.forall₂_same]
    exact fun source hsource => rewrittenMetrics_of_renames (hrenames source hsource)
  rw [Except.ok.inj (h.symm.trans hall), flatMap_def]

end Unifying

/-! ## A key that names a dataset -/

section Renamed

open scoped Ascii Federation.PortableSql
open Federation.PortableSql (doubleQuotes)

/-- a source with one metric -/
def sourceOf (key : String) (datasetKeys : List String) (expression : String) : UnifiedSourceModel where
  model := ⟨Dict.ofList (datasetKeys.map fun k => (k, ⟨none, none, none, none, none, none⟩)), none,
    some (Dict.ofList [("count", ⟨expression⟩)])⟩
  connectorId := none
  key := some key
  aliasName := none
  name := none
  modelId := none

def ordersEu : UnifiedSourceModel := sourceOf "orders.eu" ["orders", "customers"] "customers.id"

def sales : UnifiedSourceModel := sourceOf "sales" ["orders"] "orders.id"

end Renamed

end Langbridge.Semantic.UnifiedModel
