/-
Stage caches (`federation/executor/cache_context.py`) and physical plans (`federation/planner/physical_planner.py`):
which stages a plan runs, and the description of a stage's inputs whose hash is its cache key.

A remote stage describes the datasets behind it, a local stage its dependencies by their keys. The description is
cacheable when every input is: a dataset whose freshness is a revision, or a cacheable dependency.

The two hashes are a parameter (`Digest`).
-/
import Langbridge.Federation.Optimizer

namespace Langbridge.Federation

open Core Federation.Sql

/-! ## Inputs -/

/-- `StageCacheInputKind` -/
inductive InputKind where
  | dataset
  | dependency
deriving DecidableEq

/-- `StageCacheInputPolicy` -/
inductive InputPolicy where
  | revision
  | dependency
  | volatile
  | unknown
deriving DecidableEq

/-- `StageCacheInput` -/
structure StageCacheInput where
  kind : InputKind
  cachePolicy : InputPolicy
  sourceId : Option String
  tableKey : Option String
  datasetId : Option String
  datasetName : Option String
  canonicalReference : Option String
  materializationMode : Option String
  freshnessKey : Option String
  revisionId : Option String
  dependencyStageId : Option String
  reason : Option String
deriving DecidableEq

variable [PyText]

def StageCacheInput.supportsCache (i : StageCacheInput) : Bool :=
  (i.cachePolicy = .revision || i.cachePolicy = .dependency) && !isBlank i.freshnessKey

/-- `StageCacheDescriptor`; a cacheable one has a key -/
structure StageCacheDescriptor where
  cacheable : Bool
  cacheKey : Option String
  inputs : List StageCacheInput
  reason : Option String
  keyed : cacheable = true → isBlank cacheKey = false

/-- the hashes: of a stage's inputs (never blank), and of a logical plan with its local stage -/
structure Digest where
  key : List StageCacheInput → String
  plan : LogicalPlan → Option Query → String
  key_nonblank : ∀ l, isBlank (some (key l)) = false

/-- a description that is never cached -/
def uncached (inputs : List StageCacheInput) (reason : Option String) : StageCacheDescriptor :=
  ⟨false, none, inputs, reason, by simp⟩

def fromInputs (D : Digest) (inputs : List StageCacheInput) : StageCacheDescriptor :=
  match inputs with
  | [] => uncached [] (some "Stage has no cacheable freshness inputs.")
  | _ =>
    match inputs.find? fun i => !i.supportsCache with
    | some i =>
      uncached inputs (some (match i.reason with
        | some r => if r = "" then "Stage cache is bypassed for this input state." else r
        | none => "Stage cache is bypassed for this input state."))
    | none => ⟨true, some (D.key inputs), inputs, none, fun _ => D.key_nonblank inputs⟩

/-! ## Bindings -/

def stringOrNone (v : Json) : Option String :=
  let normalized := PyText.strip (if v.truthy then v.text else "")
  if normalized = "" then none else some normalized

def isHexDigit (c : Char) : Bool := c.isDigit || ('a' ≤ c && c ≤ 'f') || ('A' ≤ c && c ≤ 'F')

/-- `_coerce_uuid`: the hexadecimal digits of a UUID -/
def coerceUuid : Json → Option String
  | .null => none
  | v =>
    let braces : Char → Bool := fun c => c = '\x7b' || c = '\x7d'
    let hex := removeAll "-" (trim braces (removeAll "uuid:" (removeAll "urn:" v.text.toList)))
    if hex.length = 32 ∧ hex.all isHexDigit then some (String.ofList (hex.map Char.toLower)) else none

def descriptorPolicy : FreshnessPolicy → InputPolicy
  | .revision => .revision
  | .volatile => .volatile
  | .unknown => .unknown

def optText (s : Option String) : Json := (s.map Json.str).getD .null

def describeBinding (b : VirtualTableBinding) : StageCacheInput :=
  let identity : Dict String Json := (b.descriptor.map DatasetDescriptor.relationIdentity).getD Dict.empty
  match b.descriptor.bind fun d => d.freshness.map fun f => (d, f) with
  | some (d, f) =>
    { kind := .dataset
      cachePolicy := descriptorPolicy f.policy
      sourceId := some b.sourceId
      tableKey := some b.tableKey
      datasetId := d.datasetId
      datasetName := d.name
      canonicalReference := stringOrNone ((identity.get? "canonical_reference").getD .null)
      materializationMode := stringOrNone (optText d.materializationMode)
      freshnessKey := stringOrNone (optText f.freshnessKey)
      revisionId := f.revisionId
      dependencyStageId := none
      reason := stringOrNone (optText f.reason) }
  | none =>
    match stringOrNone (b.metadataGet "cache_freshness_key" none) with
    | some key =>
      { kind := .dataset
        cachePolicy := .revision
        sourceId := some b.sourceId
        tableKey := some b.tableKey
        datasetId := coerceUuid (b.metadataGet "dataset_id" none)
        datasetName := stringOrNone (b.metadataGet "dataset_name" none)
        canonicalReference := stringOrNone (b.metadataGet "canonical_reference" none)
        materializationMode := stringOrNone (b.metadataGet "materialization_mode" none)
        freshnessKey := some key
        revisionId := coerceUuid (b.metadataGet "dataset_revision_id" none)
        dependencyStageId := none
        reason := some "Binding provided explicit cache_freshness_key metadata." }
    | none =>
      { kind := .dataset
        cachePolicy := .unknown
        sourceId := some b.sourceId
        tableKey := some b.tableKey
        datasetId := coerceUuid (b.metadataGet "dataset_id" none)
        datasetName := stringOrNone (b.metadataGet "dataset_name" none)
        canonicalReference := stringOrNone ((identity.get? "canonical_reference").getD .null)
        materializationMode := stringOrNone (b.metadataGet "materialization_mode" none)
        freshnessKey := none
        revisionId := none
        dependencyStageId := none
        reason := some "Dataset freshness metadata is missing, so federation stage cache is bypassed." }

/-! ## Physical plans -/

/-- `StageType` -/
inductive StageType where
  | remoteScan
  | remoteFullQuery
  | localCompute
deriving DecidableEq

/-- `StageDefinition`; `tableInputs` are the registered relations of a local stage -/
structure StageDefinition where
  stageId : String
  stageType : StageType
  dependencies : List String
  sourceId : Option String
  sql : Option Query
  subplan : Option SourceSubplan
  tableInputs : List (String × String)

/-- `PhysicalPlan` -/
structure PhysicalPlan where
  planId : String
  logicalPlan : LogicalPlan
  stages : List StageDefinition

def remoteStage (type : StageType) (sp : SourceSubplan) : StageDefinition :=
  ⟨sp.stageId, type, [], some sp.sourceId, none, some sp, []⟩

def localStage (op : OptimizedPlan) : StageDefinition where
  stageId := "local_compute_final"
  stageType := .localCompute
  dependencies := op.sourceSubplans.map SourceSubplan.stageId
  sourceId := none
  sql := some op.localStageSql
  subplan := none
  tableInputs := op.sourceSubplans.map fun sp => (scanStage sp.aliasName, sp.stageId)

/-- what `_plan_hash` is taken of -/
def planPayload (op : OptimizedPlan) : LogicalPlan × Option Query :=
  (op.logicalPlan, if op.pushdownFullQuery then none else some op.localStageSql)

/-- `PhysicalPlanner.build` -/
def buildPlan (D : Digest) (op : OptimizedPlan) : PhysicalPlan where
  planId := D.plan (planPayload op).1 (planPayload op).2
  logicalPlan := op.logicalPlan
  stages :=
    if op.pushdownFullQuery then (op.sourceSubplans.take 1).map (remoteStage .remoteFullQuery)
    else op.sourceSubplans.map (remoteStage .remoteScan) ++ [localStage op]

/-! ## Describing stages -/

def stageTableKeys (plan : PhysicalPlan) (stage : StageDefinition) : List String :=
  match stage.stageType, stage.subplan with
  | .remoteScan, some sp => [sp.tableKey]
  | _, _ =>
    let sourceId := PyText.strip ((stage.sourceId.orElse fun _ => stage.subplan.map SourceSubplan.sourceId).getD "")
    if sourceId = "" then []
    else ((plan.logicalPlan.tables.values.filter fun r => r.sourceId = sourceId).map
      TableRef.tableKey).dedup.insertionSort (· ≤ ·)

def describeRemote (D : Digest) (vd : VirtualDataset) (plan : PhysicalPlan) (stage : StageDefinition) :
    StageCacheDescriptor :=
  let inputs := ((stageTableKeys plan stage).filterMap vd.tables.get?).map describeBinding
  if inputs = [] then uncached [] (some ("Stage '" ++ stage.stageId ++ "' has no dataset freshness bindings."))
  else fromInputs D inputs

def dependencyInput (caches : String → Option StageCacheDescriptor) (dep : String) : StageCacheInput :=
  let base : StageCacheInput :=
    ⟨.dependency, .unknown, none, none, none, none, none, none, none, none, some dep, none⟩
  match caches dep with
  | none => { base with reason := some "Dependency cache metadata is unavailable." }
  | some c =>
    { base with
      cachePolicy := if c.cacheable && (c.cacheKey.getD "" ≠ "") then .dependency else .unknown
      freshnessKey := c.cacheKey
      reason := if c.cacheable then none else c.reason }

def describeLocal (D : Digest) (stage : StageDefinition) (caches : String → Option StageCacheDescriptor) :
    StageCacheDescriptor :=
  fromInputs D ((stage.dependencies.insertionSort (· ≤ ·)).map (dependencyInput caches))

def describeStage (D : Digest) (vd : VirtualDataset) (plan : PhysicalPlan) (stage : StageDefinition)
    (caches : String → Option StageCacheDescriptor) : StageCacheDescriptor :=
  match stage.stageType with
  | .remoteScan | .remoteFullQuery => describeRemote D vd plan stage
  | .localCompute => describeLocal D stage caches

/-! ## Cacheable descriptions -/

theorem fromInputs_cacheable (D : Digest) (inputs : List StageCacheInput) (h : (fromInputs D inputs).cacheable = true) :
    (∀ i ∈ inputs, i.supportsCache = true) ∧ (fromInputs D inputs).cacheKey = some (D.key inputs) := by
  cases inputs with
  | nil => cases h
  | cons i l =>
    simp only [fromInputs] at h ⊢
    cases hf : (i :: l).find? fun i => !i.supportsCache with
    | some j => simp [hf, uncached] at h
    | none =>
      refine ⟨fun j hj => ?_, rfl⟩
      simpa using List.find?_eq_none.1 hf j hj

theorem fromInputs_inputs (D : Digest) (inputs : List StageCacheInput) : (fromInputs D inputs).inputs = inputs := by
  cases inputs with
  | nil => rfl
  | cons i l =>
    simp only [fromInputs]
    cases (i :: l).find? fun i => !i.supportsCache <;> rfl

end Langbridge.Federation
