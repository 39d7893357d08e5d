/-
Runs of stage executions over one artifact store (`federation/executor/stage_executor.py`, `artifact_store.py`), with
sources and bindings that may change between any two of them.

A stage is executed, or answered from the manifest under (plan id, stage id) when its cache key is the one it would get
now. An artifact is its table: content addressing is exact, and nothing deletes artifacts.

`Ledger` is what the executions of a run agree on: which plan an id stands for, which inputs a key stands for, which
rows a described input stands for, which filters a plan pushes to a scan, and which planned table a name of a pushed
query means. The invariant says that every cacheable manifest holds what its stage means on the described inputs.
-/
import Langbridge.Federation.StageCache
import Langbridge.Federation.Scopes

namespace Langbridge.Federation

open Core Federation.Sql List Dict Option

section Model

variable [PyText]

/-! ## The store -/

def safeChars : List Char → List Char
  | '.' :: '.' :: cs => '_' :: safeChars cs
  | c :: cs => (if c = '/' ∨ c = '\\' then '_' else c) :: safeChars cs
  | [] => []

def safeSegment (value : String) : String := String.ofList (safeChars value.toList)

/-- `StageArtifactManifest` -/
structure Manifest where
  table : Table
  cache : Option StageCacheDescriptor

/-- the place of a manifest in the workspace -/
abbrev ManifestPath := String × String

abbrev Store := ManifestPath → Option Manifest

def manifestPath (planId stageId : String) : ManifestPath := (safeSegment planId, safeSegment stageId)

/-- `get_cached_stage_output` -/
def getCached (store : Store) (planId stageId : String) (expected : StageCacheDescriptor) : Option Table :=
  match store (manifestPath planId stageId) with
  | none => none
  | some m =>
    if !expected.cacheable || isBlank expected.cacheKey then none
    else
      match m.cache with
      | none => none
      | some c =>
        if !c.cacheable || isBlank c.cacheKey then none
        else if c.cacheKey ≠ expected.cacheKey then none
        else some m.table

/-! ## Executing a stage -/

def dependencyCaches (store : Store) (plan : PhysicalPlan) (dep : String) : Option StageCacheDescriptor :=
  (store (manifestPath plan.planId dep)).bind Manifest.cache

/-- what executing the stage now would produce; `none` is an exception -/
def produce (I : Interp) (S : Sources) (store : Store) (plan : PhysicalPlan) (stage : StageDefinition) : Option Table :=
  match stage.stageType with
  | .localCompute => do
    let sql ← stage.sql
    let tables ← stage.tableInputs.mapM fun e => (store (manifestPath plan.planId e.2)).map fun m => (e.1, m.table)
    run I (localWorld tables) sql
  | _ => do
    let sp ← stage.subplan
    run I (sourceWorld S sp.sourceId) sp.sql

/-- one execution of a planned query (`FederatedPlanner.plan_sql`) -/
structure Job where
  vd : VirtualDataset
  plan : LogicalPlan
  dialects : Dict String String
  dialect : String
  op : OptimizedPlan
  planned : logicalPlan plan.sql vd = .ok plan
  optimized : optimize plan plan.sql vd dialects dialect = some op

structure StageRun where
  sources : Sources
  job : Job
  stage : StageDefinition

section Runs

variable (D : Digest) (I : Interp)

def Job.physical (j : Job) : PhysicalPlan := buildPlan D j.op

/-- the description of the stage in the current store -/
def StageRun.descriptor (store : Store) (e : StageRun) : StageCacheDescriptor :=
  describeStage D e.job.vd (e.job.physical D) e.stage (dependencyCaches store (e.job.physical D))

/-- the cached artifact `execute_stage` returns, if it does -/
def StageRun.cached (store : Store) (e : StageRun) : Option Table :=
  getCached store (e.job.physical D).planId e.stage.stageId (e.descriptor D store)

/-- what `execute_stage` would produce without a cache -/
def StageRun.fresh (store : Store) (e : StageRun) : Option Table :=
  produce I e.sources store (e.job.physical D) e.stage

/-- the manifest after writing an artifact -/
def writeManifest (store : Store) (path : ManifestPath) (m : Manifest) : Store := Function.update store path (some m)

/-- `execute_stage`: the store after it; an exception leaves the store as it was -/
def StageRun.execute (store : Store) (e : StageRun) : Store :=
  match e.cached D store with
  | some _ => store
  | none =>
    match e.fresh D I store with
    | none => store
    | some T =>
      writeManifest store (manifestPath (e.job.physical D).planId e.stage.stageId) ⟨T, some (e.descriptor D store)⟩

/-! ## What the executions agree on -/

/-- the stages of a plan -/
inductive StageName where
  | full
  | scan (a : String)
  | final
deriving DecidableEq

def StageName.id : StageName → String
  | .full => "scan_full_query"
  | .scan a => scanStage a
  | .final => "local_compute_final"

/-- the stages of a plan, from what its id is the hash of -/
def stageNames (p : LogicalPlan × Option Query) : List StageName :=
  match p.2 with
  | none => [.full]
  | some _ => p.1.tables.keys.map .scan ++ [.final]

/-- the table keys described for a pushed query -/
def fullKeys (plan : LogicalPlan) : List String :=
  match plan.tables.get? plan.fromAlias with
  | none => []
  | some ref =>
    let sourceId := PyText.strip ref.sourceId
    if sourceId = "" then []
    else ((plan.tables.values.filter fun r => r.sourceId = sourceId).map TableRef.tableKey).dedup.insertionSort (· ≤ ·)

/-- what the executions of a run agree on -/
structure Ledger where
  /-- the plan of a plan id -/
  plans : String → LogicalPlan × Option Query
  /-- the inputs of a cache key -/
  keys : String → List StageCacheInput
  /-- the rows of a described dataset -/
  content : StageCacheInput → Option Table
  /-- the filters a plan pushes to a scan, as the scan has them -/
  filters : LogicalPlan → String → List Expr
  /-- the planned table that a name in a pushed query means -/
  tableKey : LogicalPlan → TableNode → Option String

variable (L : Ledger)

/-- a stage execution that keeps to the ledger -/
structure Agrees (store : Store) (e : StageRun) : Prop where
  stage : e.stage ∈ (e.job.physical D).stages
  /-- plan ids and cache keys do not collide -/
  plan : L.plans (safeSegment (e.job.physical D).planId) = planPayload e.job.op
  key : (e.descriptor D store).cacheable = true →
    L.keys (D.key (e.descriptor D store).inputs) = (e.descriptor D store).inputs
  /-- equal freshness means equal contents -/
  content : ∀ b ∈ e.job.vd.tables.values, (describeBinding b).supportsCache = true →
    boundTable e.sources b = L.content (describeBinding b)
  /-- bindings are stored under their own keys, aliases have names -/
  planned : ∀ a ref b, e.job.plan.tables.get? a = some ref → e.job.vd.tables.get? ref.tableKey = some b →
    a ≠ "" ∧ b.sourceId = ref.sourceId
  /-- the stages of the plan have manifests of their own -/
  paths : ∀ n ∈ stageNames (planPayload e.job.op), ∀ n' ∈ stageNames (planPayload e.job.op),
    safeSegment n.id = safeSegment n'.id → n = n'
  /-- the plan pushes the filters it always pushes -/
  filters : e.job.op.pushdownFullQuery = false → ∀ a ref b, e.job.plan.tables.get? a = some ref →
    e.job.vd.tables.get? ref.tableKey = some b →
      (pushedFilters e.job.plan e.job.dialects e.job.dialect a ref).map (rewriteFilterForScan a b) =
        L.filters e.job.plan a
  /-- every table a pushed query reads is described -/
  covered : e.job.op.pushdownFullQuery = true → e.job.plan.sql.raws = [] ∧
    ∀ sp ∈ e.job.op.sourceSubplans, ∀ t ∈ e.job.plan.sql.tables,
      match L.tableKey e.job.plan t with
      | none => (sourceWorld e.sources sp.sourceId).table t = none
      | some k => k ∈ fullKeys e.job.plan ∧ ∃ b, e.job.vd.tables.get? k = some b ∧
          (sourceWorld e.sources sp.sourceId).table t = boundTable e.sources b

/-! ## What a stage means -/

/-- the tables of a pushed query, from the described inputs -/
def fullWorld (plan : LogicalPlan) (inputs : List StageCacheInput) : World where
  table t := (L.tableKey plan t).bind fun k => (((fullKeys plan).zip inputs).lookup k).bind L.content
  raw _ := none

def scanMeaning (plan : LogicalPlan) (a : String) (inputs : List StageCacheInput) : Option Table :=
  inputs.head?.bind fun i => (L.content i).bind (scanOver I a (projectedColumns plan.sql a) (L.filters plan a))

def dependencyInputs (inputs : List StageCacheInput) (dep : String) : Option (List StageCacheInput) :=
  (inputs.find? fun i => i.dependencyStageId = some dep).bind fun i => i.freshnessKey.map L.keys

/-- the output of a stage, from its described inputs -/
def meaning (p : LogicalPlan × Option Query) (n : StageName) (inputs : List StageCacheInput) : Option Table :=
  match n with
  | .full => run I (fullWorld L p.1 inputs) p.1.sql
  | .scan a => scanMeaning I L p.1 a inputs
  | .final => do
    let sql ← p.2
    let tables ← p.1.tables.keys.mapM fun a =>
      ((dependencyInputs L inputs (scanStage a)).bind (scanMeaning I L p.1 a)).map fun T => (scanStage a, T)
    run I (localWorld tables) sql

/-- every cacheable manifest holds what its stage means on the described inputs -/
def Inv (store : Store) : Prop :=
  ∀ planId stageId m d, store (planId, stageId) = some m → m.cache = some d → d.cacheable = true →
    ∃ k, d.cacheKey = some k ∧ L.keys k = d.inputs ∧ ∀ n ∈ stageNames (L.plans planId),
      safeSegment n.id = stageId → meaning I L (L.plans planId) n d.inputs = some m.table

/-! ## The stages of a job -/

/-- the shape of an optimized plan -/
theorem Job.op_cases (j : Job) :
    (∃ ref, j.plan.tables.get? j.plan.fromAlias = some ref ∧
      j.op = ⟨j.plan, [fullQuerySubplan j.plan j.plan.sql ref], fullQueryLocalStage, true⟩) ∨
    ∃ bound, boundTables j.plan j.vd = some bound ∧
      j.op = ⟨j.plan, bound.map fun e => scanSubplan j.plan j.plan.sql j.dialects j.dialect e.1 e.2.1 e.2.2,
        rewriteTablesToStage j.plan.sql (stageTableMap j.plan), false⟩ := by
  obtain ⟨bound, hb, hop⟩ := bind_eq_some_iff.1 j.optimized
  split_ifs at hop with hpush
  · obtain ⟨ref, href, hop⟩ := bind_eq_some_iff.1 hop
    exact .inl ⟨ref, href, (Option.some.inj hop).symm⟩
  · exact .inr ⟨bound, hb, (Option.some.inj hop).symm⟩

inductive Named (j : Job) : StageName → StageDefinition → Prop where
  | full (ref : TableRef) (hpush : j.op.pushdownFullQuery = true)
      (href : j.plan.tables.get? j.plan.fromAlias = some ref)
      (hsub : j.op.sourceSubplans = [fullQuerySubplan j.plan j.plan.sql ref]) :
      Named j .full (remoteStage .remoteFullQuery (fullQuerySubplan j.plan j.plan.sql ref))
  | scan (a : String) (ref : TableRef) (b : VirtualTableBinding) (hpush : j.op.pushdownFullQuery = false)
      (href : j.plan.tables.get? a = some ref) (hb : j.vd.tables.get? ref.tableKey = some b) :
      Named j (.scan a) (remoteStage .remoteScan (scanSubplan j.plan j.plan.sql j.dialects j.dialect a ref b))
  | final (hpush : j.op.pushdownFullQuery = false)
      (hids : j.op.sourceSubplans.map SourceSubplan.stageId = j.plan.tables.keys.map scanStage)
      (hinputs : (localStage j.op).tableInputs = j.plan.tables.keys.map fun a => (scanStage a, scanStage a)) :
      Named j .final (localStage j.op)

variable {vd : VirtualDataset}

theorem mem_boundTables {plan : LogicalPlan}
    {bound : List (String × TableRef × VirtualTableBinding)} (hb : boundTables plan vd = some bound)
    (x : String × TableRef × VirtualTableBinding) (hx : x ∈ bound) :
    plan.tables.get? x.1 = some x.2.1 ∧ vd.tables.get? x.2.1.tableKey = some x.2.2 := by
  refine forall_of_mapM _ (fun x => plan.tables.get? x.1 = some x.2.1 ∧ vd.tables.get? x.2.1.tableKey = some x.2.2)
    _ bound (fun e he y hy => ?_) hb x hx
  obtain ⟨b, hbind, rfl⟩ := map_eq_some_iff.1 hy
  exact ⟨(get?_eq_some_iff _ _ _).2 he, hbind⟩

theorem keys_boundTables {plan : LogicalPlan}
    {bound : List (String × TableRef × VirtualTableBinding)} (hb : boundTables plan vd = some bound) :
    bound.map Prod.fst = plan.tables.keys := by
  refine Json.map_eq_of_mapM _ _ _ _ _ (fun e x hx => ?_) hb
  obtain ⟨_, _, rfl⟩ := map_eq_some_iff.1 hx
  rfl

theorem named_of_mem (j : Job) (stage : StageDefinition) (h : stage ∈ (j.physical D).stages) :
    ∃ n ∈ stageNames (planPayload j.op), n.id = stage.stageId ∧ Named j n stage := by
  rcases j.op_cases with ⟨ref, href, hop⟩ | ⟨bound, hb, hop⟩
  · simp only [Job.physical, buildPlan, hop, if_true, List.take, map_cons, map_nil,
      mem_singleton] at h
    rw [h]
    have hpush : j.op.pushdownFullQuery = true := by rw [hop]
    exact ⟨.full, by simp [stageNames, planPayload, hpush], rfl, .full ref hpush href (by rw [hop])⟩
  · have hpush : j.op.pushdownFullQuery = false := by rw [hop]
    have hplan : j.op.logicalPlan = j.plan := by rw [hop]
    have hnames : stageNames (planPayload j.op) = j.plan.tables.keys.map .scan ++ [.final] := by
      simp [stageNames, planPayload, hpush, hplan]
    rw [hnames]
    simp only [Job.physical, buildPlan, hpush, Bool.false_eq_true, if_false] at h
    rcases mem_append.1 h with h | h
    · rw [hop] at h
      obtain ⟨sp, hsp, rfl⟩ := mem_map.1 h
      obtain ⟨x, hx, rfl⟩ := mem_map.1 hsp
      obtain ⟨href, hbind⟩ := mem_boundTables hb x hx
      refine ⟨.scan x.1, ?_, rfl, .scan x.1 x.2.1 x.2.2 hpush href hbind⟩
      exact mem_append_left _ (mem_map.2 ⟨x.1, (mem_keys_iff _ _).2 ⟨_, href⟩, rfl⟩)
    · rw [mem_singleton.1 h]
      refine ⟨.final, mem_append_right _ (mem_singleton_self _), rfl, .final hpush ?_ ?_⟩
      · rw [hop, List.map_map, ← keys_boundTables hb, List.map_map]
        rfl
      · rw [← keys_boundTables hb, List.map_map]
        simp only [localStage, hop, List.map_map]
        rfl

/-! ## Executing is meaning -/

variable {D I L}

theorem describeRemote_cacheable {plan : PhysicalPlan} {stage : StageDefinition}
    (h : (describeRemote D vd plan stage).cacheable = true) :
    (describeRemote D vd plan stage).inputs = ((stageTableKeys plan stage).filterMap vd.tables.get?).map describeBinding ∧
      ∀ i ∈ (describeRemote D vd plan stage).inputs, i.supportsCache = true := by
  rw [describeRemote] at h ⊢
  split_ifs at h ⊢ with hnil
  · cases h
  · rw [fromInputs_inputs]
    exact ⟨rfl, (fromInputs_cacheable D _ h).1⟩

variable {store : Store} {e : StageRun}

theorem fresh_scan (ha : Agrees D L store e) (a : String) (ref : TableRef)
    (b : VirtualTableBinding) (hpush : e.job.op.pushdownFullQuery = false)
    (href : e.job.plan.tables.get? a = some ref) (hb : e.job.vd.tables.get? ref.tableKey = some b)
    (hstage : e.stage = remoteStage .remoteScan (scanSubplan e.job.plan e.job.plan.sql e.job.dialects e.job.dialect a ref b))
    (hc : (e.descriptor D store).cacheable = true) :
    e.fresh D I store = scanMeaning I L e.job.plan a (e.descriptor D store).inputs := by
  have hdesc : e.descriptor D store = describeRemote D e.job.vd (e.job.physical D) e.stage := by
    rw [StageRun.descriptor, hstage]
    rfl
  rw [hdesc] at hc ⊢
  obtain ⟨hinputs, hsupp⟩ := describeRemote_cacheable hc
  have hkeys : stageTableKeys (e.job.physical D) e.stage = [ref.tableKey] := by rw [hstage]; rfl
  have hone : (describeRemote D e.job.vd (e.job.physical D) e.stage).inputs = [describeBinding b] := by
    rw [hinputs, hkeys]
    simp [hb]
  obtain ⟨hne, hsrc⟩ := ha.planned a ref b href hb
  have hcontent : boundTable e.sources b = L.content (describeBinding b) :=
    ha.content b ((mem_values _ _).2 ⟨_, hb⟩) (hsupp _ (by rw [hone]; exact mem_singleton_self _))
  have hfresh : e.fresh D I store = run I (sourceWorld e.sources ref.sourceId)
      (buildScanSql a b (projectedColumns e.job.plan.sql a)
        (pushedFilters e.job.plan e.job.dialects e.job.dialect a ref)) := by
    rw [StageRun.fresh, hstage]
    rfl
  rw [hfresh, ← hsrc, run_scan_eq I e.sources b _ _ hne, ha.filters hpush a ref b href hb, hcontent, hone]
  rfl

/-- the described keys of a pushed query are the plan's, and they are all bound -/
theorem describe_full (ref : TableRef) (href : e.job.plan.tables.get? e.job.plan.fromAlias = some ref)
    (hstage : e.stage = remoteStage .remoteFullQuery (fullQuerySubplan e.job.plan e.job.plan.sql ref))
    (hc : (e.descriptor D store).cacheable = true) :
    (e.descriptor D store).inputs = ((fullKeys e.job.plan).filterMap e.job.vd.tables.get?).map describeBinding ∧
      ∀ i ∈ (e.descriptor D store).inputs, i.supportsCache = true := by
  have hdesc : e.descriptor D store = describeRemote D e.job.vd (e.job.physical D) e.stage := by
    rw [StageRun.descriptor, hstage]
    rfl
  have hplan : e.job.op.logicalPlan = e.job.plan := by
    rcases e.job.op_cases with ⟨_, _, hop⟩ | ⟨_, _, hop⟩
    · rw [hop]
    · rw [hop]
  have hkeys : stageTableKeys (e.job.physical D) e.stage = fullKeys e.job.plan := by
    rw [hstage, fullKeys, href]
    simp only [stageTableKeys, remoteStage, fullQuerySubplan, Job.physical, buildPlan, hplan]
    rfl
  rw [hdesc] at hc ⊢
  rw [← hkeys]
  exact describeRemote_cacheable hc

omit [PyText] in
theorem lookup_zip_map {α β γ : Type} [DecidableEq α] (l : List α) (f : α → Option β) (g : β → γ) (a : α) (b : β)
    (hall : ∀ x ∈ l, (f x).isSome = true) (ha : a ∈ l) (hb : f a = some b) :
    (l.zip ((l.filterMap f).map g)).lookup a = some (g b) := by
  induction l with
  | nil => cases ha
  | cons x l ih =>
    obtain ⟨y, hy⟩ := isSome_iff_exists.1 (hall x mem_cons_self)
    rw [filterMap_cons_some hy, map_cons, zip_cons_cons]
    by_cases hax : a = x
    · subst hax
      rw [hb] at hy
      rw [lookup_cons_self, Option.some.inj hy]
    · rw [lookup_cons_ne hax]
      refine ih (fun z hz => hall z (mem_cons_of_mem x hz)) ?_
      exact (mem_cons.1 ha).resolve_left hax

/-- every planned key is bound -/
theorem bound_of_key (j : Job) (k : String) (hk : k ∈ fullKeys j.plan) : (j.vd.tables.get? k).isSome = true := by
  obtain ⟨bound, hb, _⟩ := bind_eq_some_iff.1 j.optimized
  rw [fullKeys] at hk
  split at hk
  · cases hk
  · dsimp only at hk
    split_ifs at hk
    · cases hk
    · obtain ⟨ref, href, rfl⟩ := mem_map.1 (mem_dedup.1 ((perm_insertionSort _ _).mem_iff.1 hk))
      obtain ⟨entry, he, rfl⟩ := mem_map.1 (mem_filter.1 href).1
      obtain ⟨x, hx⟩ := Json.isSome_of_mapM _ _ _ hb entry he
      obtain ⟨b, hbind, _⟩ := map_eq_some_iff.1 hx
      rw [hbind, isSome_some]

theorem fresh_full (ha : Agrees D L store e) (hpush : e.job.op.pushdownFullQuery = true)
    (ref : TableRef) (href : e.job.plan.tables.get? e.job.plan.fromAlias = some ref)
    (hsub : e.job.op.sourceSubplans = [fullQuerySubplan e.job.plan e.job.plan.sql ref])
    (hstage : e.stage = remoteStage .remoteFullQuery (fullQuerySubplan e.job.plan e.job.plan.sql ref))
    (hc : (e.descriptor D store).cacheable = true) :
    e.fresh D I store =
      run I (fullWorld L e.job.plan (e.descriptor D store).inputs) e.job.plan.sql := by
  obtain ⟨hinputs, hsupp⟩ := describe_full ref href hstage hc
  obtain ⟨hraws, hcovered⟩ := ha.covered hpush
  have hfresh : e.fresh D I store = run I (sourceWorld e.sources ref.sourceId) e.job.plan.sql := by
    rw [StageRun.fresh, hstage]
    rfl
  have htable : ∀ t ∈ e.job.plan.sql.tables, (sourceWorld e.sources ref.sourceId).table t =
      (fullWorld L e.job.plan (e.descriptor D store).inputs).table t := by
    intro t ht
    have hcov := hcovered _ (by rw [hsub]; exact mem_singleton_self _) t ht
    simp only [fullWorld]
    cases hk : L.tableKey e.job.plan t with
    | none =>
      rw [hk] at hcov
      exact hcov
    | some k =>
      rw [hk] at hcov
      obtain ⟨hmem, b, hb, hT⟩ := hcov
      have hlook := lookup_zip_map (fullKeys e.job.plan) e.job.vd.tables.get? describeBinding k b
        (bound_of_key e.job) hmem hb
      have hin : describeBinding b ∈ (e.descriptor D store).inputs := by
        rw [hinputs]
        exact mem_map.2 ⟨b, mem_filterMap.2 ⟨k, hmem, hb⟩, rfl⟩
      rw [bind_some, hinputs, hlook, bind_some]
      exact hT.trans (ha.content b ((mem_values _ _).2 ⟨k, hb⟩) (hsupp _ hin))
  rw [hfresh, run, run, denote_congr I e.job.plan.sql htable fun sql hsql => ?_]
  rw [hraws] at hsql
  cases hsql

/-- a dependency of a cacheable local stage has a cacheable manifest, and the stage describes it by its key -/
theorem dependency_of_cacheable {caches : String → Option StageCacheDescriptor} {deps : List String}
    (h : (fromInputs D ((deps.insertionSort (· ≤ ·)).map (dependencyInput caches))).cacheable = true) (dep : String)
    (hdep : dep ∈ deps) : ∃ c, caches dep = some c ∧ c.cacheable = true ∧
      (((deps.insertionSort (· ≤ ·)).map (dependencyInput caches)).find? fun i => i.dependencyStageId = some dep) =
        some (dependencyInput caches dep) ∧ (dependencyInput caches dep).freshnessKey = c.cacheKey := by
  have hmem : dep ∈ deps.insertionSort (· ≤ ·) := (perm_insertionSort _ _).mem_iff.2 hdep
  have hid : ∀ x, (dependencyInput caches x).dependencyStageId = some x := by
    intro x
    rw [dependencyInput]
    cases caches x <;> rfl
  have hsupp := (fromInputs_cacheable D _ h).1 _ (mem_map.2 ⟨dep, hmem, rfl⟩)
  have hfind : (((deps.insertionSort (· ≤ ·)).map (dependencyInput caches)).find?
      fun i => i.dependencyStageId = some dep) = some (dependencyInput caches dep) := by
    refine find?_of_unique _ _ _ (mem_map.2 ⟨dep, hmem, rfl⟩) (by simp [hid]) fun i hi hp => ?_
    obtain ⟨x, _, rfl⟩ := mem_map.1 hi
    have hx : x = dep := by simpa [hid] using hp
    rw [hx]
  cases hc : caches dep with
  | none => simp [dependencyInput, hc, StageCacheInput.supportsCache] at hsupp
  | some c =>
    refine ⟨c, rfl, ?_, hfind, by simp [dependencyInput, hc]⟩
    by_contra hn
    simp [dependencyInput, hc, hn, StageCacheInput.supportsCache] at hsupp

theorem fresh_final (hinv : Inv I L store) (ha : Agrees D L store e) (hpush : e.job.op.pushdownFullQuery = false)
    (hids : e.job.op.sourceSubplans.map SourceSubplan.stageId = e.job.plan.tables.keys.map scanStage)
    (hrel : (localStage e.job.op).tableInputs = e.job.plan.tables.keys.map fun a => (scanStage a, scanStage a))
    (hstage : e.stage = localStage e.job.op) (hc : (e.descriptor D store).cacheable = true) :
    e.fresh D I store = meaning I L (planPayload e.job.op) .final (e.descriptor D store).inputs := by
  have hplan : e.job.op.logicalPlan = e.job.plan := by
    rcases e.job.op_cases with ⟨_, _, hop⟩ | ⟨_, _, hop⟩
    · rw [hop]
    · rw [hop]
  have hpay : planPayload e.job.op = (e.job.plan, some e.job.op.localStageSql) := by
    rw [planPayload, hpush, hplan]
    rfl
  have hdesc : e.descriptor D store = describeLocal D (localStage e.job.op)
      (dependencyCaches store (e.job.physical D)) := by
    rw [StageRun.descriptor, hstage]
    rfl
  rw [hdesc] at hc ⊢
  rw [describeLocal] at hc ⊢
  rw [fromInputs_inputs]
  have hread : ∀ a ∈ e.job.plan.tables.keys,
      ((store (manifestPath (e.job.physical D).planId (scanStage a))).map fun m => (scanStage a, m.table)) =
        ((dependencyInputs L (((localStage e.job.op).dependencies.insertionSort (· ≤ ·)).map
          (dependencyInput (dependencyCaches store (e.job.physical D)))) (scanStage a)).bind
            (scanMeaning I L e.job.plan a)).map fun T => (scanStage a, T) := by
    intro a hmem
    have hdep : scanStage a ∈ (localStage e.job.op).dependencies := by
      rw [localStage, hids]
      exact mem_map.2 ⟨a, hmem, rfl⟩
    obtain ⟨c, hcache, hcc, hfind, hkey⟩ := dependency_of_cacheable hc (scanStage a) hdep
    obtain ⟨m, hm, hmc⟩ := bind_eq_some_iff.1 hcache
    obtain ⟨k, hk, hkeys, hmeaning⟩ := hinv _ _ m c hm hmc hcc
    have hname : StageName.scan a ∈ stageNames (L.plans (safeSegment (e.job.physical D).planId)) := by
      rw [ha.plan, hpay]
      exact mem_append_left _ (mem_map.2 ⟨a, hmem, rfl⟩)
    have hT := hmeaning (.scan a) hname rfl
    rw [ha.plan, hpay] at hT
    rw [hm, dependencyInputs, hfind, bind_some, hkey, hk, map_some, map_some, bind_some,
      hkeys]
    exact (congrArg (Option.map fun T => (scanStage a, T)) hT).symm
  have hfresh : e.fresh D I store = (((localStage e.job.op).tableInputs.mapM fun x =>
      (store (manifestPath (e.job.physical D).planId x.2)).map fun m => (x.1, m.table)).bind fun tables =>
        run I (localWorld tables) e.job.op.localStageSql) := by
    rw [StageRun.fresh, hstage]
    rfl
  rw [hfresh, hrel, mapM_map, hpay]
  exact congrArg (fun o => Option.bind o _) (mapM_congr _ _ _ hread)

/-- **Meaning.** Executing a stage whose description is cacheable gives its meaning on the described inputs. -/
theorem produce_eq_meaning (hinv : Inv I L store) (ha : Agrees D L store e)
    (n : StageName) (hn : Named e.job n e.stage) (hc : (e.descriptor D store).cacheable = true) :
    e.fresh D I store = meaning I L (planPayload e.job.op) n (e.descriptor D store).inputs := by
  have hplan : (planPayload e.job.op).1 = e.job.plan := by
    rcases e.job.op_cases with ⟨_, _, hop⟩ | ⟨_, _, hop⟩
    · rw [hop]; rfl
    · rw [hop]; rfl
  generalize hs : e.stage = stage at hn
  cases hn with
  | full ref hpush href hsub =>
    rw [meaning, hplan]
    exact fresh_full ha hpush ref href hsub hs hc
  | scan a ref b hpush href hb =>
    rw [meaning, hplan]
    exact fresh_scan ha a ref b hpush href hb hs hc
  | final hpush hids hrel => exact fresh_final hinv ha hpush hids hrel hs hc

/-! ## Runs -/

theorem cacheKey_of_cacheable (hc : (e.descriptor D store).cacheable = true) :
    (e.descriptor D store).cacheKey = some (D.key (e.descriptor D store).inputs) := by
  have hfrom : ∀ inputs, (fromInputs D inputs).cacheable = true →
      (fromInputs D inputs).cacheKey = some (D.key (fromInputs D inputs).inputs) := by
    intro inputs h
    rw [fromInputs_inputs]
    exact (fromInputs_cacheable D inputs h).2
  have hremote : ∀ vd plan stage, (describeRemote D vd plan stage).cacheable = true →
      (describeRemote D vd plan stage).cacheKey = some (D.key (describeRemote D vd plan stage).inputs) := by
    intro vd plan stage h
    rw [describeRemote] at h ⊢
    split_ifs at h ⊢ with hnil
    · cases h
    · exact hfrom _ h
  rw [StageRun.descriptor, describeStage] at hc ⊢
  cases hs : e.stage.stageType with
  | remoteScan =>
    rw [hs] at hc
    exact hremote _ _ _ hc
  | remoteFullQuery =>
    rw [hs] at hc
    exact hremote _ _ _ hc
  | localCompute =>
    rw [hs] at hc
    exact hfrom _ hc

/-- executing a stage keeps the invariant -/
theorem execute_inv (hinv : Inv I L store) (ha : Agrees D L store e) : Inv I L (e.execute D I store) := by
  rw [StageRun.execute]
  cases hcached : e.cached D store with
  | some T => exact hinv
  | none =>
    cases hfresh : e.fresh D I store with
    | none => exact hinv
    | some T =>
      intro planId stageId m d hm hd hc
      by_cases hpath : (planId, stageId) = manifestPath (e.job.physical D).planId e.stage.stageId
      · simp only [writeManifest, hpath, Function.update_self, Option.some.injEq] at hm
        subst hm
        obtain rfl : e.descriptor D store = d := Option.some.inj hd
        cases hpath
        refine ⟨_, cacheKey_of_cacheable hc, ha.key hc, fun n hn hid => ?_⟩
        obtain ⟨n', hn', hid', hnamed⟩ := named_of_mem D e.job e.stage ha.stage
        rw [ha.plan] at hn ⊢
        -- no other stage of the plan has this manifest
        obtain rfl : n = n' := ha.paths n hn n' hn' (by rw [hid, hid'])
        rw [← produce_eq_meaning hinv ha n hnamed hc, hfresh]
      · simp only [writeManifest, Function.update_of_ne hpath] at hm
        exact hinv planId stageId m d hm hd hc

variable (D I L) in
/-- the stores that runs of executions reach, the sources and the bindings changing freely between them -/
inductive Reach : Store → Prop where
  | init : Reach fun _ => none
  | step {store : Store} (e : StageRun) : Reach store → Agrees D L store e → Reach (e.execute D I store)

theorem reach_inv (h : Reach D I L store) : Inv I L store := by
  induction h with
  | init => exact fun _ _ _ _ hm => absurd hm (by simp)
  | step e _ ha ih => exact execute_inv ih ha

/-- a cached artifact is that of a manifest whose key is the current one -/
theorem getCached_eq_some {planId stageId : String} {expected : StageCacheDescriptor} {T : Table}
    (h : getCached store planId stageId expected = some T) :
    ∃ m c, store (manifestPath planId stageId) = some m ∧ m.cache = some c ∧ c.cacheable = true ∧
      expected.cacheable = true ∧ c.cacheKey = expected.cacheKey ∧ m.table = T := by
  rw [getCached] at h
  cases hm : store (manifestPath planId stageId) with
  | none => simp [hm] at h
  | some m =>
    simp only [hm] at h
    split_ifs at h with he
    cases hc : m.cache with
    | none => simp [hc] at h
    | some c =>
      simp only [hc] at h
      split_ifs at h with hcc hk
      simp only [Bool.or_eq_true, not_or, Bool.not_eq_true', Bool.not_eq_false, Bool.not_eq_true] at he hcc
      exact ⟨m, c, rfl, hc, hcc.1, he.1, not_not.1 hk, Option.some.inj h⟩

end Runs

end Model

/-! ## A union of two tables -/

section UnionTable

open scoped Ascii

/-- a binding of the source `sales` that names its freshness key -/
def keyedBinding (key freshness : String) : VirtualTableBinding :=
  { plainBinding key "sales" with metadata := Dict.ofList [("cache_freshness_key", .str freshness)] }

def archiveDataset (revised : Bool) : VirtualDataset where
  id := "d"
  tables := Dict.ofList
    [("orders", keyedBinding "orders" "o1"), ("archive", keyedBinding "archive" (if revised then "a2" else "a1"))]
  nonempty := by cases revised <;> decide

def archived (revised : Bool) : Sources
  | "sales", .table "orders" "" "" => some ⟨["id"], [[("id", .int 1)]]⟩
  | "sales", .table "archive" "" "" => some ⟨["id"], [[("id", .int (if revised then 3 else 2))]]⟩
  | _, _ => none

/-- `SELECT o.id FROM orders o UNION ALL SELECT o.id FROM archive o` -/
def ordersAndArchive : Query :=
  unionAll (orderIds none) { orderIds none with source := some (.table ⟨"archive", "", "", "o"⟩) }

def joinedKeys : Digest where
  key inputs := String.ofList ('k' :: inputs.flatMap fun i => ':' :: (i.freshnessKey.getD "").toList)
  plan _ _ := "p"
  key_nonblank l := by
    have h := mem_trim Ascii.isSpace (mem_cons_self (a := 'k')
      (l := l.flatMap fun i => ':' :: (i.freshnessKey.getD "").toList)) (by decide)
    simp only [isBlank, PyText.strip, Ascii.strip, getD_some, String.toList_ofList, decide_eq_false_iff_not]
    intro hnil
    rw [String.ofList_eq_empty_iff.1 hnil] at h
    cases h

def keyedPlan (q : Query) : LogicalPlan :=
  ⟨q, "o", Dict.empty.set "o" (tableRef "o" (keyedBinding "orders" "o1")), [], none, [], false⟩

def keyedSubplan (q : Query) : SourceSubplan :=
  fullQuerySubplan (keyedPlan q) q (tableRef "o" (keyedBinding "orders" "o1"))

/-- a query that is pushed whole, before or after the archive's revision -/
def keyedJob (q : Query) (revised : Bool) (planned : logicalPlan q (archiveDataset revised) = .ok (keyedPlan q))
    (optimized : optimize (keyedPlan q) q (archiveDataset revised) Dict.empty "tsql" =
      some ⟨keyedPlan q, [keyedSubplan q], fullQueryLocalStage, true⟩) : Job :=
  ⟨archiveDataset revised, keyedPlan q, Dict.empty, "tsql", _, planned, optimized⟩

/-- the union, executed before or after the archive's revision -/
def unionRun (revised : Bool) : StageRun where
  sources := archived revised
  job := keyedJob ordersAndArchive revised (by cases revised <;> rfl) (by cases revised <;> rfl)
  stage := remoteStage .remoteFullQuery (keyedSubplan ordersAndArchive)

/-- `SELECT o.id FROM orders o`, executed before or after the archive's revision -/
def ordersRun (revised : Bool) : StageRun where
  sources := archived revised
  job := keyedJob (single (orderIds none)) revised (by cases revised <;> rfl) (by cases revised <;> rfl)
  stage := remoteStage .remoteFullQuery (keyedSubplan (single (orderIds none)))

def ordersLedger : Ledger where
  plans _ := (keyedPlan (single (orderIds none)), none)
  keys _ := [describeBinding (keyedBinding "orders" "o1")]
  content i :=
    if i.freshnessKey = some "o1" then archived false "sales" (.table "orders" "" "")
    else archived (i.freshnessKey = some "a2") "sales" (.table "archive" "" "")
  filters _ _ := []
  tableKey _ _ := some "orders"

theorem ordersRun_agrees (revised : Bool) (store : Store) :
    Agrees joinedKeys ordersLedger store (ordersRun revised) := by
  refine ⟨?_, ?_, ?_, ?_, ?_, ?_, ?_, ?_⟩
  · cases revised <;> exact mem_singleton_self _
  · cases revised <;> rfl
  · cases revised <;> exact fun _ => rfl
  · cases revised <;> decide
  · intro a ref b ha hb
    obtain ⟨rfl, rfl⟩ := Prod.mk.inj (mem_singleton.1 ((get?_eq_some_iff _ _ _).1 ha))
    refine ⟨by decide, ?_⟩
    cases revised <;> exact congrArg VirtualTableBinding.sourceId (Option.some.inj hb).symm
  · cases revised <;> decide
  · intro h
    cases h
  · intro _
    refine ⟨rfl, fun sp hsp t ht => ?_⟩
    obtain rfl := mem_singleton.1 hsp
    obtain rfl := mem_singleton.1 ht
    have hkey : "orders" ∈ fullKeys (keyedPlan (single (orderIds none))) := by decide
    refine ⟨hkey, keyedBinding "orders" "o1", ?_, ?_⟩
    · cases revised <;> rfl
    · cases revised <;> rfl

end UnionTable

end Langbridge.Federation
