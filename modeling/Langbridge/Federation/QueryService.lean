/-
The federated query service and the tool over it (`federation/service.py`, `runtime/execution/federated_query_tool.py`):
every call writes the workflow, the sources and the semantic model of its payload into slots of its workspace, and plans
with what the slots hold. All calls share the slots. A call lets others run while it builds its sources and while the
scheduler executes its plan, and nowhere between; the slot of the semantic model keeps its entry if a payload has none.
-/
import Langbridge.Core.Machine
import Langbridge.Federation.Workflow

namespace Langbridge.Federation.QueryService

open Core Federation.Workflow List Option

/-! ## Calls -/

inductive Query where
  | sql (text : String)
  | structured (payload : Json)

/-- `FederatedQueryToolRequest` -/
structure Request [PyText] where
  workspaceId : String
  query : Query
  dialect : String
  workflow : FederationWorkflow
  semanticModel : Option Json

inductive Kind where
  | execute
  | explain
deriving DecidableEq

variable (Sources Model Smq : Type)

/-- `load_semantic_model` and `SMQQuery.model_validate` -/
structure Readers where
  loadSemanticModel : Json → Except String Model
  validateSmq : Json → Except String Smq

/-- what the planner is given, and the stages are executed with -/
structure Planned [PyText] where
  query : String ⊕ Smq
  dialect : String
  workflow : FederationWorkflow
  sources : Sources
  semanticModel : Option Model

/-- where a call stands: it awaits its sources or the scheduler, or it has ended -/
inductive Phase [PyText] where
  | building
  | executing (plan : Planned Sources Model Smq)
  | done (plan : Planned Sources Model Smq)
  | failed (message : String)

/-- a call; `sources` is what its own `_build_sources` has returned -/
structure Call [PyText] where
  kind : Kind
  request : Request
  sources : Option Sources
  phase : Phase Sources Model Smq

/-- `FederatedQueryService` with the calls on it -/
structure Service [PyText] where
  workflows : Dict String FederationWorkflow
  sources : Dict String Sources
  semanticModels : Dict String Model
  calls : List (Call Sources Model Smq)

/-- what happens next: a call arrives, its sources are there or could not be built, the scheduler has run its plan or
failed. `planFails` is what the planner raises, if it does. -/
inductive Event [PyText] where
  | call (kind : Kind) (request : Request)
  | built (call : ℕ) (sources : Sources) (planFails : Option String)
  | buildFails (call : ℕ) (message : String)
  | executed (call : ℕ)
  | executionFails (call : ℕ) (message : String)

/-! ## The steps -/

section Steps

variable {Sources Model Smq}
variable [PyText] (L : Readers Model Smq)

namespace Service

def registerWorkspace (s : Service Sources Model Smq) (request : Request) (sources : Sources) (model : Option Model) :
    Except String (Service Sources Model Smq) :=
  if request.workflow.workspaceId ≠ request.workspaceId then
    .error "Workflow workspace_id must match registration workspace_id."
  else
    .ok { s with
      workflows := s.workflows.set request.workspaceId request.workflow
      sources := s.sources.set request.workspaceId sources
      semanticModels := match model with
        | none => s.semanticModels
        | some m => s.semanticModels.set request.workspaceId m }

/-- the part of `execute` and of `explain` up to the plan -/
def plan (s : Service Sources Model Smq) (kind : Kind) (request : Request) (planFails : Option String) :
    Except String (Planned Sources Model Smq) := do
  let workflow ← (match s.workflows.get? request.workspaceId with
    | some w => .ok w
    | none => .error ("No federation workflow registered for workspace '" ++ request.workspaceId ++ "'."))
  let sources ← (match s.sources.get? request.workspaceId with
    | some x => .ok x
    | none => .error ("No remote sources registered for workspace '" ++ request.workspaceId ++ "'."))
  let given ← (match request.query with
    | .sql text => .ok (⟨.inl text, request.dialect, workflow, sources, none⟩ : Planned Sources Model Smq)
    | .structured payload => do
      let smq ← L.validateSmq payload
      match s.semanticModels.get? request.workspaceId with
      | some model => .ok ⟨.inr smq, request.dialect, workflow, sources, some model⟩
      | none =>
        .error (match kind with
          | .execute => "SMQ execution requires a semantic model registered for the workspace."
          | .explain => "SMQ explain requires a semantic model registered for the workspace."))
  match planFails with
  | none => .ok given
  | some m => .error m

/-- a call goes on with its sources: it loads its model, registers and plans; nothing else runs between -/
def resume (s : Service Sources Model Smq) (c : Call Sources Model Smq) (sources : Sources)
    (planFails : Option String) : Service Sources Model Smq × Phase Sources Model Smq :=
  match c.request.semanticModel.mapM L.loadSemanticModel with
  | .error m => (s, .failed m)
  | .ok model =>
    match s.registerWorkspace c.request sources model with
    | .error m => (s, .failed m)
    | .ok s' =>
      match s'.plan L c.kind c.request planFails with
      | .error m => (s', .failed m)
      | .ok p => (s', if c.kind = .execute then .executing p else .done p)

/-- a call is replaced -/
def put (s : Service Sources Model Smq) (i : ℕ) (c : Call Sources Model Smq) : Service Sources Model Smq :=
  { s with calls := s.calls.set i c }

end Service

def step (s : Service Sources Model Smq) : Event Sources → Option (Service Sources Model Smq)
  | .call kind request => some { s with calls := s.calls ++ [⟨kind, request, none, .building⟩] }
  | .built i sources planFails => do
    let c ← s.calls[i]?
    match c.phase with
    | .building =>
      let (s', phase) := s.resume L c sources planFails
      some (s'.put i { c with sources := some sources, phase })
    | _ => none
  | .buildFails i message => do
    let c ← s.calls[i]?
    match c.phase with
    | .building => some (s.put i { c with phase := .failed message })
    | _ => none
  | .executed i => do
    let c ← s.calls[i]?
    match c.phase with
    | .executing p => some (s.put i { c with phase := .done p })
    | _ => none
  | .executionFails i message => do
    let c ← s.calls[i]?
    match c.phase with
    | .executing _ => some (s.put i { c with phase := .failed message })
    | _ => none

def machine : Machine (Service Sources Model Smq) (Event Sources) Unit := ⟨fun s e => (step L s e, [])⟩

def Service.init : Service Sources Model Smq := ⟨Dict.empty, Dict.empty, Dict.empty, []⟩

/-! ## What a call is planned with -/

/-- the call has been planned so -/
def Call.Ran (c : Call Sources Model Smq) (p : Planned Sources Model Smq) : Prop :=
  c.phase = .executing p ∨ c.phase = .done p

/-- the plan has the call's own query, dialect and workflow, and the sources that the call has built -/
structure OwnPlan (c : Call Sources Model Smq) (p : Planned Sources Model Smq) : Prop where
  dialect : p.dialect = c.request.dialect
  workflow : p.workflow = c.request.workflow
  sources : c.sources = some p.sources
  text : ∀ text, c.request.query = .sql text → p.query = .inl text ∧ p.semanticModel = none
  smq : ∀ payload, c.request.query = .structured payload → ∃ q, L.validateSmq payload = .ok q ∧ p.query = .inr q

/-- a structured query is planned with the semantic model of its own request; without one it is not planned -/
def OwnModel (c : Call Sources Model Smq) (p : Planned Sources Model Smq) : Prop :=
  ∀ payload, c.request.query = .structured payload →
    ∃ given model, c.request.semanticModel = some given ∧ L.loadSemanticModel given = .ok model ∧
      p.semanticModel = some model

/-- the request is a text, or it carries a semantic model, or no call has registered one in its workspace -/
def Guarded (s : Service Sources Model Smq) (request : Request) : Prop :=
  (∃ text, request.query = .sql text) ∨ request.semanticModel ≠ none ∨
    s.semanticModels.get? request.workspaceId = none

variable {L}

theorem registerWorkspace_ok {s s' : Service Sources Model Smq} {request : Request} {sources : Sources}
    {model : Option Model} (h : s.registerWorkspace request sources model = .ok s') :
    s'.workflows.get? request.workspaceId = some request.workflow ∧
      s'.sources.get? request.workspaceId = some sources ∧
      s'.semanticModels.get? request.workspaceId = model.or (s.semanticModels.get? request.workspaceId) := by
  unfold Service.registerWorkspace at h
  split_ifs at h
  cases h
  refine ⟨Dict.get?_set_self _ _ _, Dict.get?_set_self _ _ _, ?_⟩
  cases model with
  | none => rfl
  | some m => exact Dict.get?_set_self _ _ _

/-- a plan is made of what the slots hold -/
theorem plan_ok {s : Service Sources Model Smq} {kind : Kind} {request : Request} {planFails : Option String}
    {p : Planned Sources Model Smq} (h : s.plan L kind request planFails = .ok p) :
    s.workflows.get? request.workspaceId = some p.workflow ∧ s.sources.get? request.workspaceId = some p.sources ∧
      p.dialect = request.dialect ∧
      ((∃ text, request.query = .sql text ∧ p.query = .inl text ∧ p.semanticModel = none) ∨
        ∃ payload q m, request.query = .structured payload ∧ L.validateSmq payload = .ok q ∧ p.query = .inr q ∧
          p.semanticModel = some m ∧ s.semanticModels.get? request.workspaceId = some m) := by
  obtain ⟨workflow, hworkflow, h⟩ := of_bind_ok h
  obtain ⟨sources, hsources, h⟩ := of_bind_ok h
  obtain ⟨given, hgiven, h⟩ := of_bind_ok h
  have hw : s.workflows.get? request.workspaceId = some workflow := by
    split at hworkflow
    · rename_i w heq
      rw [heq, Except.ok.inj hworkflow]
    · cases hworkflow
  have hs : s.sources.get? request.workspaceId = some sources := by
    split at hsources
    · rename_i x heq
      rw [heq, Except.ok.inj hsources]
    · cases hsources
  have hp : given = p := by
    cases planFails with
    | none => exact Except.ok.inj h
    | some m => cases h
  subst hp
  rw [hw, hs]
  cases hquery : request.query with
  | sql text =>
    rw [hquery] at hgiven
    cases hgiven
    exact ⟨rfl, rfl, rfl, .inl ⟨text, rfl, rfl, rfl⟩⟩
  | structured payload =>
    rw [hquery] at hgiven
    obtain ⟨q, hq, hgiven⟩ := of_bind_ok hgiven
    split at hgiven
    · rename_i m heq
      cases hgiven
      exact ⟨rfl, rfl, rfl, .inr ⟨payload, q, m, rfl, hq, rfl, rfl, heq⟩⟩
    · cases hgiven

/-- **One call.** Between two awaits a call is planned with its own workflow and sources, and with its own semantic
model exactly if it has one or needs none, or the slot is empty. -/
theorem resume_own {s s' : Service Sources Model Smq} {c : Call Sources Model Smq} {sources : Sources}
    {planFails : Option String} {phase : Phase Sources Model Smq} {p : Planned Sources Model Smq}
    (h : s.resume L c sources planFails = (s', phase)) (hp : phase = .executing p ∨ phase = .done p) :
    OwnPlan L { c with sources := some sources, phase } p ∧
      (OwnModel L { c with sources := some sources, phase } p ↔ Guarded s c.request) := by
  unfold Service.resume at h
  split at h
  · obtain ⟨_, rfl⟩ := Prod.mk.inj h
    rcases hp with hp | hp <;> cases hp
  · rename_i model hmodel
    split at h
    · obtain ⟨_, rfl⟩ := Prod.mk.inj h
      rcases hp with hp | hp <;> cases hp
    · rename_i s₁ hs₁
      obtain ⟨hw, hs, hm⟩ := registerWorkspace_ok hs₁
      split at h
      · obtain ⟨_, rfl⟩ := Prod.mk.inj h
        rcases hp with hp | hp <;> cases hp
      · rename_i p' hplan
        have hsame : p' = p := by
          obtain ⟨_, rfl⟩ := Prod.mk.inj h
          split_ifs at hp
          · rcases hp with hp | hp
            · exact Phase.executing.inj hp
            · cases hp
          · rcases hp with hp | hp
            · cases hp
            · exact Phase.done.inj hp
        subst hsame
        obtain ⟨hworkflow, hsources, hdialect, hquery⟩ := plan_ok hplan
        rw [hw] at hworkflow
        rw [hs] at hsources
        have hown : OwnPlan L { c with sources := some sources, phase } p' := by
          refine ⟨hdialect, (Option.some.inj hworkflow).symm, hsources, fun text htext => ?_, ?_⟩
          · rcases hquery with ⟨text', htext', hrest⟩ | ⟨payload, q, m, hpayload, _⟩
            · rw [htext'] at htext
              obtain rfl := Query.sql.inj htext
              exact hrest
            · rw [hpayload] at htext
              cases htext
          · intro payload hpayload
            rcases hquery with ⟨text, htext, _⟩ | ⟨payload', q, m, hpayload', hq, hqp, _⟩
            · rw [htext] at hpayload
              cases hpayload
            · rw [hpayload'] at hpayload
              obtain rfl := Query.structured.inj hpayload
              exact ⟨q, hq, hqp⟩
        refine ⟨hown, ?_⟩
        rcases hquery with ⟨text, htext, _, hnone⟩ | ⟨payload, q, m, hpayload, _, _, hpm, hslot⟩
        · refine ⟨fun _ => .inl ⟨text, htext⟩, fun _ payload hpayload => ?_⟩
          rw [htext] at hpayload
          cases hpayload
        · rw [hm] at hslot
          cases hgiven : c.request.semanticModel with
          | none =>
            rw [hgiven] at hmodel
            cases hmodel
            constructor
            · intro hmodel
              obtain ⟨given, _, hsome, _⟩ := hmodel payload hpayload
              rw [hgiven] at hsome
              cases hsome
            · rintro (⟨text, htext⟩ | hsome | hempty)
              · rw [htext] at hpayload
                cases hpayload
              · exact absurd hgiven hsome
              · rw [hempty] at hslot
                cases hslot
          | some given =>
            rw [hgiven, mapM_some] at hmodel
            obtain ⟨m', hload, hmodel⟩ := of_bind_ok hmodel
            cases hmodel
            obtain rfl := Option.some.inj hslot
            refine ⟨fun _ => .inr (.inl (by rw [hgiven]; exact some_ne_none _)), fun _ _ _ => ?_⟩
            exact ⟨given, m', hgiven, hload, hpm⟩

/-! ## Runs -/

def Safe (s : Service Sources Model Smq) : Event Sources → Prop
  | .built i _ _ => ∀ c, s.calls[i]? = some c → Guarded s c.request
  | _ => True

/-- every call that has been planned has a plan of its own; with a guard, down to its semantic model -/
def Inv (L : Readers Model Smq) (guard : Prop) (s : Service Sources Model Smq) : Prop :=
  ∀ c ∈ s.calls, ∀ p, c.Ran p → OwnPlan L c p ∧ (guard → OwnModel L c p)

variable {guard : Prop} {s s' : Service Sources Model Smq}

/-- the calls but one stay as they are -/
theorem Inv.put (h : Inv L guard s) {t : Service Sources Model Smq} (ht : t.calls = s.calls) (i : ℕ)
    (c : Call Sources Model Smq) (hc : ∀ p, c.Ran p → OwnPlan L c p ∧ (guard → OwnModel L c p)) :
    Inv L guard (t.put i c) := by
  intro c' hc'
  have hmem : c' ∈ s.calls.set i c := by rwa [← ht]
  rcases mem_or_eq_of_mem_set hmem with hold | rfl
  · exact h c' hold
  · exact hc

theorem resume_calls (s : Service Sources Model Smq) (c : Call Sources Model Smq) (sources : Sources)
    (planFails : Option String) : (s.resume L c sources planFails).1.calls = s.calls := by
  unfold Service.resume
  split
  · rfl
  · split
    · rfl
    · rename_i s₁ hs₁
      have hcalls : s₁.calls = s.calls := by
        unfold Service.registerWorkspace at hs₁
        split_ifs at hs₁
        cases hs₁
        rfl
      split
      · exact hcalls
      · exact hcalls

/-- the steps keep it -/
theorem step_inv {e : Event Sources} (h : Inv L guard s) (hsafe : guard → Safe s e) (hstep : step L s e = some s') :
    Inv L guard s' := by
  cases e with
  | call kind request =>
    cases hstep
    intro c hc p hp
    rcases mem_append.1 hc with hc | hc
    · exact h c hc p hp
    · rw [mem_singleton.1 hc] at hp
      rcases hp with hp | hp <;> cases hp
  | built i sources planFails =>
    obtain ⟨c, hc, hstep⟩ := bind_eq_some_iff.1 hstep
    split at hstep
    · cases hstep
      refine h.put (resume_calls s c sources planFails) i _ fun p hp => ?_
      obtain ⟨hown, hiff⟩ := resume_own (Prod.mk.eta (p := s.resume L c sources planFails)).symm hp
      exact ⟨hown, fun hg => hiff.2 (hsafe hg c hc)⟩
    · cases hstep
  | buildFails i message =>
    obtain ⟨c, hc, hstep⟩ := bind_eq_some_iff.1 hstep
    split at hstep
    · cases hstep
      refine h.put rfl i _ fun p hp => ?_
      rcases hp with hp | hp <;> cases hp
    · cases hstep
  | executed i =>
    obtain ⟨c, hc, hstep⟩ := bind_eq_some_iff.1 hstep
    split at hstep
    · rename_i p₀ hphase
      cases hstep
      refine h.put rfl i _ fun p hp => ?_
      have hsame : p₀ = p := by
        rcases hp with hp | hp
        · cases hp
        · exact Phase.done.inj hp
      obtain ⟨hown, hmodel⟩ := h c (mem_of_getElem? hc) p (.inl (hsame ▸ hphase))
      exact ⟨⟨hown.dialect, hown.workflow, hown.sources, hown.text, hown.smq⟩, hmodel⟩
    · cases hstep
  | executionFails i message =>
    obtain ⟨c, hc, hstep⟩ := bind_eq_some_iff.1 hstep
    split at hstep
    · cases hstep
      refine h.put rfl i _ fun p hp => ?_
      rcases hp with hp | hp <;> cases hp
    · cases hstep

end Steps

/-! ## Two structured calls -/

section TwoCalls

open scoped Ascii

def textReaders : Readers String String where
  loadSemanticModel
    | .str s => .ok s
    | _ => .error "Semantic model must be a mapping."
  validateSmq
    | .str s => .ok s
    | _ => .error "Input should be a valid dictionary."

def structuredRequest (semanticModel : Option Json) : Request :=
  ⟨"workspace_1", .structured (.str "total by region"), "tsql", salesWorkflow, semanticModel⟩

/-- a call with a semantic model is executed, and one without is explained after it -/
def modelThenNone : List (Event String) :=
  [.call .execute (structuredRequest (some (.str "sales"))), .built 0 "first" none,
    .call .explain (structuredRequest none), .built 1 "second" none]

/-- a call without a semantic model first, and one with a model while the first has not gone on -/
def noneThenModel : List (Event String) :=
  [.call .explain (structuredRequest none), .call .execute (structuredRequest (some (.str "sales"))),
    .built 0 "first" none, .built 1 "second" none, .executed 1]

end TwoCalls

end Langbridge.Federation.QueryService
