/-
The supervisor (`supervisor/orchestrator.py`): a question is classified, entities are resolved and a clarification is
decided; then plans are made and executed, one after another, as long as the reasoning agent asks for another one. What
it asks for is merged into the context of the next plan.

Routing requests of the preflight stand under the key `routing` for the whole turn, those of the reasoning agent under
`reasoning`, where a later dictionary overrides an earlier one key by key and takes nothing back.

What happens outside is an input: the classification, the answers of the language models, how far a plan is executed.
-/
import Langbridge.Orchestrator.PlanAnswers
import Langbridge.Orchestrator.Clarification

namespace Langbridge.Orchestrator

open Core List Dict Option

namespace Supervisor

open Router (get get_set_ne get_set_self dictAt)

/-! ## Contexts -/

section Merge

variable (same : Json → Json → Bool)

/-- one entry of the updates of a context; `same` is `==` -/
def mergeEntry (merged : Dict String Json) (key : String) (value : Json) : Dict String Json :=
  match key, value with
  | "reasoning", .obj fields =>
    merged.set key (.obj (((dictAt merged key).getD Dict.empty).update (Dict.ofList fields)).entries)
  | "documents", .arr docs =>
    match merged.get? key with
    | some (.arr existing) =>
      merged.set key (.arr (existing ++ docs.filter fun doc => !existing.any (same doc)))
    | some (.obj existing) => merged.set key (.arr (.obj existing :: docs))
    | _ => merged.set key (.arr docs)
  | _, _ => merged.set key value

def mergeContext (base updates : Dict String Json) : Dict String Json :=
  updates.entries.foldl (fun merged e => mergeEntry same merged e.1 e.2) base

end Merge

/-- what the reasoning agent hands to the next plan; it always tells the route of the plan before -/
structure Decision where
  reasoning : Dict String Json
  documents : Option (List Json)
  previousRoute : reasoning.has "previous_route" = true

def Decision.updatedContext (d : Decision) : Dict String Json :=
  Dict.ofList ((d.documents.elim [] fun docs => [("documents", .arr docs)]) ++
    [("reasoning", .obj d.reasoning.entries)])

/-- the question of a turn with the filters, the limit and the title that come with it -/
structure Query where
  question : String
  filters : Option Json
  limit : Option ℤ
  title : Option String
  constraints : PlanningConstraints

def Query.context (q : Query) : Dict String Json :=
  Dict.ofList ((q.filters.elim [] fun f => [("filters", f)]) ++ (q.limit.elim [] fun n => [("limit", .int n)]) ++
    ((q.title.filter (· ≠ "")).elim [] fun t => [("title", .str t)]))

/-- `_build_planner_request` -/
def plannerRequest (q : Query) (extraContext : Dict String Json) : PlannerRequest :=
  let context := q.context.update extraContext
  ⟨q.question, if context.entries = [] then none else some context, q.constraints⟩

/-! ## Preflight -/

/-- the routes that the preflight asks for and asks to avoid -/
def routingContext (c : ClassifiedQuestion) (d : ClarificationDecision) : Dict String Json :=
  Dict.ofList (
    (match c.routeHint with
      | some hint =>
        if hint ∈ RouteName.all.map RouteName.value ∧ hint ≠ RouteName.clarify.value ∧ 55 / 100 ≤ c.confidence then
          [("force_route", .str hint)]
        else []
      | none => []) ++
    (if d.assumptions = [] then [] else [("avoid_routes", .arr [.str RouteName.clarify.value])]))

/-- `context_updates` of the preflight; the dump of the entities and the conversation context are given -/
def contextUpdates (c : ClassifiedQuestion) (d : ClarificationDecision) (entities : Json)
    (conversation : Option String) : Dict String Json :=
  Dict.ofList (
    [("classification", c.dump), ("resolved_entities", entities), ("clarification_state", d.updatedState.dump)] ++
    (if d.assumptions = [] then [] else [("assumptions", .arr (d.assumptions.map .str))]) ++
    (if (routingContext c d).entries = [] then [] else [("routing", .obj (routingContext c d).entries)]) ++
    (conversation.elim [] fun text => [("conversation_context", .str text)]))

/-! ## Turns -/

/-- what happens outside in one pass: the answer of the planner's model, how many steps are executed, and what the
reasoning agent decides -/
structure Iteration where
  response : Option Json
  executed : ℕ
  decision : Option Decision

/-- one pass: the context of the plan, the plan, the question that a Clarify step asks, and the decision to go on -/
structure Pass where
  context : Dict String Json
  plan : Plan
  question : Option Json
  decision : Option Decision

def askedQuestion (plan : Plan) (executed : ℕ) : Option Json :=
  (((plan.steps.take executed).find? fun step => step.agent = .clarify).map fun step =>
    get step.input "clarifying_question").filter Json.truthy

/-- a turn: the question, the context and the clarification state of the caller, and what happens outside -/
structure Turn where
  query : Query
  planningContext : Dict String Json
  classification : ClassifiedQuestion
  entities : Json
  conversation : Option String
  prior : ClarificationState
  /-- the access policy denies every analytical asset and the question is analytical -/
  blocked : Bool
  iterations : List Iteration

section Handle

variable [PyDigits] (same : Json → Json → Bool) (rewriteForAgent : AgentName → String → String)
  (questionHash : String → String) (defaultMaxTurns : ℕ)

/-- the passes of a turn: a question or the decision to stop ends them, an exception does too -/
def loop (q : Query) : Dict String Json → List Iteration → List Pass
  | _, [] => []
  | context, it :: rest =>
    match Planner.plan rewriteForAgent (plannerRequest q context) it.response with
    | .error _ => []
    | .ok plan =>
      match askedQuestion plan it.executed, it.decision with
      | some question, _ => [⟨context, plan, some question, none⟩]
      | none, none => [⟨context, plan, none, none⟩]
      | none, some d =>
        ⟨context, plan, none, some d⟩ :: loop q (mergeContext same context d.updatedContext) rest

/-- the decision of the preflight -/
def Turn.clarification (t : Turn) : ClarificationDecision :=
  Clarification.decide questionHash defaultMaxTurns t.classification (some t.prior)

def Turn.start (t : Turn) : Dict String Json :=
  mergeContext same t.planningContext
    (contextUpdates t.classification (t.clarification questionHash defaultMaxTurns) t.entities t.conversation)

/-- the passes of `handle` -/
def Turn.passes (t : Turn) : List Pass :=
  if t.blocked || (t.clarification questionHash defaultMaxTurns).requiresClarification then []
  else loop same rewriteForAgent t.query (t.start same questionHash defaultMaxTurns) t.iterations

/-- the question that `handle` returns: the one of the preflight or of the last plan -/
def Turn.asked (t : Turn) : Option Json :=
  if t.blocked then none
  else
    ((t.clarification questionHash defaultMaxTurns).clarifyingQuestion.map Json.str).or
      ((t.passes same rewriteForAgent questionHash defaultMaxTurns).getLast?.bind Pass.question)

end Handle

/-! ## What is merged -/

section Merged

variable (same : Json → Json → Bool)

def contextAfter (start : Dict String Json) (decisions : List Decision) : Dict String Json :=
  decisions.foldl (fun context d => mergeContext same context d.updatedContext) start

/-- what some decisions say, a later one over an earlier one, on top of what stands there first -/
def said (first : Dict String Json) (decisions : List Decision) : Dict String Json :=
  decisions.foldl (fun reasoning d => reasoning.update d.reasoning) first

theorem mergeEntry_documents (context : Dict String Json) (docs : List Json) {key : String} (h : key ≠ "documents") :
    (mergeEntry same context "documents" (.arr docs)).get? key = context.get? key := by
  have hmerge : ∃ v, mergeEntry same context "documents" (.arr docs) = context.set "documents" v := by
    unfold mergeEntry
    simp only
    split
    · exact ⟨_, rfl⟩
    · exact ⟨_, rfl⟩
    · exact ⟨_, rfl⟩
  obtain ⟨v, hv⟩ := hmerge
  rw [hv, get?_set_of_ne _ _ h]

theorem mergeEntry_reasoning (context reasoning : Dict String Json) :
    mergeEntry same context "reasoning" (.obj reasoning.entries) =
      context.set "reasoning" (.obj (((dictAt context "reasoning").getD Dict.empty).update reasoning).entries) := by
  unfold mergeEntry
  simp only
  rw [ofList_entries]

/-- a decision changes what stands under `reasoning` and the documents -/
theorem mergeContext_decision (context : Dict String Json) (d : Decision) :
    dictAt (mergeContext same context d.updatedContext) "reasoning" =
        some (((dictAt context "reasoning").getD Dict.empty).update d.reasoning) ∧
      ∀ key, key ≠ "reasoning" → key ≠ "documents" →
        (mergeContext same context d.updatedContext).get? key = context.get? key := by
  have hobj : ∀ (e : Dict String Json) (reasoning : Dict String Json),
      dictAt (e.set "reasoning" (.obj reasoning.entries)) "reasoning" = some reasoning := by
    intro e reasoning
    unfold Router.dictAt
    rw [get?_set_self]
    exact congrArg some (ofList_entries reasoning)
  cases hdocs : d.documents with
  | none =>
    have hmerge : mergeContext same context d.updatedContext =
        mergeEntry same context "reasoning" (.obj d.reasoning.entries) := by
      unfold mergeContext Decision.updatedContext
      rw [hdocs]
      rfl
    rw [hmerge, mergeEntry_reasoning]
    exact ⟨hobj _ _, fun key hkey _ => get?_set_of_ne _ _ hkey⟩
  | some docs =>
    have hmerge : mergeContext same context d.updatedContext =
        mergeEntry same (mergeEntry same context "documents" (.arr docs)) "reasoning" (.obj d.reasoning.entries) := by
      unfold mergeContext Decision.updatedContext
      rw [hdocs]
      rfl
    have hreasoning : dictAt (mergeEntry same context "documents" (.arr docs)) "reasoning" =
        dictAt context "reasoning" := by
      unfold Router.dictAt
      rw [mergeEntry_documents same context docs (by decide)]
    rw [hmerge, mergeEntry_reasoning, hreasoning]
    refine ⟨hobj _ _, fun key hkey hdoc => ?_⟩
    rw [get?_set_of_ne _ _ hkey, mergeEntry_documents same context docs hdoc]

/-- what stands under `routing` stays there -/
theorem dictAt_contextAfter_routing (start : Dict String Json) (decisions : List Decision) :
    dictAt (contextAfter same start decisions) "routing" = dictAt start "routing" := by
  induction decisions generalizing start with
  | nil => rfl
  | cons d rest ih =>
    have hstep : dictAt (mergeContext same start d.updatedContext) "routing" = dictAt start "routing" := by
      unfold Router.dictAt
      rw [(mergeContext_decision same start d).2 "routing" (by decide) (by decide)]
    exact (ih (mergeContext same start d.updatedContext)).trans hstep

/-- what stands under `reasoning` is what all decisions have said -/
theorem dictAt_contextAfter_reasoning (start : Dict String Json) (decisions : List Decision) :
    (dictAt (contextAfter same start decisions) "reasoning").getD Dict.empty =
        said ((dictAt start "reasoning").getD Dict.empty) decisions ∧
      (decisions ≠ [] → (dictAt (contextAfter same start decisions) "reasoning").isSome = true) := by
  induction decisions generalizing start with
  | nil => exact ⟨rfl, fun h => absurd rfl h⟩
  | cons d rest ih =>
    obtain ⟨hsaid, hsome⟩ := ih (mergeContext same start d.updatedContext)
    have hfirst := (mergeContext_decision same start d).1
    rw [hfirst, getD_some] at hsaid
    refine ⟨hsaid, fun _ => ?_⟩
    cases rest with
    | nil =>
      have hlast : dictAt (contextAfter same start [d]) "reasoning" = _ := hfirst
      rw [hlast]
      rfl
    | cons e rest => exact hsome (cons_ne_nil e rest)

theorem said_concat (first : Dict String Json) (decisions : List Decision) (d : Decision) :
    said first (decisions ++ [d]) = (said first decisions).update d.reasoning := by
  unfold said
  rw [foldl_append]
  rfl

/-- the filters, the limit and the title are no routing requests -/
theorem dictAt_plannerRequest (q : Query) (context : Dict String Json) {key : String}
    (hkey : key ∈ ["routing", "reasoning"]) :
    dictAt (plannerRequest q context).contextDict key = dictAt context key := by
  have hdict : (plannerRequest q context).contextDict = q.context.update context := by
    unfold plannerRequest PlannerRequest.contextDict
    simp only
    split_ifs with h
    · exact Dict.ext h.symm
    · rfl
  have hnone : q.context.get? key = none := by
    have hmem : key ∉ q.context.keys := by
      unfold Query.context
      rw [mem_keys_ofList]
      have hkeys : ∀ k ∈ ["routing", "reasoning"], k ≠ "filters" ∧ k ≠ "limit" ∧ k ≠ "title" := by decide
      obtain ⟨hfilters, hlimit, htitle⟩ := hkeys key hkey
      rw [map_append, map_append, mem_append, mem_append]
      rintro ((h | h) | h)
      · cases hf : q.filters with
        | none => rw [hf] at h; cases h
        | some f => rw [hf] at h; exact hfilters (mem_singleton.1 h)
      · cases hl : q.limit with
        | none => rw [hl] at h; cases h
        | some n => rw [hl] at h; exact hlimit (mem_singleton.1 h)
      · cases ht : q.title.filter (· ≠ "") with
        | none => rw [ht] at h; cases h
        | some t => rw [ht] at h; exact htitle (mem_singleton.1 h)
    rw [mem_keys_iff] at hmem
    exact eq_none_iff_forall_ne_some.2 fun v hv => hmem ⟨v, hv⟩
  unfold Router.dictAt
  rw [hdict, get?_update, hnone, or_none]

end Merged

/-! ## Which routes are taken -/

/-- the fields of a routing request that force a route, ask for a retry or resolve an entity -/
def requestKeys : List String :=
  ["force_route", "force_tool", "force_web_search", "force_deep_research", "force_visual", "force_sql", "force_clarify",
    "retry_due_to_error", "retry_due_to_empty", "retry_due_to_low_sources", "entity_resolution"]

/-- a dictionary without such fields -/
def withoutRequests (raw : Dict String Json) : Dict String Json := requestKeys.foldl Dict.erase raw

/-- a context whose dictionary under a key has no such fields -/
def eraseAt (key : String) (context : Dict String Json) : Dict String Json :=
  match dictAt context key with
  | some raw => context.set key (.obj (withoutRequests raw).entries)
  | none => context

/-- the context as it were if nobody had forced a route, asked for a retry or resolved an entity -/
def withoutStale (context : Dict String Json) : Dict String Json := eraseAt "reasoning" (eraseAt "routing" context)

theorem get?_withoutRequests (raw : Dict String Json) (key : String) :
    (withoutRequests raw).get? key = if key ∈ requestKeys then none else raw.get? key := by
  have h : ∀ (l : List String) (d : Dict String Json),
      (l.foldl Dict.erase d).get? key = if key ∈ l then none else d.get? key := by
    intro l
    induction l with
    | nil => exact fun d => (if_neg not_mem_nil).symm
    | cons k l ih =>
      intro d
      rw [foldl_cons, ih, get?_erase]
      by_cases hk : key = k
      · rw [if_pos hk, if_pos (mem_cons.2 (.inl hk)), ite_self]
      · rw [if_neg hk]
        simp only [mem_cons, hk, false_or]
  exact h requestKeys raw

theorem get_withoutRequests (raw : Dict String Json) (key : String) :
    get (withoutRequests raw) key = if key ∈ requestKeys then .null else get raw key := by
  unfold Router.get
  rw [get?_withoutRequests]
  split_ifs
  · rfl
  · rfl

theorem dictAt_eraseAt (key : String) (context : Dict String Json) :
    dictAt (eraseAt key context) key = (dictAt context key).map withoutRequests ∧
      ∀ other, other ≠ key → dictAt (eraseAt key context) other = dictAt context other := by
  unfold eraseAt
  cases hraw : dictAt context key with
  | none => exact ⟨hraw, fun _ _ => rfl⟩
  | some raw =>
    unfold Router.dictAt
    refine ⟨?_, fun other hne => ?_⟩
    · rw [get?_set_self]
      exact congrArg some (ofList_entries _)
    · rw [get?_set_of_ne _ _ hne]

/-- the routing requests are read from the dictionary they were read from before -/
theorem routingRequest_withoutStale (q : Query) (context : Dict String Json) :
    Router.routingRequest (plannerRequest q (withoutStale context)).contextDict =
      (Router.routingRequest (plannerRequest q context).contextDict).map withoutRequests := by
  unfold Router.routingRequest withoutStale
  rw [dictAt_plannerRequest q _ (by decide), dictAt_plannerRequest q _ (by decide),
    dictAt_plannerRequest q _ (by decide), dictAt_plannerRequest q _ (by decide),
    (dictAt_eraseAt "reasoning" _).2 "routing" (by decide), (dictAt_eraseAt "routing" context).1,
    (dictAt_eraseAt "reasoning" _).1, (dictAt_eraseAt "routing" context).2 "reasoning" (by decide)]
  cases dictAt context "routing" with
  | none => rfl
  | some raw => rfl

section Overrides

variable [PyText]

/-- where no route is forced and no retry is asked for, the fields that could do so say nothing -/
theorem overridesOf_withoutRequests {raw : Dict String Json} (hforced : Router.forcedRoute raw = none)
    (hretry : Router.retryFlag raw = false) : Router.overridesOf (withoutRequests raw) = Router.overridesOf raw := by
  have hforced' : Router.forcedRoute (withoutRequests raw) = none := by
    unfold Router.forcedRoute
    simp only [get_withoutRequests]
    rfl
  have hretry' : Router.retryFlag (withoutRequests raw) = false := by
    unfold Router.retryFlag
    simp only [get_withoutRequests]
    rfl
  unfold Router.overridesOf
  rw [hforced, hforced', hretry, hretry']
  simp only [get_withoutRequests]
  rfl

def Decision.forceRoute (d : Decision) : Option RouteName :=
  if (get d.reasoning "force_route").truthy then Router.normalizeRouteName (get d.reasoning "force_route") else none

/-- a decision forces no route, asks for no retry and resolves no entity -/
def Decision.Silent (d : Decision) : Prop := ∀ key ∈ requestKeys, (get d.reasoning key).truthy = false

theorem forcedRoute_said {d : Decision} {r : RouteName} (h : d.forceRoute = some r) (first : Dict String Json)
    (decisions : List Decision) : Router.forcedRoute (said first (decisions ++ [d])) = some r := by
  unfold Decision.forceRoute at h
  split_ifs at h with htruthy
  have hget : get (said first (decisions ++ [d])) "force_route" = get d.reasoning "force_route" := by
    rw [said_concat]
    unfold Router.get
    rw [get?_update]
    cases hkey : d.reasoning.get? "force_route" with
    | none =>
      unfold Router.get at htruthy
      rw [hkey] at htruthy
      cases htruthy
    | some v => rfl
  unfold Router.forcedRoute Json.orElse
  rw [hget, if_pos htruthy, h]
  rfl

end Overrides

/-- a decision is heeded after some earlier ones: a `routing` of the first context does not stand in the way of a route
that it forces, and where it asks for nothing, the requests that are read force no route and ask for no retry -/
structure Heeded [PyDigits] (q : Query) (start : Dict String Json) (earlier : List Decision) (d : Decision) : Prop where
  forced : ∀ r, d.forceRoute = some r →
    Router.routeIsAvailable r (Router.extractSignals q.question) q.constraints = true →
    ∀ raw, dictAt start "routing" = some raw → Router.forcedRoute raw = some r
  free : d.Silent →
    Router.forcedRoute ((dictAt start "routing").getD
        (said ((dictAt start "reasoning").getD Dict.empty) (earlier ++ [d]))) = none ∧
      Router.retryFlag ((dictAt start "routing").getD
        (said ((dictAt start "reasoning").getD Dict.empty) (earlier ++ [d]))) = false

section Passes

variable [PyDigits] (same : Json → Json → Bool) (rewriteForAgent : AgentName → String → String)

omit same in
theorem plan_of_bypass {request : PlannerRequest} (h : Planner.shouldBypassLlm request = true)
    (response : Option Json) :
    Planner.plan rewriteForAgent request response =
      .ok (Planner.rewritten rewriteForAgent request (Planner.rulePlan request)) := by
  have hanswer : Planner.planWithLlm request response = .ok none := if_pos h
  rw [Planner.plan, hanswer]
  rfl

omit [PyDigits] same in
/-- a dictionary under `reasoning` that says something is a routing request -/
theorem shouldBypassLlm_of_reasoning {request : PlannerRequest} {reasoning : Dict String Json} {key : String}
    (h : dictAt request.contextDict "reasoning" = some reasoning) (hkey : reasoning.has key = true) :
    Planner.shouldBypassLlm request = true := by
  refine List.any_eq_true.2 ⟨"reasoning", by decide, ?_⟩
  rw [h, any_some, Bool.not_eq_true', ← Bool.not_eq_true, List.isEmpty_iff]
  intro hempty
  rw [Dict.has, Dict.get?, hempty] at hkey
  cases hkey

/-- **Passes.** The context of a pass is what the decisions before it have made of the first one, and its plan is the
one for that context. -/
theorem passes_spec {q : Query} {start : Dict String Json} {its : List Iteration} {k : ℕ} {b : Pass}
    (h : (loop same rewriteForAgent q start its)[k]? = some b) :
    ∃ it, its[k]? = some it ∧
      b.context = contextAfter same start ((its.take k).filterMap Iteration.decision) ∧
      Planner.plan rewriteForAgent (plannerRequest q b.context) it.response = .ok b.plan ∧
      b.question = askedQuestion b.plan it.executed ∧ ∀ d, b.decision = some d → it.decision = some d := by
  induction its generalizing start k with
  | nil =>
    cases h
  | cons it rest ih =>
    -- the last pass of a turn is its first one
    have hlast : ∀ pass : Pass, [pass][k]? = some b → pass.context = start →
        Planner.plan rewriteForAgent (plannerRequest q start) it.response = .ok pass.plan →
        pass.question = askedQuestion pass.plan it.executed →
        (∀ d, pass.decision = some d → it.decision = some d) →
        ∃ it', (it :: rest)[k]? = some it' ∧
          b.context = contextAfter same start (((it :: rest).take k).filterMap Iteration.decision) ∧
          Planner.plan rewriteForAgent (plannerRequest q b.context) it'.response = .ok b.plan ∧
          b.question = askedQuestion b.plan it'.executed ∧ ∀ d, b.decision = some d → it'.decision = some d := by
      intro pass hpass hcontext hplan hquestion hdecision
      cases k with
      | zero =>
        cases hpass
        refine ⟨it, rfl, hcontext, ?_, hquestion, hdecision⟩
        rw [hcontext]
        exact hplan
      | succ k =>
        cases hpass
    rw [loop] at h
    cases hplan : Planner.plan rewriteForAgent (plannerRequest q start) it.response with
    | error e =>
      simp only [hplan, getElem?_nil] at h
      cases h
    | ok plan =>
      simp only [hplan] at h
      cases hquestion : askedQuestion plan it.executed with
      | some question =>
        simp only [hquestion] at h
        exact hlast _ h rfl hplan hquestion.symm fun e he => (by cases he)
      | none =>
        cases hdecision : it.decision with
        | none =>
          simp only [hquestion, hdecision] at h
          exact hlast _ h rfl hplan hquestion.symm fun e he => (by cases he)
        | some d =>
          simp only [hquestion, hdecision] at h
          cases k with
          | zero =>
            cases h
            exact ⟨it, rfl, rfl, hplan, hquestion.symm, fun e he => he ▸ hdecision⟩
          | succ k =>
            obtain ⟨next, hnext, hcontext, hrest⟩ := ih h
            refine ⟨next, hnext, ?_, hrest⟩
            rw [hcontext, take_succ_cons, filterMap_cons_some hdecision]
            rfl

/-- **Routes of a turn.** A pass whose decision forces an available route is followed by a plan of that route, and one
whose decision asks for nothing by a plan whose route no earlier request has changed, as long as every decision of the
turn is heeded. -/
theorem decisions_obeyed (questionHash : String → String) (defaultMaxTurns : ℕ) (t : Turn)
    (hheeded : ∀ k it d, t.iterations[k]? = some it → it.decision = some d →
      Heeded t.query (t.start same questionHash defaultMaxTurns)
        ((t.iterations.take k).filterMap Iteration.decision) d) :
    ∀ k a b d, (t.passes same rewriteForAgent questionHash defaultMaxTurns)[k]? = some a →
      (t.passes same rewriteForAgent questionHash defaultMaxTurns)[k + 1]? = some b → a.decision = some d →
        (∀ r, d.forceRoute = some r → Router.routeIsAvailable r (Router.extractSignals t.query.question)
          t.query.constraints = true → b.plan.route = r) ∧
        (d.Silent → ∀ response, ∃ p, Planner.plan rewriteForAgent (plannerRequest t.query (withoutStale b.context))
          response = .ok p ∧ p.route = b.plan.route) := by
  intro k a b d ha hb hd
  unfold Turn.passes at ha hb
  split_ifs at ha hb
  · cases ha
  generalize hstart : t.start same questionHash defaultMaxTurns = start at ha hb hheeded
  obtain ⟨it, hit, _, _, _, hdecision⟩ := passes_spec same rewriteForAgent ha
  obtain ⟨next, _, hcontext, hplan, _⟩ := passes_spec same rewriteForAgent hb
  obtain ⟨hforced, hfree⟩ := hheeded k it d hit (hdecision d hd)
  -- the decision is the last one before the plan
  have hdecisions : (t.iterations.take (k + 1)).filterMap Iteration.decision =
      (t.iterations.take k).filterMap Iteration.decision ++ [d] := by
    rw [take_add_one, hit, filterMap_append, toList_some, filterMap_cons_some (hdecision d hd)]
    rfl
  rw [hdecisions] at hcontext
  generalize (t.iterations.take k).filterMap Iteration.decision = earlier at hcontext hforced hfree
  obtain ⟨hsaid, hsome⟩ := dictAt_contextAfter_reasoning same start (earlier ++ [d])
  have hrouting := dictAt_contextAfter_routing same start (earlier ++ [d])
  rw [← hcontext] at hsaid hsome hrouting
  obtain ⟨reasoning, hreasoning⟩ := isSome_iff_exists.1 (hsome (append_ne_nil_of_right_ne_nil _
    (cons_ne_nil d [])))
  rw [hreasoning, getD_some] at hsaid
  -- the requests are read from the first `routing`, or else from all that was said
  have hread : Router.routingRequest (plannerRequest t.query b.context).contextDict =
      some ((dictAt start "routing").getD (said ((dictAt start "reasoning").getD Dict.empty) (earlier ++ [d]))) := by
    unfold Router.routingRequest
    rw [dictAt_plannerRequest t.query b.context (by decide), dictAt_plannerRequest t.query b.context (by decide),
      hrouting, hreasoning, hsaid]
    cases dictAt start "routing" with
    | none => rfl
    | some raw => rfl
  have hprevious : reasoning.has "previous_route" = true := by
    rw [hsaid, said_concat, Dict.has, get?_update]
    have h := d.previousRoute
    obtain ⟨v, hv⟩ := isSome_iff_exists.1 h
    rw [hv]
    rfl
  have hroute : b.plan.route = (Router.chooseRoute (plannerRequest t.query b.context)).route := by
    have hbypass := shouldBypassLlm_of_reasoning
      ((dictAt_plannerRequest t.query b.context (by decide)).trans hreasoning) hprevious
    rw [plan_of_bypass rewriteForAgent hbypass] at hplan
    rw [← Except.ok.inj hplan]
    rfl
  constructor
  · intro r hr havailable
    rw [hroute]
    refine Router.chooseRoute_forced ?_ havailable
    unfold Router.extractRoutingOverrides
    rw [hread]
    cases hraw : dictAt start "routing" with
    | some raw => exact hforced r hr havailable raw hraw
    | none => exact forcedRoute_said hr _ earlier
  · intro hsilent response
    obtain ⟨hnone, hretry⟩ := hfree hsilent
    have hbypass : Planner.shouldBypassLlm (plannerRequest t.query (withoutStale b.context)) = true := by
      have hkept : dictAt (withoutStale b.context) "reasoning" = some (withoutRequests reasoning) := by
        rw [withoutStale, (dictAt_eraseAt "reasoning" _).1,
          (dictAt_eraseAt "routing" b.context).2 "reasoning" (by decide), hreasoning]
        rfl
      have hhas : (withoutRequests reasoning).has "previous_route" = true := by
        rw [Dict.has, get?_withoutRequests, if_neg (by decide)]
        exact hprevious
      exact shouldBypassLlm_of_reasoning ((dictAt_plannerRequest t.query _ (by decide)).trans hkept) hhas
    refine ⟨_, plan_of_bypass rewriteForAgent hbypass response, ?_⟩
    rw [hroute]
    refine congrArg RouteDecision.route (Router.chooseRoute_congr rfl rfl ?_)
    unfold Router.extractRoutingOverrides
    rw [routingRequest_withoutStale, hread, map_some]
    exact overridesOf_withoutRequests hnone hretry

end Passes

section Runs

open scoped Ascii

def revenueQuery : Query :=
  { question := "show me revenue by region"
    filters := none
    limit := none
    title := none
    constraints :=
      { maxSteps := 4, ignoreMaxSteps := false, preferLowLatency := true, costSensitivity := .medium,
        requireVizWhenChartable := true, allowSqlAnalyst := true, allowWebSearch := true, allowDeepResearch := true,
        timeboxSeconds := 30, positive := Nat.succ_pos 3 } }

def retryDecision : Decision :=
  { reasoning := Dict.ofList [("force_route", .str "WebSearch"), ("previous_route", .str "SimpleAnalyst"),
      ("retry_due_to_error", .str "timeout")]
    documents := none
    previousRoute := by decide }

/-- a turn of two passes, with or without a route that the classifier is sure of -/
def revenueTurn (hint : Option String) : Turn :=
  { query := revenueQuery
    planningContext := Dict.empty
    classification := ⟨hint, 9 / 10, false, none, [], .obj []⟩
    entities := .obj []
    conversation := none
    prior := .fresh 2
    blocked := false
    iterations := [⟨none, 1, some retryDecision⟩, ⟨none, 1, none⟩] }

def revenuePasses (hint : Option String) : List Pass :=
  (revenueTurn hint).passes (fun _ _ => false) (fun _ _ => "revenue by region") id 2

/-- without a hint the web search follows -/
theorem revenueTurn_obeyed :
    ∃ a b d, (revenuePasses none)[0]? = some a ∧ (revenuePasses none)[1]? = some b ∧ a.decision = some d ∧
      d.forceRoute = some .webSearch ∧ b.plan.route = .webSearch := by
  have hrun : (revenuePasses none).map (fun p => p.decision.bind Decision.forceRoute) = [some .webSearch, none] := by
    decide +kernel
  obtain ⟨a, rest, hpasses, ha, hrest⟩ := map_eq_cons_iff.1 hrun
  obtain ⟨b, _, rfl, _, _⟩ := map_eq_cons_iff.1 hrest
  obtain ⟨d, hd, hforce⟩ := bind_eq_some_iff.1 ha
  have hheeded : ∀ k it d, (revenueTurn none).iterations[k]? = some it → it.decision = some d →
      Heeded (revenueTurn none).query ((revenueTurn none).start (fun _ _ => false) id 2)
        (((revenueTurn none).iterations.take k).filterMap Iteration.decision) d := by
    intro k it d hit hdecision
    have hd : d = retryDecision := by
      have hmem := mem_of_getElem? hit
      simp only [revenueTurn, mem_cons, not_mem_nil, or_false] at hmem
      rcases hmem with rfl | rfl
      · exact (Option.some.inj hdecision).symm
      · cases hdecision
    rw [hd]
    refine ⟨fun r _ _ raw hraw => ?_, fun hsilent => ?_⟩
    · cases hraw
    · exact absurd (hsilent "force_route" (by decide)) (by decide)
  have hobeyed := decisions_obeyed (fun _ _ => false) (fun _ _ => "revenue by region") id 2 (revenueTurn none) hheeded
    0 a b d
  change (revenuePasses none)[0]? = some a → (revenuePasses none)[1]? = some b → _ at hobeyed
  rw [hpasses] at hobeyed ⊢
  refine ⟨a, b, d, rfl, rfl, hd, hforce, (hobeyed rfl rfl hd).1 .webSearch hforce ?_⟩
  decide +kernel

/-- with a hint the analyst is asked again -/
theorem revenueTurn_hinted :
    ∃ a b d, (revenuePasses (some "SimpleAnalyst"))[0]? = some a ∧
      (revenuePasses (some "SimpleAnalyst"))[1]? = some b ∧
      a.decision = some d ∧ d.forceRoute = some .webSearch ∧
      Router.routeIsAvailable .webSearch (Router.extractSignals revenueQuery.question) revenueQuery.constraints = true ∧
      b.plan.route = .simpleAnalyst := by
  have hrun : (revenuePasses (some "SimpleAnalyst")).map
      (fun p => (p.plan.route, p.decision.bind Decision.forceRoute)) =
        [(.simpleAnalyst, some .webSearch), (.simpleAnalyst, none)] := by
    decide +kernel
  obtain ⟨a, rest, hpasses, ha, hrest⟩ := map_eq_cons_iff.1 hrun
  obtain ⟨b, _, rfl, hb, _⟩ := map_eq_cons_iff.1 hrest
  obtain ⟨d, hd, hforce⟩ := bind_eq_some_iff.1 (congrArg Prod.snd ha)
  rw [hpasses]
  refine ⟨a, b, d, rfl, rfl, hd, hforce, ?_, congrArg Prod.fst hb⟩
  decide +kernel

end Runs

end Supervisor

end Langbridge.Orchestrator
