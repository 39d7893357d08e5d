/-
The planner (`orchestrator/agents/planner/planner.py`, `build_steps` of `router.py`): a plan is read off the answer of a
language model, or built by the rules for the route that the router chooses; then the rewrites that the context asks
for are applied to its steps.

The language model is asked only when the context carries no routing request. What `json.loads` makes of the first
object in its answer is an input here, `none` when there is no model, no answer, no object or no JSON.
-/
import Langbridge.Orchestrator.Router

namespace Langbridge.Orchestrator

open Core PyText

structure Plan where
  route : RouteName
  steps : List PlanStep
  justification : String
  assumptions : List String

/-- `TypeError: unhashable type` -/
inductive PlanError where
  | unhashable
deriving DecidableEq

namespace Planner

open Router (get dictAt occursIn)

section Texts

variable [PyText]

/-- `str(mapping.get(key) or "").strip()` -/
def stripped (d : Dict String Json) (key : String) : String := strip ((get d key).orElse (.str "")).text

def nonBlank : Json → Option String
  | .str s => if strip s = "" then none else some s
  | _ => none

def inferVisualIntent (question : String) : String :=
  let has (part : String) : Bool := occursIn part.toList (lower question).toList
  if has "trend" || has "over time" then "time_series_comparison"
  else if has "versus" || has "vs " then "comparative_view"
  else if has "distribution" || has "histogram" then "distribution_analysis"
  else if has "top" || has "rank" then "ranked_highlights"
  else "insight_visualization"

def pluralizeLabel (label : String) : String :=
  let cleaned := strip label
  let lower := (lower cleaned).toList
  if cleaned = "" then "items"
  else if lower.getLast? = some 'y' ∧ 1 < lower.length then String.ofList cleaned.toList.dropLast ++ "ies"
  else if lower.getLast? = some 's' then cleaned
  else cleaned ++ "s"

end Texts

def buildClarifyingQuestion (signals : RouteSignals) : String :=
  let missing :=
    (if signals.hasEntityReference then [] else ["which entity or segment you want analysed"]) ++
      (if signals.hasTimeReference then [] else ["the time period to evaluate"])
  if missing = [] then
    "Could you provide a bit more detail so I can plan safely? " ++
      "Let me know the exact metric and time window you care about."
  else
    "To move forward, please specify " ++ " and ".intercalate missing ++
      ", for example 'fund performance by region for 2024 Q1'."

def contextHasDocuments (context : Dict String Json) : Bool :=
  ["documents", "sources", "notes"].any fun key =>
    match context.get? key with
    | some (.obj entries) => !entries.isEmpty
    | some (.arr items) => !items.isEmpty
    | _ => false

def extractEntityResolution (context : Dict String Json) : Option (Dict String Json) :=
  (dictAt context "reasoning").bind fun reasoning => dictAt reasoning "entity_resolution"

/-- the entity resolution, when it says something -/
def entityResolution (context : Dict String Json) : Option (Dict String Json) :=
  (extractEntityResolution context).filter fun d => !d.entries.isEmpty

/-! ## The steps of a route -/

def stepId (n : ℕ) : String := "step-" ++ toString n

def appendStep (c : PlanningConstraints) (steps : List PlanStep) (agent : AgentName)
    (input expectedOutput : Dict String Json) : List PlanStep :=
  if c.maxSteps ≤ steps.length then steps
  else steps ++ [⟨stepId (steps.length + 1), agent, input, expectedOutput⟩]

def idOf : Option PlanStep → Json
  | some step => .str step.id
  | none => .null

/-- `request.context or {}` as a value -/
def contextJson (request : PlannerRequest) : Json := .obj request.contextDict.entries

def baseInput (request : PlannerRequest) : Dict String Json :=
  Dict.ofList [("question", .str request.question), ("context", contextJson request),
    ("constraints", request.constraints.dump)]

def tableOutput (rows : String) : Dict String Json :=
  Dict.ofList [("rows", .str rows), ("schema", .str "column_metadata"), ("final_sql", .str "string")]

def webSearchInput (request : PlannerRequest) : Dict String Json :=
  Dict.ofList [("query", .str request.question), ("context", contextJson request),
    ("max_results", (request.contextDict.get? "max_results").getD (.int 6)),
    ("region", get request.contextDict "region"), ("safe_search", get request.contextDict "safe_search"),
    ("timebox_seconds", .int request.constraints.timeboxSeconds)]

def webSearchOutput : Dict String Json :=
  Dict.ofList [("results", .str "web_search_results"), ("sources", .str "list_of_urls")]

def docRetrievalInput (request : PlannerRequest) (source : Json) : Dict String Json :=
  Dict.ofList [("question", .str request.question), ("context", contextJson request),
    ("timebox_seconds", .int request.constraints.timeboxSeconds), ("source_step_ref", source)]

def docRetrievalOutput : Dict String Json :=
  Dict.ofList [("synthesis", .str "key_findings_with_citations"), ("evidence", .str "source_references")]

section Steps

variable [PyText]

def appendVisual (request : PlannerRequest) (steps : List PlanStep) (rows : Json) : List PlanStep :=
  appendStep request.constraints steps .visual
    (Dict.ofList [("rows_ref", rows), ("schema_ref", rows),
      ("user_intent", .str (inferVisualIntent request.question))])
    (Dict.ofList [("viz_spec", .str "json_visualization_spec"), ("insight_summary", .str "string")])

/-- `next(step for step in reversed(steps) if step.agent == "Analyst")` -/
def lastAnalyst (steps : List PlanStep) : Option PlanStep := steps.reverse.find? fun s => s.agent = .analyst

/-- what the question after the probe asks to do with the names that it found -/
def followUp (resolution : Dict String Json) : String :=
  let entityType := stripped resolution "entity_type"
  let entityPhrase := stripped resolution "entity_phrase"
  let given := stripped resolution "follow_up"
  if given ≠ "" then given
  else if entityType ≠ "" ∧ entityPhrase ≠ "" then
    "Use the list of known " ++ entityType ++ " names to resolve the closest match to '" ++ entityPhrase ++
      "', then answer the original question."
  else if entityPhrase ≠ "" then
    "Use the list of known names to resolve the closest match to '" ++ entityPhrase ++
      "', then answer the original question."
  else ""

/-- the question that lists the known names -/
def probeQuestion (resolution : Dict String Json) : String :=
  let given := stripped resolution "probe_question"
  let entityType := stripped resolution "entity_type"
  if given ≠ "" then given
  else "List all " ++ pluralizeLabel (if entityType = "" then "item" else entityType) ++ "."

/-- `_build_entity_resolution_steps`: a probe and the question that uses what it found -/
def buildEntityResolutionSteps (resolution : Dict String Json) (request : PlannerRequest) : Option (List PlanStep) :=
  if request.constraints.maxSteps < 2 then none
  else
    let context := request.contextDict
    let probeContext := if context.has "limit" then context else context.set "limit" (.int 200)
    let original := strip ((get resolution "original_question").orElse (.str request.question)).text
    let follow := followUp resolution
    let steps := appendStep request.constraints [] .analyst
      (Dict.ofList [("question", .str (probeQuestion resolution)), ("context", .obj probeContext.entries),
        ("constraints", request.constraints.dump)])
      (tableOutput "tabular_result_set")
    some (appendStep request.constraints steps .analyst
      (Dict.ofList [("question", .str original), ("context", contextJson request),
        ("constraints", request.constraints.dump), ("source_step_ref", idOf steps.head?),
        ("follow_up", if follow = "" then .null else .str follow)])
      (tableOutput "tabular_result_set"))

/-- the steps of an entity resolution that the context asks for and the limit allows -/
def resolvedSteps (request : PlannerRequest) : Option (List PlanStep) :=
  (entityResolution request.contextDict).bind fun resolution => buildEntityResolutionSteps resolution request

/-- the one step that answers the question with SQL -/
def analystSteps (request : PlannerRequest) : List PlanStep :=
  appendStep request.constraints [] .analyst (baseInput request) (tableOutput "tabular_result_set")

/-- the steps of `AnalystThenVisual` -/
def analystThenVisualSteps (request : PlannerRequest) : List PlanStep :=
  match resolvedSteps request with
  | some steps =>
    if steps.length < request.constraints.maxSteps ∧ (lastAnalyst steps).isSome = true then
      appendVisual request steps (idOf (lastAnalyst steps))
    else steps
  | none =>
    let steps := analystSteps request
    if steps.length < request.constraints.maxSteps then appendVisual request steps (idOf steps.head?) else steps

def shouldUseWebSearch (decision : RouteDecision) (request : PlannerRequest) : Bool :=
  request.constraints.allowWebSearch && !contextHasDocuments request.contextDict &&
    ((Router.extractRoutingOverrides request.contextDict).requireWebSearch || decision.signals.hasWebSearchSignals)

/-- the document step of `DeepResearch`, after a web search if there is to be one -/
def docSteps (decision : RouteDecision) (request : PlannerRequest) : List PlanStep :=
  let c := request.constraints
  let web :=
    if shouldUseWebSearch decision request = true ∧ 2 ≤ c.maxSteps then
      appendStep c [] .webSearch (webSearchInput request) webSearchOutput
    else []
  appendStep c web .docRetrieval (docRetrievalInput request (idOf web.getLast?)) docRetrievalOutput

/-- the step that checks what the documents say -/
def appendValidation (request : PlannerRequest) (docs : List PlanStep) : List PlanStep :=
  appendStep request.constraints docs .analyst
    (((baseInput request).set "follow_up" (.str "Validate top qualitative claims from document synthesis.")).set
      "source_step_ref" (idOf docs.getLast?))
    (tableOutput "tabular_verification_results")

/-- the steps of `DeepResearch` -/
def deepResearchSteps (decision : RouteDecision) (request : PlannerRequest) : List PlanStep :=
  let c := request.constraints
  let docs := docSteps decision request
  let steps :=
    if decision.signals.hasSqlSignals = true ∧ docs.length < c.maxSteps then appendValidation request docs else docs
  if decision.signals.chartable = true ∧ c.requireVizWhenChartable = true ∧ steps.length < c.maxSteps ∧
      (lastAnalyst steps).isSome = true then
    appendVisual request steps (idOf (lastAnalyst steps))
  else steps

def buildSteps (decision : RouteDecision) (request : PlannerRequest) : List PlanStep :=
  let c := request.constraints
  match decision.route with
  | .clarify =>
    appendStep c [] .clarify
      (Dict.ofList [("clarifying_question", .str (buildClarifyingQuestion decision.signals)),
        ("original_question", .str request.question)])
      (Dict.ofList [("awaiting_user", .bool true)])
  | .simpleAnalyst => (resolvedSteps request).getD (analystSteps request)
  | .analystThenVisual => analystThenVisualSteps request
  | .webSearch => appendStep c [] .webSearch (webSearchInput request) webSearchOutput
  | .deepResearch => deepResearchSteps decision request

end Steps

/-! ## The plan of a language model -/

section Llm

variable [PyText]

def routeAliases : List (String × RouteName) :=
  [("analyst", .simpleAnalyst), ("simpleanalyst", .simpleAnalyst), ("visual", .analystThenVisual),
    ("chart", .analystThenVisual), ("websearch", .webSearch), ("web", .webSearch), ("research", .deepResearch),
    ("deepresearch", .deepResearch), ("clarify", .clarify)]

def normalizeRouteName : Json → Option RouteName
  | .null => none
  | value =>
    let cleaned := norm value.text
    if cleaned = "" then none
    else
      (RouteName.all.find? fun r => cleaned = lower r.value ∨ cleaned = lower r.name).orElse fun _ =>
        routeAliases.lookup cleaned

def agentAliases : List (String × AgentName) :=
  [("analysis", .analyst), ("visualization", .visual), ("visual", .visual), ("websearch", .webSearch),
    ("web", .webSearch), ("docretrieval", .docRetrieval), ("doc_retrieval", .docRetrieval),
    ("research", .docRetrieval), ("clarify", .clarify)]

def normalizeAgentName : Json → Option AgentName
  | .null => none
  | value =>
    let cleaned := norm value.text
    if cleaned = "" then none
    else
      (AgentName.all.find? fun a => cleaned = lower a.value ∨ cleaned = lower a.name).orElse fun _ =>
        agentAliases.lookup cleaned

def agentAllowed (agent : AgentName) (c : PlanningConstraints) : Bool :=
  match agent with
  | .analyst | .visual => c.allowSqlAnalyst
  | .webSearch => c.allowWebSearch
  | .docRetrieval => c.allowDeepResearch
  | .clarify => true

def isRouteAvailable (route : RouteName) (c : PlanningConstraints) : Bool :=
  match route with
  | .clarify => true
  | .simpleAnalyst => c.allowSqlAnalyst && decide (1 ≤ c.maxSteps)
  | .analystThenVisual => c.allowSqlAnalyst && decide (2 ≤ c.maxSteps)
  | .webSearch => c.allowWebSearch && decide (1 ≤ c.maxSteps)
  | .deepResearch => c.allowDeepResearch && decide (1 ≤ c.maxSteps)

/-- the steps that were read, and the ids as they were written -/
structure ReadSteps where
  steps : List PlanStep
  idMap : Dict String String

/-- one step of the answer; a step without an id gets its position -/
def readStep (c : PlanningConstraints) (state : ReadSteps) : Json → Option ReadSteps
  | .obj fields =>
    let raw := Dict.ofList fields
    match normalizeAgentName (get raw "agent") with
    | none => none
    | some agent =>
      let rawId := nonBlank (get raw "id")
      let id := rawId.elim (stepId (state.steps.length + 1)) strip
      if agentAllowed agent c = false ∨ id ∈ state.steps.map PlanStep.id then none
      else
        some
          { steps := state.steps ++
              [⟨id, agent, (dictAt raw "input").getD Dict.empty, (dictAt raw "expected_output").getD Dict.empty⟩]
            idMap := rawId.elim state.idMap fun r => state.idMap.set r id }
  | _ => none

/-- `_coerce_steps` up to the references -/
def readSteps (c : PlanningConstraints) : Json → Option ReadSteps
  | .arr raws =>
    ((raws.foldlM (readStep c) ⟨[], Dict.empty⟩).filter fun read => read.steps ≠ []).filter fun read =>
      read.steps.length ≤ c.maxSteps
  | _ => none

/-! ### References -/

/-- lists and dictionaries cannot be looked up in a set -/
def hashable : Json → Bool
  | .arr _ => false
  | .obj _ => false
  | _ => true

/-- a value is one of the ids -/
def listed (ids : List String) : Json → Bool
  | .str s => decide (s ∈ ids)
  | _ => false

def isIn (ids : List String) (value : Json) : Except PlanError Bool :=
  if hashable value then .ok (listed ids value) else .error .unhashable

/-- a reference to an id as it was written is one to the id -/
def mapRef (idMap : Dict String String) : Json → Json
  | .str s => .str ((idMap.get? s).getD s)
  | v => v

/-- the references that a step may have -/
def refKeys : List String := ["rows_ref", "schema_ref", "source_step_ref", "step_ref"]

/-- the references of a step are to ids -/
def mapRefs (idMap : Dict String String) (input : Dict String Json) : Dict String Json :=
  refKeys.foldl (fun input key => if input.has key then input.set key (mapRef idMap (get input key)) else input) input

/-- `last_analyst_id`, `last_web_id` and `last_doc_id`: the last step of each agent so far -/
abbrev Lasts : Type := AgentName → Option String

def Lasts.seen (lasts : Lasts) (step : PlanStep) : Lasts := fun a => if a = step.agent then some step.id else lasts a

/-- the references of an agent that are replaced when they name no step, each by the last step of some agent -/
def repairs : AgentName → List (String × AgentName)
  | .visual => [("rows_ref", .analyst), ("schema_ref", .analyst)]
  | .docRetrieval => [("source_step_ref", .webSearch)]
  | .analyst => [("source_step_ref", .docRetrieval)]
  | _ => []

/-- one reference is replaced if it names no step -/
def repair (ids : List String) (lasts : Lasts) (input : Dict String Json) (entry : String × AgentName) :
    Except PlanError (Dict String Json) :=
  match lasts entry.2 with
  | none => .ok input
  | some last => do
    let known ← isIn ids (get input entry.1)
    pure (if known then input else input.set entry.1 (.str last))

def rewriteStepReferences (ids : List String) (idMap : Dict String String) :
    Lasts → List PlanStep → Except PlanError (List PlanStep)
  | _, [] => .ok []
  | lasts, step :: rest => do
    let lasts := lasts.seen step
    let input ← (repairs step.agent).foldlM (repair ids lasts) (mapRefs idMap step.input)
    let rest ← rewriteStepReferences ids idMap lasts rest
    pure ({ step with input } :: rest)

def ReadSteps.rewritten (read : ReadSteps) : Except PlanError (List PlanStep) :=
  rewriteStepReferences (read.steps.map PlanStep.id) read.idMap (fun _ => none) read.steps

/-- the route and the steps that the answer names, if the route is available and the steps can be read -/
def readPlan (c : PlanningConstraints) (payload : Dict String Json) : Option (RouteName × ReadSteps) := do
  let route ← normalizeRouteName ((get payload "route").orElse ((get payload "plan_route").orElse
    (get payload "route_name")))
  if isRouteAvailable route c = false then none
  else
    let read ← readSteps c (get payload "steps")
    pure (route, read)

def clarifyShape (route : RouteName) (steps : List PlanStep) : Bool :=
  route ≠ .clarify ||
    (match steps with
    | [step] => decide (step.agent = .clarify) && step.input.has "clarifying_question"
    | _ => false)

/-- the justification that the answer gives, or one that says that it gives none -/
def answerJustification (route : RouteName) (payload : Dict String Json) : String :=
  let given := stripped payload "justification"
  if given = "" then "LLM planned route '" ++ route.value ++ "' based on the request and constraints." else given

def answerAssumptions (payload : Dict String Json) : List String :=
  match get payload "assumptions" with
  | .arr items => (items.map Json.text).filter fun item => strip item ≠ ""
  | _ => []

def coerceLlmPlan (c : PlanningConstraints) (payload : Dict String Json) : Except PlanError (Option Plan) :=
  match readPlan c payload with
  | none => .ok none
  | some (route, read) => do
    let steps ← read.rewritten
    pure (if clarifyShape route steps = false then none
      else some ⟨route, steps, answerJustification route payload, answerAssumptions payload⟩)

def shouldBypassLlm (request : PlannerRequest) : Bool :=
  ["reasoning", "routing"].any fun key =>
    (dictAt request.contextDict key).any fun payload => !payload.entries.isEmpty

/-- the object that the model answers with; an empty one counts as none -/
def answered : Option Json → Option (Dict String Json)
  | some (.obj (field :: fields)) => some (Dict.ofList (field :: fields))
  | _ => none

/-- `_plan_with_llm`, when the model is asked -/
def planWithLlm (request : PlannerRequest) (response : Option Json) : Except PlanError (Option Plan) :=
  if shouldBypassLlm request then .ok none
  else
    match answered response with
    | none => .ok none
    | some payload => coerceLlmPlan request.constraints payload

/-! ## Rewrites -/

def rewritesAt (context : Dict String Json) (key : String) : Option (List (Dict String Json)) :=
  (dictAt context key).bind fun payload =>
    match payload.get? "tool_rewrites" with
    | some (.arr items) =>
      some (items.filterMap fun item =>
        match item with
        | .obj fields => some (Dict.ofList fields)
        | _ => none)
    | some (.obj fields) => some [Dict.ofList fields]
    | _ => none

def extractToolRewrites (context : Dict String Json) : List (Dict String Json) :=
  ((rewritesAt context "reasoning").or (rewritesAt context "routing")).getD []

def rewriteAgent (rewrite : Dict String Json) : Option AgentName :=
  normalizeAgentName ((get rewrite "agent").orElse ((get rewrite "tool").orElse (get rewrite "target")))

def rewriteSource (rewrite : Dict String Json) : Option String :=
  (nonBlank ((get rewrite "source_step_ref").orElse (get rewrite "source_step"))).map strip

/-- the position of the step that a rewrite is for: the one it names, or the first of the agent that no earlier rewrite
was for -/
def targetStep (keys : List (String × AgentName)) (used : List String) (rewrite : Dict String Json) : Option ℕ :=
  (rewriteAgent rewrite).bind fun agent =>
    ((nonBlank ((get rewrite "step_id").orElse ((get rewrite "step").orElse (get rewrite "id")))).bind fun id =>
        keys.findIdx? fun key => key.1 = id ∧ key.2 = agent).or
      (keys.findIdx? fun key => key.2 = agent ∧ key.1 ∉ used)

def rewriteInput (question : String) (agent : AgentName) (rewrite input : Dict String Json) : Dict String Json :=
  let asked := nonBlank ((get rewrite "question").orElse ((get rewrite "query").orElse
    (get rewrite "rewritten_question")))
  let input := asked.elim input fun text =>
    if agent = .webSearch then input.set "query" (.str (strip text))
    else
      let input := input.set "question" (.str (strip text))
      if input.has "original_question" then input else input.set "original_question" (.str question)
  let input := (nonBlank ((get rewrite "follow_up").orElse (get rewrite "instruction"))).elim input fun text =>
    input.set "follow_up" (.str (strip text))
  (rewriteSource rewrite).elim input fun text => input.set "source_step_ref" (.str text)

/-- what a step is addressed by -/
def stepKey (step : PlanStep) : String × AgentName := (step.id, step.agent)

/-- one rewrite, with the ids of the steps that earlier ones were for -/
def applyToolRewrite (question : String) (state : List PlanStep × List String) (rewrite : Dict String Json) :
    List PlanStep × List String :=
  match targetStep (state.1.map stepKey) state.2 rewrite with
  | none => state
  | some i =>
    (state.1.modify i fun step => { step with input := rewriteInput question step.agent rewrite step.input },
      state.2 ++ (state.1[i]?.map PlanStep.id).toList)

def applyToolRewrites (request : PlannerRequest) (steps : List PlanStep) : List PlanStep :=
  ((extractToolRewrites request.contextDict).foldl (applyToolRewrite request.question) (steps, [])).1

def normalizeForCompare (text : String) : String :=
  let kept (c : Char) : Bool := ( 'a' ≤ c && c ≤ 'z') || c.isDigit
  " ".intercalate ((((lower text).toList.splitOnP fun c => !kept c).filter (· ≠ [])).map String.ofList)

/-- the field that holds the question of an agent -/
def questionKey : AgentName → Option String
  | .analyst => some "question"
  | .webSearch => some "query"
  | .docRetrieval => some "question"
  | _ => none

variable (rewriteForAgent : AgentName → String → String)

/-- the question of one step; `rewriteForAgent` is `_rewrite_for_agent` -/
def rewriteQuestion (question : String) (step : PlanStep) : PlanStep :=
  match questionKey step.agent with
  | none => step
  | some key =>
    let current := ((get step.input key).orElse (.str question)).text
    if strip current = "" ∨ normalizeForCompare current = normalizeForCompare question then
      { step with
        input := (step.input.set "original_question" (.str question)).set key
          (.str (rewriteForAgent step.agent question)) }
    else step

/-- the rewrites of `plan` -/
def rewritten (request : PlannerRequest) (plan : Plan) : Plan :=
  { plan with steps := (applyToolRewrites request plan.steps).map (rewriteQuestion rewriteForAgent request.question) }

end Llm

/-! ## Planning -/

section Plan

variable [PyDigits]

def rulePlan (request : PlannerRequest) : Plan :=
  let decision := Router.chooseRoute request
  ⟨decision.route, buildSteps decision request, decision.justification, decision.assumptions⟩

/-- `PlanningAgent.plan` -/
def plan (rewriteForAgent : AgentName → String → String) (request : PlannerRequest) (response : Option Json) :
    Except PlanError Plan := do
  let answer ← planWithLlm request response
  pure (rewritten rewriteForAgent request (answer.getD (rulePlan request)))

end Plan

end Planner

end Langbridge.Orchestrator
