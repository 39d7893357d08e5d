/-
The rule-based router (`orchestrator/agents/planner/router.py`): signals are read off the question, routing requests off
the context, and from both a route is chosen.

A request under the key `routing` hides every one under `reasoning`. A route that is asked for and available is taken
before anything else is looked at; otherwise an ambiguous question is answered by a clarifying one, whatever the context
asks to avoid.

Main results: `chooseRoute_forced`, `chooseRoute_available`, `chooseRoute_clarify_iff`.
-/
import Langbridge.Core.Dict
import Langbridge.Core.Json

namespace Langbridge.Orchestrator

open Core List PyText

/-- the decimal digits of `\d` -/
class PyDigits extends PyText where
  isDecimal : Char → Bool

namespace Ascii

open scoped Core.Ascii

scoped instance : PyDigits where
  isDecimal := Char.isDigit

end Ascii

/-! ## Plans and requests (`planner/models.py`) -/

inductive RouteName where
  | simpleAnalyst
  | analystThenVisual
  | webSearch
  | deepResearch
  | clarify
deriving DecidableEq

inductive AgentName where
  | analyst
  | visual
  | webSearch
  | docRetrieval
  | clarify
deriving DecidableEq

def RouteName.value : RouteName → String
  | simpleAnalyst => "SimpleAnalyst"
  | analystThenVisual => "AnalystThenVisual"
  | webSearch => "WebSearch"
  | deepResearch => "DeepResearch"
  | clarify => "Clarify"

def RouteName.name : RouteName → String
  | simpleAnalyst => "SIMPLE_ANALYST"
  | analystThenVisual => "ANALYST_THEN_VISUAL"
  | webSearch => "WEB_SEARCH"
  | deepResearch => "DEEP_RESEARCH"
  | clarify => "CLARIFY"

def AgentName.value : AgentName → String
  | analyst => "Analyst"
  | visual => "Visual"
  | webSearch => "WebSearch"
  | docRetrieval => "DocRetrieval"
  | clarify => "Clarify"

def AgentName.name : AgentName → String
  | analyst => "ANALYST"
  | visual => "VISUAL"
  | webSearch => "WEB_SEARCH"
  | docRetrieval => "DOC_RETRIEVAL"
  | clarify => "CLARIFY"

/-- the routes in the order of the enumeration -/
def RouteName.all : List RouteName := [.simpleAnalyst, .analystThenVisual, .webSearch, .deepResearch, .clarify]

/-- the agents in the order of the enumeration -/
def AgentName.all : List AgentName := [.analyst, .visual, .webSearch, .docRetrieval, .clarify]

inductive CostSensitivity where
  | low
  | medium
  | high
deriving DecidableEq

def CostSensitivity.value : CostSensitivity → String
  | low => "low"
  | medium => "medium"
  | high => "high"

structure PlanningConstraints where
  maxSteps : ℕ
  ignoreMaxSteps : Bool
  preferLowLatency : Bool
  costSensitivity : CostSensitivity
  requireVizWhenChartable : Bool
  allowSqlAnalyst : Bool
  allowWebSearch : Bool
  allowDeepResearch : Bool
  timeboxSeconds : ℕ
  /-- `max_steps` is at least one -/
  positive : 1 ≤ maxSteps

/-- `constraints.model_dump()` -/
def PlanningConstraints.dump (c : PlanningConstraints) : Json :=
  .obj [("max_steps", .int c.maxSteps), ("ignore_max_steps", .bool c.ignoreMaxSteps),
    ("prefer_low_latency", .bool c.preferLowLatency), ("cost_sensitivity", .str c.costSensitivity.value),
    ("require_viz_when_chartable", .bool c.requireVizWhenChartable), ("allow_sql_analyst", .bool c.allowSqlAnalyst),
    ("allow_web_search", .bool c.allowWebSearch), ("allow_deep_research", .bool c.allowDeepResearch),
    ("timebox_seconds", .int c.timeboxSeconds)]

structure PlannerRequest where
  question : String
  context : Option (Dict String Json)
  constraints : PlanningConstraints

def PlannerRequest.contextDict (r : PlannerRequest) : Dict String Json := r.context.getD Dict.empty

structure PlanStep where
  id : String
  agent : AgentName
  input : Dict String Json
  expectedOutput : Dict String Json

structure RouteSignals where
  hasSqlSignals : Bool
  hasVisualCues : Bool
  hasResearchSignals : Bool
  hasWebSearchSignals : Bool
  requiresClarification : Bool
  chartable : Bool
  hasTimeReference : Bool
  hasEntityReference : Bool

structure RouteDecision where
  route : RouteName
  justification : String
  signals : RouteSignals
  assumptions : List String

namespace Router

/-! ## Signals -/

def sqlKeywords : List String :=
  ["show me", "list", "count", "top", "bottom", "average", "avg", "sum", "trend", "growth", "breakdown", "filter",
    "where", "group by", "over time", "compare"]

def visualKeywords : List String :=
  ["chart", "graph", "plot", "visual", "visualise", "visualize", "bar", "line", "dashboard", "heatmap", "scatter",
    "timeline"]

def researchKeywords : List String :=
  ["summarize", "summarise", "synthesis", "whitepaper", "pdf", "doc", "document", "report", "outlook", "insight",
    "industry", "explain why", "root cause", "policy", "memo", "news", "compare reports", "research"]

def webSearchKeywords : List String :=
  ["web", "search the web", "web search", "internet", "online", "google", "bing", "duckduckgo", "news", "headline",
    "article", "press release", "site:", "wikipedia"]

def entityHints : List String :=
  ["fund", "portfolio", "account", "region", "country", "client", "customer", "product", "team", "sector", "strategy",
    "channel", "segment", "asset"]

def timeHints : List String :=
  ["yesterday", "today", "last", "previous", "current", "this", "quarter", "month", "year", "week", "day", "daily",
    "monthly", "ytd", "mtd", "q1", "q2", "q3", "q4", "fy", "202", "20", "2020", "2021", "2022", "2023", "2024", "2025"]

def aggregationHints : List String :=
  ["top", "bottom", "rank", "compare", "by", "versus", "vs", "per", "distribution", "histogram", "trend", "over time",
    "breakdown"]

def ambiguityPhrases : List String :=
  ["show me performance", "show performance", "how are things going", "tell me the performance",
    "give me performance", "show me results", "update me"]

def occursIn (part text : List Char) : Bool := text.tails.any part.isPrefixOf

section Matching

variable [PyText]

/-- whether a text begins with a word character -/
def headWord (cs : List Char) : Bool := (cs.head?.map isWord).getD false

/-- whether a text ends with a word character -/
def lastWord (cs : List Char) : Bool := (cs.getLast?.map isWord).getD false

/-- `\b` before and after the first `n` characters of a text that stands after a word character or not -/
def bounded (afterWord : Bool) (n : ℕ) (cs : List Char) : Bool :=
  afterWord != headWord cs && lastWord (cs.take n) != headWord (cs.drop n)

/-- `re.search` of a pattern with `\b` at both ends: `first` says how long a match at the start of a text is -/
def searchBounded (first : List Char → Option ℕ) : Bool → List Char → Bool
  | _, [] => false
  | afterWord, c :: cs =>
    (first (c :: cs)).any (fun n => bounded afterWord n (c :: cs)) || searchBounded first (isWord c) cs

/-- `\bkeyword\b` -/
def searchKeyword (keyword : String) (text : List Char) : Bool :=
  searchBounded (fun cs => if keyword.toList.isPrefixOf cs then some keyword.length else none) false text

def containsKeyword (text : List Char) (keywords : List String) : Bool :=
  keywords.any fun keyword =>
    if ' ' ∈ keyword.toList then occursIn keyword.toList text else searchKeyword keyword text

end Matching

section Signals

variable [PyDigits]

/-- `_NUMBER_PATTERN` -/
def searchNumber (text : List Char) : Bool :=
  searchBounded (fun cs => if 4 ≤ cs.length ∧ (cs.take 4).all PyDigits.isDecimal then some 4 else none) false text

def splitWords (text : List Char) : List (List Char) := (text.splitOnP isSpace).filter (· ≠ [])

def extractSignals (question : String) : RouteSignals :=
  let lowered := (lower question).toList
  let hasSqlSignals := containsKeyword lowered sqlKeywords ||
    ["select", "sql", "table", "column"].any fun w => searchKeyword w lowered
  let hasVisualCues := containsKeyword lowered visualKeywords
  let hasResearchSignals := containsKeyword lowered researchKeywords
  let hasWebSearchSignals := containsKeyword lowered webSearchKeywords
  let hasEntityReference := containsKeyword lowered entityHints
  { hasSqlSignals
    hasVisualCues
    hasResearchSignals
    hasWebSearchSignals
    hasEntityReference
    hasTimeReference := containsKeyword lowered timeHints || searchNumber lowered
    chartable := hasVisualCues || hasSqlSignals && containsKeyword lowered aggregationHints
    requiresClarification :=
      containsKeyword lowered ambiguityPhrases ||
      (decide ((splitWords lowered).length ≤ 4) && !hasResearchSignals && !hasWebSearchSignals && !hasSqlSignals &&
        !hasEntityReference && !lowered.contains '?') ||
      (occursIn "performance".toList lowered && !hasEntityReference && !hasResearchSignals && !hasWebSearchSignals) }

end Signals

/-! ## Routing requests -/

structure RoutingOverrides where
  forceRoute : Option RouteName
  preferRoutes : List RouteName
  avoidRoutes : List RouteName
  previousRoute : Option RouteName
  requireVisual : Bool
  requireWebSearch : Bool
  requireDeepResearch : Bool
  requireSql : Bool

def RoutingOverrides.none : RoutingOverrides := ⟨.none, [], [], .none, false, false, false, false⟩

/-- `mapping.get(key)` -/
def get (d : Dict String Json) (key : String) : Json := (d.get? key).getD .null

/-- a field that is not set keeps its value -/
theorem get_set_ne (d : Dict String Json) {key other : String} (v : Json) (h : key ≠ other) :
    get (d.set other v) key = get d key := by
  unfold get
  rw [Dict.get?_set_of_ne d v h]

theorem get_set_self (d : Dict String Json) (key : String) (v : Json) : get (d.set key v) key = v := by
  unfold get
  rw [Dict.get?_set_self]
  rfl

/-- the mapping under a key, if there is one -/
def dictAt (d : Dict String Json) (key : String) : Option (Dict String Json) :=
  match d.get? key with
  | some (.obj fields) => some (Dict.ofList fields)
  | _ => none

section Overrides

variable [PyText]

def routeSlug (value : String) : List Char :=
  (lower value).toList.filter fun c => ( 'a' ≤ c && c ≤ 'z') || c.isDigit

def routeAliases : List (String × RouteName) :=
  [("analyst", .simpleAnalyst), ("visual", .analystThenVisual), ("chart", .analystThenVisual),
    ("websearch", .webSearch), ("web", .webSearch), ("research", .deepResearch), ("deepresearch", .deepResearch)]

def normalizeRouteName : Json → Option RouteName
  | .null => none
  | value =>
    let slug := routeSlug value.text
    if slug = [] then none
    else
      (RouteName.all.find? fun r => slug = routeSlug r.value ∨ slug = routeSlug r.name).orElse fun _ =>
        routeAliases.lookup (String.ofList slug)

def normalizeRouteList (value : Json) : List RouteName :=
  if !value.truthy then []
  else
    let items := (match value with
      | .arr items => items
      | v => [v])
    (items.filterMap normalizeRouteName).foldl (fun routes r => if r ∈ routes then routes else routes ++ [r]) []

def forcedRoute (raw : Dict String Json) : Option RouteName :=
  (normalizeRouteName ((get raw "force_route").orElse (get raw "force_tool"))).orElse fun _ =>
    if (get raw "force_web_search").truthy then some .webSearch
    else if (get raw "force_deep_research").truthy then some .deepResearch
    else if (get raw "force_visual").truthy then some .analystThenVisual
    else if (get raw "force_sql").truthy then some .simpleAnalyst
    else if (get raw "force_clarify").truthy then some .clarify
    else none

/-- some flag asks to try another route -/
def retryFlag (raw : Dict String Json) : Bool :=
  (get raw "retry_due_to_error").truthy || (get raw "retry_due_to_empty").truthy ||
    (get raw "retry_due_to_low_sources").truthy

/-- the mapping that routing requests are read from -/
def routingRequest (context : Dict String Json) : Option (Dict String Json) :=
  (dictAt context "routing").or (dictAt context "reasoning")

/-- the requests of one mapping -/
def overridesOf (raw : Dict String Json) : RoutingOverrides :=
  let previousRoute := normalizeRouteName (get raw "previous_route")
  let avoidRoutes := normalizeRouteList (get raw "avoid_routes")
  { forceRoute := forcedRoute raw
    preferRoutes := normalizeRouteList ((get raw "prefer_routes").orElse (get raw "preferred_routes"))
    avoidRoutes := if retryFlag raw then avoidRoutes ++ previousRoute.toList else avoidRoutes
    previousRoute
    requireVisual := (get raw "require_visual").truthy
    requireWebSearch := (get raw "require_web_search").truthy
    requireDeepResearch := (get raw "require_deep_research").truthy
    requireSql := (get raw "require_sql").truthy }

def extractRoutingOverrides (context : Dict String Json) : RoutingOverrides :=
  match routingRequest context with
  | none => .none
  | some raw => overridesOf raw

end Overrides

/-! ## Scores -/

def estimateStepCount (route : RouteName) (signals : RouteSignals) (constraints : PlanningConstraints) : ℕ :=
  match route with
  | .analystThenVisual => 2
  | .deepResearch =>
    1 + (if signals.hasSqlSignals then 1 else 0) +
      (if signals.chartable && constraints.requireVizWhenChartable && signals.hasSqlSignals then 1 else 0)
  | _ => 1

/-- scores in twentieths; every score of the source is a multiple of 0.05 -/
abbrev Score : Type := ℤ

def scoreSimpleAnalyst (s : RouteSignals) : Score :=
  (if s.hasSqlSignals then 60 else 0) + (if s.hasEntityReference then 20 else 0) +
    (if s.hasTimeReference then 20 else 0) + (if s.chartable then 10 else 0) - (if s.hasResearchSignals then 30 else 0)

def scoreAnalystThenVisual (s : RouteSignals) : Score :=
  scoreSimpleAnalyst s + (if s.chartable then 40 else 0) + (if s.hasVisualCues then 30 else 0)

/-- `_score_web_search`; no score is minus infinity -/
def scoreWebSearch (s : RouteSignals) (c : PlanningConstraints) : Option Score :=
  if !s.hasWebSearchSignals then none
  else
    some (60 + (if s.hasResearchSignals then 20 else 0) - (if s.hasSqlSignals then 40 else 0) +
      (if c.preferLowLatency then 10 else 0))

def scoreDeepResearch (s : RouteSignals) (c : PlanningConstraints) : Score :=
  (if s.hasResearchSignals then 70 else if s.hasWebSearchSignals then 24 else -25) +
    (if s.hasSqlSignals then 10 else 20) - (if c.preferLowLatency then 40 else 0) +
    (match c.costSensitivity with
      | .high => -20
      | .low => 10
      | .medium => 0)

/-- the tool category of a route is enabled -/
def enabled (route : RouteName) (c : PlanningConstraints) : Bool :=
  match route with
  | .simpleAnalyst | .analystThenVisual => c.allowSqlAnalyst
  | .webSearch => c.allowWebSearch
  | .deepResearch => c.allowDeepResearch
  | .clarify => true

def routeIsAvailable (route : RouteName) (signals : RouteSignals) (c : PlanningConstraints) : Bool :=
  route = .clarify || enabled route c && decide (estimateStepCount route signals c ≤ c.maxSteps)

/-- the scores of the routes; a route without one is not in `route_scores` or has minus infinity there -/
def initialScores (s : RouteSignals) (c : PlanningConstraints) (route : RouteName) : Option Score :=
  if !routeIsAvailable route s c then none
  else
    match route with
    | .simpleAnalyst => some (scoreSimpleAnalyst s)
    | .analystThenVisual => some (scoreAnalystThenVisual s)
    | .webSearch => scoreWebSearch s c
    | .deepResearch => some (scoreDeepResearch s c)
    | .clarify => none

/-- a score is raised -/
def bump (scores : RouteName → Option Score) (route : RouteName) (amount : Score) : RouteName → Option Score :=
  fun r => if r = route then (scores r).map (· + amount) else scores r

def applyRoutingOverrides (scores : RouteName → Option Score) (o : RoutingOverrides) (c : PlanningConstraints) :
    RouteName → Option Score :=
  let scores := o.previousRoute.elim scores fun r => bump scores r (-20)
  let scores := o.preferRoutes.foldl (fun scores r => bump scores r 30) scores
  let scores := if o.requireVisual && c.allowSqlAnalyst then bump scores .analystThenVisual 50 else scores
  let scores := if o.requireWebSearch && c.allowWebSearch then bump scores .webSearch 50 else scores
  let scores := if o.requireDeepResearch && c.allowDeepResearch then bump scores .deepResearch 40 else scores
  let scores := if o.requireSql && c.allowSqlAnalyst then bump scores .simpleAnalyst 30 else scores
  fun r => if r ∈ o.avoidRoutes then none else scores r

/-- the routes in the order of `_select_best_route` -/
def priority : List RouteName := [.simpleAnalyst, .analystThenVisual, .webSearch, .deepResearch]

/-- a route of the list beats the best one so far -/
def better (scores : RouteName → Option Score) (best : RouteName × Option Score) (route : RouteName) :
    RouteName × Option Score :=
  match scores route, best.2 with
  | some s, none => (route, some s)
  | some s, some b => if b < s then (route, some s) else best
  | none, _ => best

def selectBestRoute (scores : RouteName → Option Score) : RouteName :=
  (priority.foldl (better scores) (.simpleAnalyst, none)).1

def buildJustification (route : RouteName) (s : RouteSignals) : String :=
  match route with
  | .simpleAnalyst =>
    "; ".intercalate (["SQL-friendly intent detected"] ++
      (if s.hasEntityReference then ["entity cues present"] else []) ++
      (if s.hasTimeReference then ["time window specified"] else []) ++
      (if s.chartable && !s.hasVisualCues then ["charting optional; prioritising low latency"] else [])) ++ "."
  | .analystThenVisual =>
    "; ".intercalate (["SQL intent with visualization cues"] ++
      (if s.chartable then ["aggregations suitable for charting"] else [])) ++ "."
  | .webSearch =>
    "; ".intercalate (["Explicit web lookup requested"] ++
      (if s.hasResearchSignals then ["news or external sources referenced"] else [])) ++ "."
  | .deepResearch =>
    "; ".intercalate (["Unstructured research signals dominate"] ++
      (if s.hasSqlSignals then ["will validate with analytics as a follow-up"] else [])) ++ "."
  | .clarify => "Question requires clarification before proceeding."

/-! ## Choosing a route -/

section Choose

variable [PyDigits]

/-- a chartable question is charted without comparing scores -/
def hardRule (s : RouteSignals) (c : PlanningConstraints) : Bool :=
  c.allowSqlAnalyst && c.requireVizWhenChartable && s.chartable && decide (2 ≤ c.maxSteps)

def finalScores (request : PlannerRequest) : RouteName → Option Score :=
  applyRoutingOverrides (initialScores (extractSignals request.question) request.constraints)
    (extractRoutingOverrides request.contextDict) request.constraints

/-- the decision after the forced route: `notes` says that it was unavailable -/
def chooseUnforced (request : PlannerRequest) (notes : List String) : RouteDecision :=
  let c := request.constraints
  let signals := extractSignals request.question
  let overrides := extractRoutingOverrides request.contextDict
  if signals.requiresClarification then
    { route := .clarify
      justification := "Ambiguous intent detected; clarification is required before safe execution."
      signals
      assumptions :=
        (if !signals.hasEntityReference then ["Need specific entity or scope before querying data sources."] else []) ++
        (if !signals.hasTimeReference then ["Need time window to avoid misaligned metrics."] else []) ++ notes }
  else if hardRule signals c then
    ⟨.analystThenVisual, buildJustification .analystThenVisual signals, signals, []⟩
  else
    let scores := finalScores request
    if priority.all fun r => (scores r).isNone then
      ⟨.clarify, "No enabled routes matched the current tool configuration.", signals,
        ["Enable at least one tool category to proceed."]⟩
    else
      let selected := selectBestRoute scores
      { route := selected
        justification := buildJustification selected signals
        signals
        assumptions :=
          (if selected = .analystThenVisual ∧ c.maxSteps < 2 then
            ["Visualization step may be skipped if latency constraints tighten further."] else []) ++
          (if selected = .deepResearch ∧ c.timeboxSeconds ≠ 0 ∧ c.timeboxSeconds < 30 then
            ["Document retrieval scoped to high-signal sources due to tight timebox."] else []) ++
          (if overrides.requireVisual ∧ c.allowSqlAnalyst = false then
            ["Visualization request ignored because SQL analyst tools are disabled."] else []) ++
          (if overrides.requireVisual ∧ c.maxSteps < 2 then
            ["Visualization request ignored due to step limit."] else []) ++ notes }

def chooseRoute (request : PlannerRequest) : RouteDecision :=
  let signals := extractSignals request.question
  match (extractRoutingOverrides request.contextDict).forceRoute with
  | none => chooseUnforced request []
  | some forced =>
    if routeIsAvailable forced signals request.constraints then
      { route := forced
        justification := "Routing override applied: " ++ forced.value ++ "."
        signals
        assumptions :=
          if signals.requiresClarification then ["Proceeding despite ambiguity due to routing override."] else [] }
    else
      chooseUnforced request
        ["Requested route '" ++ forced.value ++ "' unavailable; falling back to best match."]

theorem chooseRoute_congr {a b : PlannerRequest} (hquestion : a.question = b.question)
    (hconstraints : a.constraints = b.constraints)
    (hoverrides : extractRoutingOverrides a.contextDict = extractRoutingOverrides b.contextDict) :
    chooseRoute a = chooseRoute b := by
  unfold chooseRoute chooseUnforced finalScores
  rw [hquestion, hconstraints, hoverrides]

/-! ## What is chosen -/

variable {r : RouteName}

omit [PyDigits] in
/-- a route that is not available has no score, whatever raises scores -/
theorem applyRoutingOverrides_none {scores : RouteName → Option Score} (h : scores r = none)
    (o : RoutingOverrides) (c : PlanningConstraints) : applyRoutingOverrides scores o c r = none := by
  have hbump : ∀ (f : RouteName → Option Score) (q : RouteName) (x : Score), f r = none → bump f q x r = none := by
    intro f q x hf
    unfold bump
    split_ifs
    · rw [hf]
      rfl
    · exact hf
  have hfold : ∀ (l : List RouteName) (f : RouteName → Option Score), f r = none →
      l.foldl (fun scores q => bump scores q 30) f r = none := by
    intro l
    induction l with
    | nil => exact fun _ hf => hf
    | cons q l ih => exact fun f hf => ih _ (hbump f q 30 hf)
  have hprevious : (o.previousRoute.elim scores fun q => bump scores q (-20)) r = none := by
    cases o.previousRoute with
    | none => exact h
    | some q => exact hbump _ q _ h
  have hif : ∀ (b : Bool) (f : RouteName → Option Score) (q : RouteName) (x : Score), f r = none →
      (if b = true then bump f q x else f) r = none := by
    intro b f q x hf
    split_ifs
    · exact hbump f q x hf
    · exact hf
  by_cases havoid : r ∈ o.avoidRoutes
  · exact if_pos havoid
  · refine (if_neg havoid).trans ?_
    exact hif _ _ _ _ (hif _ _ _ _ (hif _ _ _ _ (hif _ _ _ _ (hfold _ _ hprevious))))

omit [PyDigits] in
theorem initialScores_none {s : RouteSignals} {c : PlanningConstraints}
    (h : routeIsAvailable r s c = false) : initialScores s c r = none := by
  unfold initialScores
  rw [h]
  rfl

variable {request : PlannerRequest}

theorem available_of_score (h : (finalScores request r).isSome = true) :
    routeIsAvailable r (extractSignals request.question) request.constraints = true := by
  by_contra hno
  rw [Bool.not_eq_true] at hno
  rw [finalScores, applyRoutingOverrides_none (initialScores_none hno)] at h
  cases h

omit [PyDigits] in
/-- the best route so far has the best score so far, and there is none only if no route of the list has one -/
theorem foldl_better (scores : RouteName → Option Score) (l : List RouteName) (best : RouteName × Option Score)
    (hbest : best.2 = none ∨ scores best.1 = best.2) :
    ((l.foldl (better scores) best).2 = none → best.2 = none ∧ ∀ r ∈ l, scores r = none) ∧
      ((l.foldl (better scores) best).2 = none ∨
        scores (l.foldl (better scores) best).1 = (l.foldl (better scores) best).2) := by
  induction l generalizing best with
  | nil => exact ⟨fun h => ⟨h, fun r hr => absurd hr not_mem_nil⟩, hbest⟩
  | cons r l ih =>
    have hstep : ((better scores best r).2 = none → best.2 = none ∧ scores r = none) ∧
        ((better scores best r).2 = none ∨ scores (better scores best r).1 = (better scores best r).2) := by
      unfold better
      split
      · rename_i s hs hb
        exact ⟨fun h => (by cases h), .inr hs⟩
      · rename_i s b hs hb
        split_ifs
        · exact ⟨fun h => (by cases h), .inr hs⟩
        · refine ⟨fun h => ?_, hbest⟩
          rw [hb] at h
          cases h
      · rename_i hs
        exact ⟨fun h => ⟨h, hs⟩, hbest⟩
    obtain ⟨hnone, hscore⟩ := ih _ hstep.2
    refine ⟨fun h => ?_, hscore⟩
    obtain ⟨hbetter, hrest⟩ := hnone h
    obtain ⟨hb, hr⟩ := hstep.1 hbetter
    rw [forall_mem_cons]
    exact ⟨hb, hr, hrest⟩

omit [PyDigits] in
theorem selectBestRoute_isSome {scores : RouteName → Option Score}
    (h : ¬ (priority.all fun r => (scores r).isNone) = true) : (scores (selectBestRoute scores)).isSome = true := by
  obtain ⟨hnone, hscore⟩ := foldl_better scores priority (.simpleAnalyst, none) (.inl rfl)
  rcases hscore with hempty | hscore
  · exfalso
    refine h (all_eq_true.2 fun r hr => ?_)
    rw [(hnone hempty).2 r hr]
    rfl
  · rw [selectBestRoute, hscore, Option.isSome_iff_ne_none]
    intro hempty
    refine h (all_eq_true.2 fun r hr => ?_)
    rw [(hnone hempty).2 r hr]
    rfl

omit [PyDigits] in
theorem selectBestRoute_mem (scores : RouteName → Option Score) : selectBestRoute scores ∈ priority := by
  have h : ∀ (l : List RouteName) (best : RouteName × Option Score), best.1 ∈ priority → (∀ r ∈ l, r ∈ priority) →
      (l.foldl (better scores) best).1 ∈ priority := by
    intro l
    induction l with
    | nil => exact fun best hbest _ => hbest
    | cons r l ih =>
      intro best hbest hl
      rw [forall_mem_cons] at hl
      refine ih _ ?_ hl.2
      unfold better
      split
      · exact hl.1
      · split_ifs
        · exact hl.1
        · exact hbest
      · exact hbest
  exact h priority _ (by decide) fun _ hr => hr

/-- **Forced routes.** A route that is asked for and available is chosen. -/
theorem chooseRoute_forced (hforce : (extractRoutingOverrides request.contextDict).forceRoute = some r)
    (havailable : routeIsAvailable r (extractSignals request.question) request.constraints = true) :
    (chooseRoute request).route = r := by
  unfold chooseRoute
  rw [hforce]
  simp only
  rw [if_pos havailable]

/-- the route that is chosen without a forced one, and the signals of the decision -/
theorem chooseUnforced_eq (request : PlannerRequest) (notes : List String) :
    (chooseUnforced request notes).signals = extractSignals request.question ∧
      (chooseUnforced request notes).route =
        if (extractSignals request.question).requiresClarification then .clarify
        else if hardRule (extractSignals request.question) request.constraints then .analystThenVisual
        else if priority.all fun r => (finalScores request r).isNone then .clarify
        else selectBestRoute (finalScores request) := by
  unfold chooseUnforced
  by_cases hambiguous : (extractSignals request.question).requiresClarification = true
  · simp only [if_pos hambiguous, and_self]
  · by_cases hhard : hardRule (extractSignals request.question) request.constraints = true
    · simp only [if_neg hambiguous, if_pos hhard, and_self]
    · by_cases hnone : (priority.all fun r => (finalScores request r).isNone) = true
      · simp only [if_neg hambiguous, if_neg hhard, if_pos hnone, and_self]
      · simp only [if_neg hambiguous, if_neg hhard, if_neg hnone, and_self]

/-- without an available forced route the choice is free -/
theorem chooseRoute_unforced (hforce : ∀ r, (extractRoutingOverrides request.contextDict).forceRoute = some r →
      routeIsAvailable r (extractSignals request.question) request.constraints = false) :
    ∃ notes, chooseRoute request = chooseUnforced request notes := by
  unfold chooseRoute
  cases hforced : (extractRoutingOverrides request.contextDict).forceRoute with
  | none => exact ⟨[], rfl⟩
  | some forced =>
    refine ⟨_, if_neg ?_⟩
    rw [hforce forced hforced]
    exact Bool.false_ne_true

/-- the decision carries the signals of the question -/
theorem chooseRoute_signals (request : PlannerRequest) :
    (chooseRoute request).signals = extractSignals request.question := by
  unfold chooseRoute
  cases (extractRoutingOverrides request.contextDict).forceRoute with
  | none => exact (chooseUnforced_eq request []).1
  | some forced =>
    by_cases havailable : routeIsAvailable forced (extractSignals request.question) request.constraints = true
    · simp only [if_pos havailable]
    · simp only [if_neg havailable]
      exact (chooseUnforced_eq request _).1

/-- the routes that are chosen without a forced one are available -/
theorem chooseUnforced_available (request : PlannerRequest) (notes : List String) :
    routeIsAvailable (chooseUnforced request notes).route (extractSignals request.question) request.constraints =
      true := by
  rw [(chooseUnforced_eq request notes).2]
  split_ifs with hambiguous hhard hnone
  · rfl
  · unfold hardRule at hhard
    simp only [Bool.and_eq_true, decide_eq_true_eq] at hhard
    obtain ⟨⟨⟨hallow, _⟩, _⟩, hsteps⟩ := hhard
    unfold routeIsAvailable
    rw [Bool.or_eq_true, Bool.and_eq_true, decide_eq_true_eq]
    exact .inr ⟨hallow, decide_eq_true hsteps⟩
  · rfl
  · exact available_of_score (selectBestRoute_isSome hnone)

/-- **Available routes.** The route that is chosen is available under the constraints. -/
theorem chooseRoute_available (request : PlannerRequest) :
    routeIsAvailable (chooseRoute request).route (extractSignals request.question) request.constraints = true := by
  unfold chooseRoute
  cases (extractRoutingOverrides request.contextDict).forceRoute with
  | none => exact chooseUnforced_available request []
  | some forced =>
    by_cases havailable : routeIsAvailable forced (extractSignals request.question) request.constraints = true
    · simp only [if_pos havailable]
      exact havailable
    · simp only [if_neg havailable]
      exact chooseUnforced_available request _

/-- what makes the router clarify: it is asked to, or the question is ambiguous, or no route is left, and no other
route that is asked for is available -/
def Clarifies (request : PlannerRequest) : Prop :=
  (extractRoutingOverrides request.contextDict).forceRoute = some .clarify ∨
    ((∀ r, (extractRoutingOverrides request.contextDict).forceRoute = some r →
        routeIsAvailable r (extractSignals request.question) request.constraints = false) ∧
      ((extractSignals request.question).requiresClarification = true ∨
        (hardRule (extractSignals request.question) request.constraints = false ∧
          ∀ r ∈ priority, finalScores request r = none)))

/-- **Clarifying.** The router clarifies exactly then. -/
theorem chooseRoute_clarify_iff (request : PlannerRequest) :
    (chooseRoute request).route = .clarify ↔ Clarifies request := by
  have hunforced : ∀ notes, (chooseUnforced request notes).route = .clarify ↔
      ((extractSignals request.question).requiresClarification = true ∨
        (hardRule (extractSignals request.question) request.constraints = false ∧
          ∀ r ∈ priority, finalScores request r = none)) := by
    intro notes
    rw [(chooseUnforced_eq request notes).2]
    split_ifs with hambiguous hhard hnone
    · exact ⟨fun _ => .inl hambiguous, fun _ => rfl⟩
    · rw [hhard]
      refine ⟨fun h => (by cases h), fun h => ?_⟩
      rcases h with h | ⟨h, _⟩
      · exact absurd h hambiguous
      · cases h
    · refine ⟨fun _ => .inr ⟨Bool.eq_false_iff.2 hhard, fun r hr => ?_⟩, fun _ => rfl⟩
      exact Option.isNone_iff_eq_none.1 (all_eq_true.1 hnone r hr)
    · refine ⟨fun h => ?_, fun h => ?_⟩
      · have hmem := selectBestRoute_mem (finalScores request)
        rw [h] at hmem
        exact absurd hmem (by decide)
      · rcases h with h | ⟨_, h⟩
        · exact absurd h hambiguous
        · refine absurd (all_eq_true.2 fun r hr => ?_) hnone
          rw [h r hr]
          rfl
  by_cases hforced : ∃ r, (extractRoutingOverrides request.contextDict).forceRoute = some r ∧
      routeIsAvailable r (extractSignals request.question) request.constraints = true
  · obtain ⟨r, hforce, havailable⟩ := hforced
    rw [chooseRoute_forced hforce havailable, Clarifies, hforce, Option.some_inj]
    refine ⟨.inl, fun h => ?_⟩
    rcases h with h | ⟨hnone, _⟩
    · exact h
    · rw [hnone r rfl] at havailable
      cases havailable
  · have hfree : ∀ r, (extractRoutingOverrides request.contextDict).forceRoute = some r →
        routeIsAvailable r (extractSignals request.question) request.constraints = false :=
      fun r hr => Bool.eq_false_iff.2 fun h => hforced ⟨r, hr, h⟩
    obtain ⟨notes, hroute⟩ := chooseRoute_unforced hfree
    rw [hroute, hunforced]
    refine ⟨fun h => .inr ⟨hfree, h⟩, fun h => ?_⟩
    rcases h with h | ⟨_, h⟩
    · exact absurd ⟨.clarify, h, rfl⟩ hforced
    · exact h

end Choose

end Router

end Langbridge.Orchestrator
