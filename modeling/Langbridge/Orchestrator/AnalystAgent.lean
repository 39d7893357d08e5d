/-
Retries of the analyst agent (`orchestrator/agents/analyst/agent.py`). The agent runs the selected tool, and as long as
its outcome is one to retry and retries are left, asks a language model to rewrite the question and runs the tool again.
The denied assets are looked for in the first question only, and an exception of the model goes through.
-/
import Langbridge.Orchestrator.AccessPolicy
import Langbridge.Orchestrator.ReplyPayloads

namespace Langbridge.Orchestrator.AnalystAgent

open Core AccessPolicy List Option

/-! ## The agent and what it calls -/

structure AnalyticalContext where
  assetType : AssetType
  assetId : String
  assetName : String
  tables : List String := []
  datasetNames : List String := []
  dimensions : List String := []
  measures : List String := []
  metrics : List String := []

structure SqlAnalystTool where
  context : AnalyticalContext

def SqlAnalystTool.name (tool : SqlAnalystTool) : String :=
  if tool.context.assetName = "" then "analytical_asset" else tool.context.assetName

/-- exceptions that leave the agent -/
inductive Raised where
  | notSerializable
  | completion (message : String)
deriving DecidableEq

/-- how the selection of a tool fails -/
inductive SelectionFailure where
  | toolSelectionError (message : String)
  | other (message : String)

/-- the tool's runs and the model's replies in their order, the selector, `json.dumps` and the floats of `json.loads` -/
structure Environment where
  arun : ℕ → AnalystQueryRequest → AnalystQueryResponse
  acomplete : ℕ → String → Except String String
  select : AnalystQueryRequest → Except SelectionFailure SqlAnalystTool
  dumps : DictValue → String
  readFloat : String → String

structure Agent where
  maxRetries : ℕ
  accessScope : AnalyticalAccessScope

/-- `AnalystAgent.__init__` -/
def Agent.init (accessScope : Option AnalyticalAccessScope) (maxRetries : ℤ) : Agent :=
  { maxRetries := (max 0 maxRetries).toNat, accessScope := accessScope.getD {} }

def defaultLimit : ℤ := 1000

def maxLimit : ℤ := 5000

/-! ## Preparing a request -/

def limitAction (rationale : String) (requested applied : ℤ) : AnalystRecoveryAction :=
  { action := "normalize_limit"
    rationale := some rationale
    details := [("requested", .int requested), ("applied", .int applied)] }

def normalizeLimit : Option ℤ → ℤ × Option AnalystRecoveryAction
  | none => (defaultLimit, none)
  | some limit =>
    if limit < 1 then
      (defaultLimit,
        some (limitAction "The requested row limit was below 1, so the default limit was applied." limit defaultLimit))
    else if maxLimit < limit then
      (maxLimit, some (limitAction "The requested row limit was capped to keep the query bounded." limit maxLimit))
    else (limit, none)

def buildFailureResponse (request : AnalystQueryRequest) (status : AnalystOutcomeStatus) (stage : AnalystOutcomeStage)
    (message originalError : String) (recoveryActions : List AnalystRecoveryAction) : AnalystQueryResponse :=
  { analysisPath := .dataset
    assetType := .dataset
    assetId := ""
    assetName := ""
    sqlCanonical := ""
    sqlExecutable := ""
    dialect := "n/a"
    error := some message
    outcome := some
      { status := status
        stage := some stage
        message := some message
        originalError := some originalError
        recoverable := false
        terminal := true
        selectedAssetType := some .dataset
        recoveryActions := recoveryActions
        metadata := [("question", .json (.str request.question)), ("limit", limitValue request.limit),
          ("filters", filterValues request)] } }

section Agent

variable [PyBlank]

open PyText

def limited (request : AnalystQueryRequest) : AnalystQueryRequest :=
  if (normalizeLimit request.limit).2.isSome then { request with limit := some (normalizeLimit request.limit).1 }
  else if request.limit = none then { request with limit := some defaultLimit } else request

def prepareRequest (request : AnalystQueryRequest) :
    AnalystQueryRequest × List AnalystRecoveryAction × Option AnalystQueryResponse :=
  let recoveryActions := (normalizeLimit request.limit).2.toList
  let request := limited request
  let question := strip request.question
  if question = "" then
    (request, recoveryActions, some (buildFailureResponse request .invalidRequest .request
      "The analytical request is empty. Provide the metric or question you want answered." "empty_question"
      recoveryActions))
  else if words (fun c : Char => !c.isAlphanum) question.toList = [] then
    (request, recoveryActions, some (buildFailureResponse request .invalidRequest .request
      "The analytical request does not contain enough usable text to run." "invalid_question_shape" recoveryActions))
  else ({ request with question := question }, recoveryActions, none)

/-! ## Entities in a question -/

/-- one or more characters, as many as lets the rest match; `k` sees the last of them -/
def plus (p : Char → Bool) (k : Char → List Char → Bool) : List Char → Bool
  | [] => false
  | c :: cs => p c && (k c cs || plus p k cs)

/-- `\b` -/
def boundary (before after : Option Char) : Bool := before.any isWord != after.any isWord

/-- `[A-Za-z0-9_-]` -/
def isNameChar (c : Char) : Bool := isTokenChar c || c = '-'

/-- `(?:\s+[A-Z][A-Za-z0-9_-]+)+\b` -/
def moreNames : ℕ → List Char → Bool
  | 0, _ => false
  | n + 1, cs => plus isSpace (fun _ rest =>
      match rest with
      | [] => false
      | c :: rest => c.isUpper &&
          plus isNameChar (fun last rest => boundary (some last) rest.head? || moreNames n rest) rest) cs

/-- capitalised names beside each other -/
def capitalised : Option Char → List Char → Bool
  | _, [] => false
  | before, c :: cs => (boundary before (some c) && c.isUpper &&
      plus isNameChar (fun _ rest => moreNames rest.length rest) cs) || capitalised (some c) cs

/-- a quoted text that is not empty -/
def quoted (quote : Char) : List Char → Bool
  | [] => false
  | c :: cs => (c = quote && (cs.head? ≠ some quote) && decide (quote ∈ cs)) || quoted quote cs

/-- `_ENTITY_HINT_RE.search` -/
def entityHint (question : String) : Bool :=
  quoted '"' question.toList || quoted '\'' question.toList || capitalised none question.toList

/-! ## Outcomes -/

def shouldRetryEmptyResult (request : AnalystQueryRequest) : Bool :=
  request.filters.any (!·.isEmpty) || entityHint request.question

def shouldRetry (agent : Agent) (response : AnalystQueryResponse) (request : AnalystQueryRequest)
    (retryCount : ℕ) : Bool :=
  match response.outcome with
  | none => false
  | some outcome =>
    if agent.maxRetries ≤ retryCount then false
    else
      match outcome.status with
      | .queryError | .executionError => outcome.recoverable
      | .emptyResult => shouldRetryEmptyResult request
      | _ => false

/-- `terminal`, `recoverable` and `message` of `_finalize_response` -/
def closing (agent : Agent) (outcome : AnalystExecutionOutcome) (request : AnalystQueryRequest) (retryCount : ℕ) :
    Bool × Bool × Option String :=
  match outcome.status with
  | .success => (true, false, none)
  | .emptyResult =>
    let terminal := decide (agent.maxRetries ≤ retryCount) || !shouldRetryEmptyResult request
    (terminal, !terminal, orElse outcome.message (some "No rows matched the query."))
  | .queryError | .executionError =>
    let terminal := outcome.terminal || decide (agent.maxRetries ≤ retryCount) || !outcome.recoverable
    (terminal, outcome.recoverable && !terminal, outcome.message)
  | _ => (outcome.terminal, outcome.recoverable, outcome.message)

def finalizeResponse (agent : Agent) (response : AnalystQueryResponse) (request : AnalystQueryRequest)
    (tool : SqlAnalystTool) (retryCount : ℕ) (retryRationale : Option String)
    (recoveryActions : List AnalystRecoveryAction) : AnalystQueryResponse :=
  let outcome := response.outcome.getD { status := .success }
  let (terminal, recoverable, message) := closing agent outcome request retryCount
  { response with
    error := message
    outcome := some
      { outcome with
        message := message
        recoverable := recoverable
        terminal := terminal
        retryAttempted := decide (0 < retryCount)
        rewriteAttempted := recoveryActions.any fun action => action.action = "rewrite_question"
        retryCount := retryCount
        retryRationale := retryRationale
        selectedToolName := some tool.name
        selectedAssetId := some (if response.assetId = "" then tool.context.assetId else response.assetId)
        selectedAssetName := some (if response.assetName = "" then tool.context.assetName else response.assetName)
        selectedAssetType := some response.assetType
        recoveryActions := recoveryActions } }

def markTerminal (agent : Agent) (response : AnalystQueryResponse) (request : AnalystQueryRequest)
    (tool : SqlAnalystTool) (retryCount : ℕ) (retryRationale : Option String)
    (recoveryActions : List AnalystRecoveryAction) : AnalystQueryResponse :=
  let response := finalizeResponse agent response request tool retryCount retryRationale recoveryActions
  let outcome := response.outcome.getD { status := .queryError }
  { response with
    error := outcome.message
    outcome := some { outcome with terminal := true, recoverable := false } }

/-! ## Rewriting a question -/

def mergeConversationContext (base : Option String) (extra : String) : String :=
  let baseText := strip (base.getD "")
  let extraText := strip extra
  if extraText = "" then baseText else if baseText = "" then extraText else baseText ++ "\n\n" ++ extraText

def buildToolContext (tool : SqlAnalystTool) : DictValue :=
  .dict [("asset_name", .json (.str tool.context.assetName)),
    ("asset_type", .json (.str tool.context.assetType.value)), ("tables", texts tool.context.tables),
    ("datasets", texts tool.context.datasetNames), ("dimensions", texts (tool.context.dimensions.take 12)),
    ("measures", texts (tool.context.measures.take 12)), ("metrics", texts (tool.context.metrics.take 12))]

/-- the prompt of `_rewrite_question` -/
def rewritePrompt (env : Environment) (request : AnalystQueryRequest) (outcome : AnalystExecutionOutcome)
    (tool : SqlAnalystTool) : Except Raised String :=
  let sections :=
    ["You rewrite analytical questions after a failed or empty execution.",
      "Return ONLY JSON with keys: rewritten_question, rationale.",
      "Do not add new metrics, dimensions, filters, dates, or entities that were not already implied.",
      "Keep the request bounded and preserve the user's analytical intent.",
      "Selected asset: " ++ tool.name ++ " (" ++ tool.context.assetType.value ++ ")",
      "Analytical context: " ++ env.dumps (buildToolContext tool),
      "Outcome status: " ++ outcome.status.value, "Outcome detail: " ++ outcome.message.getD "",
      "Current question: " ++ request.question]
  let rest :=
    (if request.conversationContext.getD "" = "" then []
      else ["Conversation context: " ++ request.conversationContext.getD ""]) ++
    (if request.errorHistory = [] then []
      else ["Recent errors:\n" ++ "\n".intercalate ((request.errorHistory.drop (request.errorHistory.length - 3)).map
        fun item => "- " ++ item)])
  if request.filters.any (!·.isEmpty) then
    if encodableEntries (request.filters.getD []) then
      .ok ("\n".intercalate (sections ++ ["Filters: " ++ env.dumps (filterValues request)] ++ rest))
    else .error .notSerializable
  else .ok ("\n".intercalate (sections ++ rest))

def rewriting (env : Environment) (reply : String) : Option (String × Option String) :=
  match ReplyPayloads.analystPayload env.readFloat reply with
  | some (.obj entries) =>
    let rewritten := ((entries.lookup "rewritten_question").getD .null).orElse
      ((entries.lookup "question").getD .null)
    match rewritten with
    | .str question =>
      if strip question = "" then none
      else some (strip question, ((entries.lookup "rationale").bind Json.asStr).map strip)
    | _ => none
  | _ => none

def rewriteQuestion (env : Environment) (call : ℕ) (request : AnalystQueryRequest) (outcome : AnalystExecutionOutcome)
    (tool : SqlAnalystTool) : Except Raised (Option (String × Option String)) := do
  let prompt ← rewritePrompt env request outcome tool
  match env.acomplete call prompt with
  | .ok reply => return rewriting env reply
  | .error message => throw (.completion message)

def queryRationale : String := "Retrying once with the prior failure captured as analyst guidance."

def emptyRationale : String := "Retrying once after normalizing the request for an empty result."

def retryAction (status : AnalystOutcomeStatus) (errorText : String) : Option AnalystRecoveryAction :=
  match status with
  | .queryError | .executionError => some
      { action := "retry_query"
        rationale := some queryRationale
        details := [("status", .str status.value), ("error", .str errorText)] }
  | .emptyResult => some
      { action := "retry_empty_result"
        rationale := some emptyRationale
        details := [("status", .str status.value)] }
  | _ => none

/-- the request of a retry before its question is rewritten -/
def retryRequest (request : AnalystQueryRequest) (status : AnalystOutcomeStatus) (errorText : String) :
    AnalystQueryRequest :=
  { request with
    errorHistory := request.errorHistory ++ (if errorText = "" then [] else [errorText])
    errorRetries := 0
    conversationContext :=
      if status = .emptyResult then
        some (mergeConversationContext request.conversationContext
          ("Previous attempt returned no rows. Re-express the request using canonical entity names or less " ++
            "restrictive wording when appropriate, but keep the same metric and time frame."))
      else request.conversationContext }

/-- `outcome.message or response.error or outcome.status.value` -/
def errorTextOf (outcome : AnalystExecutionOutcome) (error : Option String) : String :=
  ((orElse outcome.message (orElse error (some outcome.status.value)))).getD ""

/-- the retry with the question that the model proposed, if that is another question -/
def rewritten (request : AnalystQueryRequest) (action : AnalystRecoveryAction) :
    Option (String × Option String) → AnalystQueryRequest × Option String × List AnalystRecoveryAction
  | none => (request, action.rationale, [action])
  | some (question, rationale) =>
    if lower (strip question) = lower (strip request.question) then (request, action.rationale, [action])
    else ({ request with question := strip question }, action.rationale,
      [action,
        { action := "rewrite_question"
          rationale := orElse rationale (some "Rewrote the analytical request for a bounded retry.")
          details := [("rewritten_question", .str (strip question))] }])

def prepareRetryRequest (env : Environment) (call : ℕ) (request : AnalystQueryRequest)
    (response : AnalystQueryResponse) (tool : SqlAnalystTool) :
    Except Raised (Option (AnalystQueryRequest × Option String × List AnalystRecoveryAction)) :=
  match response.outcome with
  | none => .ok none
  | some outcome =>
    let errorText := errorTextOf outcome response.error
    match retryAction outcome.status errorText with
    | none => .ok none
    | some action =>
      let next := retryRequest request outcome.status errorText
      (rewriteQuestion env call next outcome tool).map fun rewriting => some (rewritten next action rewriting)

/-! ## Rounds -/

/-- the locals of the loop, and the runs of the tool so far -/
structure Round where
  request : AnalystQueryRequest
  retryCount : ℕ
  retryRationale : Option String
  recoveryActions : List AnalystRecoveryAction
  runs : List (AnalystQueryRequest × AnalystQueryResponse)

inductive Ending where
  | returned (response : AnalystQueryResponse)
  | raised (exception : Raised)

structure Answer where
  ending : Ending
  runs : List (AnalystQueryRequest × AnalystQueryResponse)

def roundResponse (agent : Agent) (env : Environment) (tool : SqlAnalystTool) (round : Round) : AnalystQueryResponse :=
  finalizeResponse agent (env.arun round.retryCount round.request) round.request tool round.retryCount
    round.retryRationale round.recoveryActions

/-- one turn of `while True` -/
def step (agent : Agent) (env : Environment) (tool : SqlAnalystTool) (round : Round) : Answer ⊕ Round :=
  let response := roundResponse agent env tool round
  let runs := round.runs ++ [(round.request, env.arun round.retryCount round.request)]
  if shouldRetry agent response round.request round.retryCount then
    match prepareRetryRequest env round.retryCount round.request response tool with
    | .error exception => .inl ⟨.raised exception, runs⟩
    | .ok none => .inl ⟨.returned (markTerminal agent response round.request tool round.retryCount
        round.retryRationale round.recoveryActions), runs⟩
    | .ok (some (request, rationale, actions)) => .inr
        { request := request
          retryCount := round.retryCount + 1
          retryRationale := rationale
          recoveryActions := round.recoveryActions ++ actions
          runs := runs }
  else .inl ⟨.returned response, runs⟩

/-- the loop, for at most `fuel` turns -/
def loop (agent : Agent) (env : Environment) (tool : SqlAnalystTool) : ℕ → Round → Option Answer
  | 0, _ => none
  | fuel + 1, round =>
    match step agent env tool round with
    | .inl answer => some answer
    | .inr next => loop agent env tool fuel next

def firstRound (request : AnalystQueryRequest) (recoveryActions : List AnalystRecoveryAction) : Round :=
  { request := request, retryCount := 0, retryRationale := none, recoveryActions := recoveryActions, runs := [] }

/-- `answer_with_request_async` -/
def answerWithRequest (agent : Agent) (env : Environment) (fuel : ℕ) (request : AnalystQueryRequest) : Option Answer :=
  match prepareRequest { request with errorRetries := 0 } with
  | (_, _, some invalidResponse) => some ⟨.returned invalidResponse, []⟩
  | (prepared, recoveryActions, none) =>
    match agent.accessScope.matchDeniedRequest prepared.question prepared.filters with
    | some deniedAsset => some ⟨.returned (buildAccessDeniedResponse prepared agent.accessScope (some deniedAsset)
        recoveryActions), []⟩
    | none =>
      match env.select prepared with
      | .error (.toolSelectionError message) => some ⟨.returned (buildFailureResponse prepared .selectionError
          .selection message message recoveryActions), []⟩
      | .error (.other message) => some ⟨.returned (buildFailureResponse prepared .selectionError .selection
          "Failed to select an analytical context for this request." message recoveryActions), []⟩
      | .ok tool => loop agent env tool fuel (firstRound prepared recoveryActions)

/-! ## What a round does -/

/-- the statuses that a tool reports for a query it has run -/
def Reported (response : AnalystQueryResponse) : Prop :=
  ∃ outcome, response.outcome = some outcome ∧
    outcome.status ∈ [AnalystOutcomeStatus.success, .emptyResult, .queryError, .executionError]

def listedAs (response : AnalystQueryResponse) : AnalystRecoveryAction :=
  match response.outcome with
  | none => { action := "" }
  | some outcome =>
    if outcome.status = .emptyResult then
      { action := "retry_empty_result"
        rationale := some emptyRationale
        details := [("status", .str "empty_result")] }
    else
      { action := "retry_query"
        rationale := some queryRationale
        details := [("status", .str outcome.status.value),
          ("error", .str (if outcome.message.getD "" = "" then outcome.status.value else outcome.message.getD ""))] }

def isRetry (action : AnalystRecoveryAction) : Bool :=
  action.action = "retry_query" || action.action = "retry_empty_result"

/-- a response that ends a request after some rounds: that of the last run but for its outcome, which is final -/
structure Final (last response : AnalystQueryResponse) (retryCount : ℕ) (actions : List AnalystRecoveryAction) :
    Prop where
  same : { response with error := last.error, outcome := last.outcome } = last
  outcome : ∃ final reported, response.outcome = some final ∧ last.outcome = some reported ∧
    final.status = reported.status ∧ final.terminal = true ∧ final.recoverable = false ∧
    final.retryCount = retryCount ∧ final.recoveryActions = actions

omit [PyBlank] in
theorem errorTextOf_message (outcome : AnalystExecutionOutcome) : errorTextOf outcome outcome.message =
    if outcome.message.getD "" = "" then outcome.status.value else outcome.message.getD "" := by
  unfold errorTextOf
  cases outcome.message with
  | none => rfl
  | some message =>
    by_cases hempty : message = ""
    · simp [orElse, hempty]
    · simp [orElse, hempty]

variable {agent : Agent} {env : Environment} {tool : SqlAnalystTool} {round : Round}

variable {outcome : AnalystExecutionOutcome}

omit [PyBlank] in
theorem status_cases (h : outcome.status ∈ [AnalystOutcomeStatus.success, .emptyResult, .queryError, .executionError]) :
    outcome.status = .success ∨ outcome.status = .emptyResult ∨ outcome.status = .queryError ∨
      outcome.status = .executionError := by
  simpa using h

/-- an outcome is final or can be recovered from -/
theorem closing_terminal (agent : Agent)
    (h : outcome.status ∈ [AnalystOutcomeStatus.success, .emptyResult, .queryError, .executionError])
    (request : AnalystQueryRequest) (retryCount : ℕ) :
    (closing agent outcome request retryCount).1 = !(closing agent outcome request retryCount).2.1 := by
  rcases status_cases h with hs | hs | hs | hs <;> simp only [closing, hs, Bool.not_not, Bool.not_false] <;>
    cases outcome.terminal <;> cases outcome.recoverable <;> simp

/-- **A round is tried again** if and only if its outcome can be recovered from. -/
theorem shouldRetry_eq (houtcome : (env.arun round.retryCount round.request).outcome = some outcome)
    (h : outcome.status ∈ [AnalystOutcomeStatus.success, .emptyResult, .queryError, .executionError]) :
    shouldRetry agent (roundResponse agent env tool round) round.request round.retryCount =
      (closing agent outcome round.request round.retryCount).2.1 := by
  simp only [shouldRetry, roundResponse, finalizeResponse, houtcome, getD_some]
  by_cases hmax : agent.maxRetries ≤ round.retryCount
  · rcases status_cases h with hs | hs | hs | hs <;> simp [closing, hs, hmax]
  · rcases status_cases h with hs | hs | hs | hs <;> simp [closing, hs, hmax]

/-- **A round that is not tried again** ends with a final response. -/
theorem final_of_not_shouldRetry (h : Reported (env.arun round.retryCount round.request))
    (hretry : shouldRetry agent (roundResponse agent env tool round) round.request round.retryCount = false) :
    Final (env.arun round.retryCount round.request) (roundResponse agent env tool round) round.retryCount
      round.recoveryActions := by
  obtain ⟨outcome, houtcome, hstatus⟩ := h
  rw [shouldRetry_eq houtcome hstatus] at hretry
  have hterminal := closing_terminal agent hstatus round.request round.retryCount
  rw [hretry, Bool.not_false] at hterminal
  refine ⟨rfl, ?_⟩
  simp only [roundResponse, finalizeResponse, houtcome, getD_some]
  exact ⟨_, outcome, rfl, rfl, rfl, hterminal, hretry, rfl, rfl⟩

/-- **A round that is tried again** has retries left, and its retry is listed. -/
theorem of_shouldRetry (h : Reported (env.arun round.retryCount round.request))
    (hretry : shouldRetry agent (roundResponse agent env tool round) round.request round.retryCount = true) :
    round.retryCount < agent.maxRetries ∧ ∃ outcome, (roundResponse agent env tool round).outcome = some outcome ∧
      retryAction outcome.status (errorTextOf outcome (roundResponse agent env tool round).error) =
        some (listedAs (env.arun round.retryCount round.request)) := by
  obtain ⟨outcome, houtcome, hstatus⟩ := h
  rw [shouldRetry_eq houtcome hstatus] at hretry
  have hleft : round.retryCount < agent.maxRetries := by
    rcases status_cases hstatus with hs | hs | hs | hs <;> simp [closing, hs] at hretry <;> omega
  refine ⟨hleft, ?_⟩
  simp only [roundResponse, finalizeResponse, houtcome, getD_some, Option.some.injEq, exists_eq_left']
  rcases status_cases hstatus with hs | hs | hs | hs
  · simp [closing, hs] at hretry
  · simp [retryAction, listedAs, houtcome, hs, AnalystOutcomeStatus.value]
  · simp only [closing, hs, retryAction, listedAs, houtcome, reduceCtorEq, if_false, errorTextOf_message]
  · simp only [closing, hs, retryAction, listedAs, houtcome, reduceCtorEq, if_false, errorTextOf_message]

/-! ## Runs -/

/-- the rounds that a round leads to -/
def Reaches (agent : Agent) (env : Environment) (tool : SqlAnalystTool) : Round → Round → Prop :=
  Relation.ReflTransGen fun round next => step agent env tool round = .inr next

/-- **What a round must not run into**: if it is tried again, the prompt is made, the model replies, and the question
that the reply proposes is about no denied asset. -/
def Safe (agent : Agent) (env : Environment) (tool : SqlAnalystTool) (round : Round) : Prop :=
  ∀ outcome, (roundResponse agent env tool round).outcome = some outcome →
    shouldRetry agent (roundResponse agent env tool round) round.request round.retryCount = true →
    ∃ prompt reply,
      rewritePrompt env (retryRequest round.request outcome.status
        (errorTextOf outcome (roundResponse agent env tool round).error)) outcome tool = .ok prompt ∧
      env.acomplete round.retryCount prompt = .ok reply ∧
      ∀ question rationale, rewriting env reply = some (question, rationale) →
        agent.accessScope.matchDeniedRequest question round.request.filters = none

/-- **What is promised of a request**: few runs, none about a denied asset, and the response of the last one with a
final outcome that tells all retries. -/
structure Conforms (agent : Agent) (answer : Answer) : Prop where
  bounded : answer.runs.length ≤ agent.maxRetries + 1
  checked : ∀ run ∈ answer.runs, agent.accessScope.matchDeniedRequest run.1.question run.1.filters = none
  returned : ∃ response last actions, answer.ending = .returned response ∧ answer.runs.getLast? = some last ∧
    Final last.2 response (answer.runs.length - 1) actions ∧
    actions.filter isRetry = answer.runs.dropLast.map fun run => listedAs run.2

/-- what holds before each round -/
structure Counted (agent : Agent) (round : Round) : Prop where
  count : round.runs.length = round.retryCount
  bound : round.retryCount ≤ agent.maxRetries
  listed : round.recoveryActions.filter isRetry = round.runs.map fun run => listedAs run.2

/-- what a round that is tried again leads to -/
structure Next (agent : Agent) (env : Environment) (tool : SqlAnalystTool) (round next : Round) : Prop where
  count : next.retryCount = round.retryCount + 1
  runs : next.runs = round.runs ++ [(round.request, env.arun round.retryCount round.request)]
  listed : next.recoveryActions.filter isRetry =
    round.recoveryActions.filter isRetry ++ [listedAs (env.arun round.retryCount round.request)]
  safe : agent.accessScope.matchDeniedRequest round.request.question round.request.filters = none →
    (Safe agent env tool round ↔
      agent.accessScope.matchDeniedRequest next.request.question next.request.filters = none)

variable {action : AnalystRecoveryAction}

omit [PyBlank] in
theorem isRetry_of_retryAction {status : AnalystOutcomeStatus} {errorText : String}
    (h : retryAction status errorText = some action) : isRetry action = true := by
  cases status <;> simp only [retryAction, Option.some.injEq, reduceCtorEq] at h <;> rw [← h] <;> rfl

omit [PyBlank] in
theorem ok_bind {α β : Type} (a : α) (f : α → Except Raised β) : (Except.ok a >>= f) = f a := rfl

theorem rewritten_listed (h : isRetry action = true) (request : AnalystQueryRequest)
    (proposal : Option (String × Option String)) :
    (rewritten request action proposal).2.2.filter isRetry = [action] := by
  rcases proposal with _ | ⟨question, rationale⟩
  · simp [rewritten, h]
  · rw [rewritten]
    split_ifs
    · exact filter_cons_of_pos h
    · exact (filter_cons_of_pos h).trans rfl

/-- the question of a retry is about no denied asset exactly if the proposed one is not -/
theorem rewritten_allowed (agent : Agent) {request : AnalystQueryRequest} {status : AnalystOutcomeStatus}
    {errorText : String}
    (hallowed : agent.accessScope.matchDeniedRequest request.question request.filters = none)
    (proposal : Option (String × Option String)) :
    agent.accessScope.matchDeniedRequest
        (rewritten (retryRequest request status errorText) action proposal).1.question
        (rewritten (retryRequest request status errorText) action proposal).1.filters = none ↔
      ∀ question rationale, proposal = some (question, rationale) →
        agent.accessScope.matchDeniedRequest question request.filters = none := by
  rcases proposal with _ | ⟨question, rationale⟩
  · exact iff_of_true hallowed fun _ _ heq => nomatch heq
  · have hiff : (∀ q r, some (question, rationale) = some (q, r) →
        agent.accessScope.matchDeniedRequest q request.filters = none) ↔
          agent.accessScope.matchDeniedRequest question request.filters = none := by
      constructor
      · exact fun hall => hall question rationale rfl
      · rintro hq q r heq
        cases heq
        exact hq
    rw [hiff, rewritten]
    split_ifs with hsame
    · have hnorm : norm question = norm request.question := hsame
      exact iff_of_true hallowed ((agent.accessScope.matchDeniedRequest_congr hnorm _).trans hallowed)
    · have hnorm : norm (strip question) = norm question := congrArg lower (strip_strip question)
      rw [← agent.accessScope.matchDeniedRequest_congr hnorm]
      exact Iff.rfl

/-- **A round that is tried again** raises or leads to the next one. -/
theorem step_cases (h : Reported (env.arun round.retryCount round.request))
    (hretry : shouldRetry agent (roundResponse agent env tool round) round.request round.retryCount = true) :
    (∃ exception, step agent env tool round = .inl ⟨.raised exception,
        round.runs ++ [(round.request, env.arun round.retryCount round.request)]⟩ ∧ ¬Safe agent env tool round) ∨
      ∃ next, step agent env tool round = .inr next ∧ Next agent env tool round next := by
  obtain ⟨-, outcome, houtcome, haction⟩ := of_shouldRetry h hretry
  have hlisted := isRetry_of_retryAction haction
  set errorText := errorTextOf outcome (roundResponse agent env tool round).error with herror
  set asked := retryRequest round.request outcome.status errorText with hasked
  have hsafe : Safe agent env tool round ↔ ∃ prompt reply, rewritePrompt env asked outcome tool = .ok prompt ∧
      env.acomplete round.retryCount prompt = .ok reply ∧ ∀ question rationale,
        rewriting env reply = some (question, rationale) →
          agent.accessScope.matchDeniedRequest question round.request.filters = none := by
    constructor
    · exact fun hs => hs outcome houtcome hretry
    · intro hs outcome' houtcome' _
      obtain rfl := Option.some.inj (houtcome.symm.trans houtcome')
      exact hs
  simp only [step, hretry, if_true, prepareRetryRequest, houtcome, ← herror, haction, ← hasked]
  cases hprompt : rewritePrompt env asked outcome tool with
  | error exception =>
    have hraise : rewriteQuestion env round.retryCount asked outcome tool = .error exception := by
      rw [rewriteQuestion, hprompt]
      rfl
    refine .inl ⟨exception, by rw [hraise]; rfl, ?_⟩
    rw [hsafe, hprompt]
    rintro ⟨prompt, reply, heq, -⟩
    cases heq
  | ok prompt =>
    cases hreply : env.acomplete round.retryCount prompt with
    | error message =>
      have hraise : rewriteQuestion env round.retryCount asked outcome tool = .error (.completion message) := by
        rw [rewriteQuestion, hprompt, ok_bind, hreply]
        rfl
      refine .inl ⟨.completion message, by rw [hraise]; rfl, ?_⟩
      rw [hsafe, hprompt]
      rintro ⟨prompt', reply, heq, hok, -⟩
      cases heq
      rw [hreply] at hok
      cases hok
    | ok reply =>
      have hrewrite : rewriteQuestion env round.retryCount asked outcome tool = .ok (rewriting env reply) := by
        rw [rewriteQuestion, hprompt, ok_bind, hreply]
        rfl
      have hsafe' : Safe agent env tool round ↔ ∀ question rationale,
          rewriting env reply = some (question, rationale) →
            agent.accessScope.matchDeniedRequest question round.request.filters = none := by
        rw [hsafe]
        constructor
        · rintro ⟨prompt', reply', heq, hok, hall⟩
          cases hprompt.symm.trans heq
          cases hreply.symm.trans hok
          exact hall
        · exact fun hall => ⟨prompt, reply, hprompt, hreply, hall⟩
      rw [hrewrite]
      refine .inr ⟨_, rfl, rfl, rfl, ?_, fun hallowed => ?_⟩
      · exact (filter_append ..).trans (congrArg _ (rewritten_listed hlisted _ _))
      · rw [hsafe']
        exact (rewritten_allowed agent hallowed _).symm

theorem Counted.next (h : Counted agent round) (hleft : round.retryCount < agent.maxRetries) {next : Round}
    (hnext : Next agent env tool round next) : Counted agent next :=
  { count := by rw [hnext.runs, hnext.count, length_append, h.count]; rfl
    bound := by rw [hnext.count]; exact hleft
    listed := by rw [hnext.listed, hnext.runs, h.listed, map_append]; rfl }

/-- a round that ends leads nowhere -/
theorem reaches_of_inl {answer : Answer} (h : step agent env tool round = .inl answer) {r : Round}
    (hr : Reaches agent env tool round r) : r = round := by
  rcases hr.cases_head with heq | ⟨next, hnext, -⟩
  · exact heq.symm
  · rw [h] at hnext
    cases hnext

theorem safe_of_inr {next : Round} (h : step agent env tool round = .inr next) :
    (∀ r, Reaches agent env tool round r → Safe agent env tool r) ↔
      Safe agent env tool round ∧ ∀ r, Reaches agent env tool next r → Safe agent env tool r := by
  constructor
  · exact fun hall => ⟨hall round .refl, fun r hr => hall r (.head h hr)⟩
  · rintro ⟨hsafe, hall⟩ r hr
    rcases hr.cases_head with rfl | ⟨next', hnext, hr⟩
    · exact hsafe
    · rw [h] at hnext
      cases hnext
      exact hall r hr

/-- **A run** ends, its tool runs are those of the rounds, and it keeps what is promised if and only if it is safe. -/
theorem loop_spec (h : ∀ i request, Reported (env.arun i request)) (hcounted : Counted agent round) :
    ∃ answer, (∀ fuel, agent.maxRetries - round.retryCount < fuel → loop agent env tool fuel round = some answer) ∧
      (∃ more, answer.runs = round.runs ++ (round.request, env.arun round.retryCount round.request) :: more) ∧
      ((∀ run ∈ round.runs, agent.accessScope.matchDeniedRequest run.1.question run.1.filters = none) →
        agent.accessScope.matchDeniedRequest round.request.question round.request.filters = none →
        (Conforms agent answer ↔ ∀ r, Reaches agent env tool round r → Safe agent env tool r)) := by
  induction hn : agent.maxRetries - round.retryCount using Nat.strong_induction_on generalizing round with
  | _ n ih =>
    have hreported := h round.retryCount round.request
    have hstop : ∀ answer, step agent env tool round = .inl answer → ∀ fuel, n < fuel →
        loop agent env tool fuel round = some answer := by
      intro answer hstep fuel hfuel
      obtain ⟨fuel, rfl⟩ := Nat.exists_eq_add_of_lt hfuel
      rw [loop, hstep]
    by_cases hretry : shouldRetry agent (roundResponse agent env tool round) round.request round.retryCount = true
    · obtain ⟨hleft, -⟩ := of_shouldRetry hreported hretry
      rcases step_cases hreported hretry with ⟨exception, hstep, hunsafe⟩ | ⟨next, hstep, hnext⟩
      · refine ⟨_, hstop _ hstep, ⟨[], rfl⟩, fun _ _ => iff_of_false ?_ fun hall => hunsafe (hall round .refl)⟩
        rintro ⟨-, -, response, last, actions, hending, -⟩
        cases hending
      · have hcounted' := hcounted.next hleft hnext
        obtain ⟨answer, hloop, ⟨more, hmore⟩, hiff⟩ :=
          ih (agent.maxRetries - next.retryCount) (by rw [hnext.count]; omega) hcounted' rfl
        refine ⟨answer, fun fuel hfuel => ?_, ⟨(next.request, env.arun next.retryCount next.request) :: more, ?_⟩,
          fun hruns hallowed => ?_⟩
        · obtain ⟨fuel, rfl⟩ := Nat.exists_eq_add_of_lt hfuel
          rw [loop, hstep]
          exact hloop _ (by rw [hnext.count]; omega)
        · rw [hmore, hnext.runs]
          simp
        · rw [safe_of_inr hstep, hnext.safe hallowed]
          by_cases hnextAllowed :
              agent.accessScope.matchDeniedRequest next.request.question next.request.filters = none
          · rw [hiff ?_ hnextAllowed]
            · exact (and_iff_right hnextAllowed).symm
            · intro run hrun
              rw [hnext.runs, mem_append, mem_singleton] at hrun
              rcases hrun with hrun | rfl
              · exact hruns run hrun
              · exact hallowed
          · refine iff_of_false (fun hconf => hnextAllowed ?_) fun hall => hnextAllowed hall.1
            exact hconf.checked (next.request, env.arun next.retryCount next.request) (by rw [hmore]; simp)
    · rw [Bool.not_eq_true] at hretry
      have hstep : step agent env tool round = .inl ⟨.returned (roundResponse agent env tool round),
          round.runs ++ [(round.request, env.arun round.retryCount round.request)]⟩ := by
        simp only [step, hretry, Bool.false_eq_true, if_false]
      refine ⟨_, hstop _ hstep, ⟨[], rfl⟩, fun hruns hallowed => iff_of_true ⟨?_, ?_, ?_⟩ ?_⟩
      · rw [length_append, hcounted.count]
        exact Nat.succ_le_succ hcounted.bound
      · intro run hrun
        rcases mem_append.1 hrun with hrun | hrun
        · exact hruns run hrun
        · rw [mem_singleton.1 hrun]
          exact hallowed
      · refine ⟨_, _, round.recoveryActions, rfl, getLast?_concat .., ?_, ?_⟩
        · rw [length_append, hcounted.count]
          exact final_of_not_shouldRetry hreported hretry
        · rw [dropLast_concat]
          exact hcounted.listed
      · intro r hr outcome _ hagain
        rw [reaches_of_inl hstep hr, hretry] at hagain
        cases hagain

/-- nothing is tried again before the first round -/
theorem prepareRequest_actions (request : AnalystQueryRequest) :
    (prepareRequest request).2.1.filter isRetry = [] := by
  have haction : (normalizeLimit request.limit).2.toList.filter isRetry = [] := by
    unfold normalizeLimit
    split
    · rfl
    · split_ifs <;> rfl
  unfold prepareRequest
  dsimp only
  split_ifs <;> exact haction

/-- **A request that selects a tool**: its run ends, and keeps what is promised if and only if no round that is tried
again runs into an exception or a question about a denied asset. -/
theorem answers_iff (agent : Agent) (env : Environment) (request prepared : AnalystQueryRequest)
    (recoveryActions : List AnalystRecoveryAction) (tool : SqlAnalystTool)
    (hprepared : prepareRequest { request with errorRetries := 0 } = (prepared, recoveryActions, none))
    (hallowed : agent.accessScope.matchDeniedRequest prepared.question prepared.filters = none)
    (hselected : env.select prepared = .ok tool) (hreported : ∀ i request, Reported (env.arun i request)) :
    ∃ answer, (∀ fuel, agent.maxRetries < fuel → answerWithRequest agent env fuel request = some answer) ∧
      (Conforms agent answer ↔
        ∀ round, Reaches agent env tool (firstRound prepared recoveryActions) round → Safe agent env tool round) := by
  have hlisted : recoveryActions.filter isRetry = [] := by
    have hactions := prepareRequest_actions { request with errorRetries := 0 }
    rwa [hprepared] at hactions
  have hcounted : Counted agent (firstRound prepared recoveryActions) := ⟨rfl, Nat.zero_le _, hlisted⟩
  obtain ⟨answer, hloop, -, hiff⟩ := loop_spec hreported hcounted
  refine ⟨answer, fun fuel hfuel => ?_, hiff (fun run hrun => nomatch hrun) hallowed⟩
  rw [answerWithRequest, hprepared]
  simp only [hallowed, hselected]
  exact hloop fuel hfuel

end Agent

/-! ## A question that the model wrote -/

section Payroll

open scoped Ascii

def payroll : AnalyticalAccessScope :=
  { deniedAssets := [{ assetType := .dataset, assetId := "1", assetName := String.ofList [ 'p', 'a', 'y'] }] }

def duePayments : AnalystQueryRequest := { question := String.ofList [ 'd', 'u', 'e'] }

def paymentsTool : SqlAnalystTool := { context := { assetType := .dataset, assetId := "2", assetName := "dues" } }

/-- a query that fails each time, and a model that always proposes to ask for the pay -/
def payEnvironment : Environment :=
  { arun := fun _ _ =>
      { analysisPath := .dataset
        assetType := .dataset
        assetId := "2"
        assetName := "dues"
        sqlCanonical := ""
        sqlExecutable := ""
        dialect := "postgres"
        outcome := some { status := .queryError, recoverable := true, terminal := false } }
    acomplete := fun _ _ => .ok (String.ofList
      [ '\x7b', '"', 'q', 'u', 'e', 's', 't', 'i', 'o', 'n', '"', ':', '"', 'p', 'a', 'y', '"', '\x7d'])
    select := fun _ => .ok paymentsTool
    dumps := fun _ => ""
    readFloat := id }

/-- whether the questions of the tool's runs are about a denied asset -/
def deniedRuns (agent : Agent) (answer : Answer) : List Bool :=
  answer.runs.map fun run => (agent.accessScope.matchDeniedRequest run.1.question run.1.filters).isSome

def duePrepared : AnalystQueryRequest := (prepareRequest duePayments).1

theorem prepareRequest_due : prepareRequest { duePayments with errorRetries := 0 } = (duePrepared, [], none) := by
  have hvalid : (prepareRequest duePayments).2.2 = none := isNone_iff_eq_none.1 (by decide +kernel)
  exact Prod.ext rfl (Prod.ext (by rfl) hvalid)

theorem due_allowed : payroll.matchDeniedRequest duePrepared.question duePrepared.filters = none :=
  isNone_iff_eq_none.1 (by decide +kernel)

theorem due_reported (i : ℕ) (request : AnalystQueryRequest) : Reported (payEnvironment.arun i request) :=
  ⟨_, rfl, by decide⟩

/-- a run that ends -/
theorem answers_due : ∃ answer,
    (∀ fuel, 1 < fuel → answerWithRequest (Agent.init payroll 1) payEnvironment fuel duePayments = some answer) ∧
      (Conforms (Agent.init payroll 1) answer ↔ ∀ round,
        Reaches (Agent.init payroll 1) payEnvironment paymentsTool (firstRound duePrepared []) round →
          Safe (Agent.init payroll 1) payEnvironment paymentsTool round) :=
  answers_iff (Agent.init payroll 1) payEnvironment duePayments duePrepared [] paymentsTool prepareRequest_due
    due_allowed rfl due_reported

/-- **A rewritten question is not looked at**: the tool is run with a question about a denied asset. -/
theorem denied_rewrite : ¬∀ (agent : Agent) (env : Environment) (request prepared : AnalystQueryRequest)
    (recoveryActions : List AnalystRecoveryAction) (tool : SqlAnalystTool),
    prepareRequest { request with errorRetries := 0 } = (prepared, recoveryActions, none) →
    agent.accessScope.matchDeniedRequest prepared.question prepared.filters = none →
    env.select prepared = .ok tool → (∀ i request, Reported (env.arun i request)) →
    ∃ answer, (∀ fuel, agent.maxRetries < fuel → answerWithRequest agent env fuel request = some answer) ∧
      Conforms agent answer := by
  intro h
  obtain ⟨answer, hanswer, hconforms⟩ := h (Agent.init payroll 1) payEnvironment duePayments duePrepared []
    paymentsTool prepareRequest_due due_allowed rfl due_reported
  have hruns : ((answerWithRequest (Agent.init payroll 1) payEnvironment 2 duePayments).map
      (deniedRuns (Agent.init payroll 1))) = some [false, true] := by
    decide +kernel
  rw [hanswer 2 (by decide), map_some, Option.some.injEq] at hruns
  have hdenied : true ∈ deniedRuns (Agent.init payroll 1) answer := by
    rw [hruns]
    decide
  obtain ⟨run, hrun, hsome⟩ := mem_map.1 hdenied
  rw [hconforms.checked run hrun] at hsome
  cases hsome

end Payroll

end Langbridge.Orchestrator.AnalystAgent
