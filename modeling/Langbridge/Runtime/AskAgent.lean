/-
A question to an agent (`AgentApplication.ask_agent`, `AgentExecutionService.execute`) in which every call may raise.

A runtime in memory hands out its stored threads, so what is assigned to a thread is stored at once; in a unit of work
it is a copy until it is saved. The answer is prepared first, then the thread and the assistant's message are written,
and last the memory of the conversation.
-/
import Langbridge.Core.Dict
import Langbridge.Core.Json
import Langbridge.Core.Raising

namespace Langbridge.Runtime.AskAgent

open Core Core.Raising PyText

/-! ## Threads -/

inductive ThreadState where
  | awaitingUserInput
  | processing
  deriving DecidableEq

/-- `RuntimeThread` -/
structure Thread where
  id : String
  workspaceId : String
  title : Option String
  state : ThreadState
  metadata : Dict String Json
  createdAt : Option ℕ
  updatedAt : Option ℕ
  createdBy : String
  lastMessageId : Option String

inductive MessageRole where
  | system
  | user
  | assistant
  | tool
  deriving DecidableEq

/-- `RuntimeThreadMessage` -/
structure Message where
  id : String
  threadId : String
  parentMessageId : Option String
  role : MessageRole
  content : Dict String Json
  modelSnapshot : Option (Dict String Json)
  error : Json
  createdAt : Option ℕ

structure ChatStore where
  threads : Dict String Thread
  messages : List Message
  keyed : ∀ id thread, threads.get? id = some thread → thread.id = id

namespace ChatStore

def setThread (thread : Thread) (s : ChatStore) : ChatStore where
  threads := s.threads.set thread.id thread
  messages := s.messages
  keyed := by
    intro id other h
    rw [Dict.get?_set] at h
    split_ifs at h with hid
    · rw [← Option.some.inj h, hid]
    · exact s.keyed id other h

@[simp] theorem get?_setThread (thread : Thread) (s : ChatStore) :
    (s.setThread thread).threads.get? thread.id = some thread := Dict.get?_set_self _ _ _

@[simp] theorem messages_setThread (thread : Thread) (s : ChatStore) : (s.setThread thread).messages = s.messages := rfl

def addMessage (message : Message) (s : ChatStore) : ChatStore := { s with messages := s.messages ++ [message] }

@[simp] theorem messages_addMessage (message : Message) (s : ChatStore) :
    (s.addMessage message).messages = s.messages ++ [message] := rfl

def listForThread (s : ChatStore) (threadId : String) : List Message := s.messages.filter fun m => m.threadId = threadId

end ChatStore

/-- what `response` holds -/
abbrev Response := Dict String Json

/-- `response.get(key)` -/
def field (response : Response) (key : String) : Json := (response.get? key).getD .null

section Text

variable [PyText]

def hasActiveClarificationState : Json → Bool
  | .obj entries =>
    match entries.lookup "pending_slots" with
    | some (.arr items) => items.any fun
      | .str s => strip s ≠ ""
      | _ => false
    | _ => false
  | _ => false

/-- the text of a question that is asked back -/
def isQuestion : Json → Bool
  | .str s => strip s ≠ ""
  | _ => false

def persistSupervisorState (thread : Thread) (response : Response) : Thread :=
  match field response "diagnostics" with
  | .obj diagnostics =>
    let state := (diagnostics.lookup "clarification_state").getD .null
    if hasActiveClarificationState state || isQuestion ((diagnostics.lookup "clarifying_question").getD .null) then
      { thread with metadata := thread.metadata.set "clarification_state" state }
    else { thread with metadata := thread.metadata.erase "clarification_state" }
  | _ => { thread with metadata := thread.metadata.erase "clarification_state" }

@[simp] theorem persistSupervisorState_id (thread : Thread) (response : Response) :
    (persistSupervisorState thread response).id = thread.id := by
  rw [persistSupervisorState]
  split
  · dsimp only
    split_ifs <;> rfl
  · rfl

@[simp] theorem persistSupervisorState_state (thread : Thread) (response : Response) :
    (persistSupervisorState thread response).state = thread.state := by
  rw [persistSupervisorState]
  split
  · dsimp only
    split_ifs <;> rfl
  · rfl

def extractUserQuery (message : Message) : Except String String :=
  match ["text", "message", "prompt", "query"].findSome? fun key =>
      match message.content.get? key with
      | some (.str value) => if strip value ≠ "" then some (strip value) else none
      | _ => none with
  | some query => .ok query
  | none => .error ("Thread message " ++ message.id ++ " does not contain user text.")

end Text

/-! ## The environment -/

inductive Backend where
  | memory
  | sql
  deriving DecidableEq

/-- the places where a question calls what may raise -/
inductive Point where
  | enter
  | getThread
  | saveThread
  | saveMessage
  | flush
  | service
  | getThreadAgain
  | listMessages
  | definition
  | validate
  | connection
  | provider
  | runtime
  | retrieve
  | supervisor
  | defaults
  | assistantMessage
  | saveAnswer
  | writeBack
  | commit
  deriving DecidableEq

/-- `LocalRuntimeAgentRecord` -/
structure Agent where
  id : String
  name : String

/-- `RuntimeAgentDefinition` -/
structure AgentDefinition where
  id : String
  llmConnectionId : String

/-- where a question is asked: its stores, what each call raises, the ids and times it draws, and how the supervisor
answers a query with some messages and planning metadata -/
structure Env where
  backend : Backend
  raises : Point → Option String
  agents : Dict String Agent
  defaultAgent : Option Agent
  definitions : Dict String AgentDefinition
  connections : List String
  workspaceId : String
  actorId : String
  now : ℕ
  answeredAt : ℕ
  newThreadId : String
  userMessageId : String
  assistantMessageId : String
  respond : String → List Message → Dict String Json → Response

structure AskRequest where
  prompt : String
  agentName : Option String
  threadId : Option String
  title : Option String

/-- a question under way: the stores, and what the open unit of work holds -/
structure Asking where
  stored : ChatStore
  session : ChatStore

abbrev AskM : Type → Type := EStateM String Asking

section Ask

variable [PyText] (E : Env)

/-! ## Stores -/

def raised (points : List Point) : Option String := points.findSome? E.raises

/-- some calls, one after another -/
def calls (points : List Point) : AskM Unit :=
  match raised E points with
  | none => pure ()
  | some e => throw e

/-- calls of the database, which a runtime in memory has not -/
def storeCalls (points : List Point) : AskM Unit :=
  match E.backend with
  | .memory => pure ()
  | .sql => calls E points

/-- the store that the repositories read -/
def view (a : Asking) : ChatStore :=
  match E.backend with
  | .memory => a.stored
  | .sql => a.session

/-- a write through the repositories -/
def changed (f : ChatStore → ChatStore) (a : Asking) : Asking :=
  match E.backend with
  | .memory => { a with stored := f a.stored }
  | .sql => { a with session := f a.session }

def store (f : ChatStore → ChatStore) : AskM Unit := modify (changed E f)

/-- an assignment to the fields of a thread: in memory it is the stored one, else a copy -/
def assign (thread : Thread) : AskM Unit :=
  match E.backend with
  | .memory => store E (ChatStore.setThread thread)
  | .sql => pure ()

/-- `_thread_repository.save` -/
def save (point : Point) (thread : Thread) : AskM Unit := do
  storeCalls E [point]
  store E (ChatStore.setThread thread)

/-- `if uow is not None: await uow.commit()` -/
def commit : AskM Unit :=
  match E.backend with
  | .memory => pure ()
  | .sql => do
    calls E [.commit]
    modify fun a => { a with stored := a.session }

def lift {α : Type} : Except String α → AskM α
  | .ok a => pure a
  | .error e => throw e

/-! ## The answer -/

def lastUserMessage (thread : Thread) (messages : List Message) : Except String Message :=
  match messages.getLast? with
  | none => .error ("Thread " ++ thread.id ++ " has no messages to process.")
  | some last =>
    let last := (thread.lastMessageId.bind fun id => messages.find? fun m => m.id = id).getD last
    if last.role = .user then .ok last
    else
      match (messages.filter fun m => m.role = .user).getLast? with
      | some message => .ok message
      | none => .error ("Thread " ++ thread.id ++ " does not contain a user message.")

def getThreadAndLastUserMessage (threadId : String) : AskM (Thread × Message × List Message) := do
  storeCalls E [.getThreadAgain]
  let a ← get
  match (view E a).threads.get? threadId with
  | none => throw ("Thread with ID " ++ threadId ++ " does not exist.")
  | some thread => do
    storeCalls E [.listMessages]
    let messages := (view E a).listForThread thread.id
    let message ← lift (lastUserMessage thread messages)
    return (thread, message, messages)

def getAgentDefinition (id : String) : AskM AgentDefinition := do
  calls E [.definition]
  match E.definitions.get? id with
  | none => throw ("Agent definition with ID " ++ id ++ " does not exist.")
  | some definition => do
    calls E [.validate]
    return definition

def getLlmConnection (id : String) : AskM Unit := do
  calls E [.connection]
  if id ∈ E.connections then pure () else throw ("LLM connection with ID " ++ id ++ " does not exist.")

/-- what an answer is written from -/
structure Prepared where
  thread : Thread
  userMessage : Message
  definition : AgentDefinition
  response : Response

/-- `execute` up to the response -/
def prepare (threadId agentId : String) : AskM Prepared := do
  let (thread, userMessage, messages) ← getThreadAndLastUserMessage E threadId
  let definition ← getAgentDefinition E agentId
  getLlmConnection E definition.llmConnectionId
  calls E [.provider, .runtime]
  let query ← lift (extractUserQuery userMessage)
  calls E [.retrieve, .supervisor, .defaults]
  return ⟨thread, userMessage, definition, E.respond query messages thread.metadata⟩

def assistantMessage (p : Prepared) : Message where
  id := E.assistantMessageId
  threadId := p.thread.id
  parentMessageId := some p.userMessage.id
  role := .assistant
  content := Dict.ofList
    (["summary", "result", "visualization", "diagnostics"].map fun key => (key, field p.response key))
  modelSnapshot := some (Dict.ofList [("agent_id", .str p.definition.id)])
  error := field p.response "error"
  createdAt := none

def answered (p : Prepared) : Thread :=
  { persistSupervisorState p.thread p.response with
    lastMessageId := some E.assistantMessageId
    state := .awaitingUserInput
    updatedAt := some E.answeredAt }

/-- `_persist_supervisor_state` and `_record_assistant_message` -/
def recordAnswer (p : Prepared) : AskM Unit := do
  assign E (persistSupervisorState p.thread p.response)
  calls E [.assistantMessage]
  store E (ChatStore.addMessage (assistantMessage E p))
  assign E (answered E p)
  save E .saveAnswer (answered E p)

/-- `AgentExecutionService.execute` -/
def execute (threadId agentId : String) : AskM Response := do
  let p ← prepare E threadId agentId
  recordAnswer E p
  calls E [.writeBack]
  return p.response

/-! ## The question -/

def resolveAgent : Option String → Except String Agent
  | some name =>
    if name ≠ "" then
      match E.agents.get? name with
      | some agent => .ok agent
      | none => .error ("Unknown agent '" ++ name ++ "'.")
    else resolveDefault
  | none => resolveDefault
where
  resolveDefault : Except String Agent :=
    match E.defaultAgent.or (E.agents.entries.head?.map Prod.snd) with
    | some agent => .ok agent
    | none => .error "No agents are configured for this local runtime."

def givenTitle (req : AskRequest) : Option String :=
  match req.title with
  | some title => if strip title ≠ "" then some (strip title) else none
  | none => none

def newThread (req : AskRequest) (agent : Agent) : Thread where
  id := E.newThreadId
  workspaceId := E.workspaceId
  title := (givenTitle req).or (some agent.name)
  state := .processing
  metadata := Dict.ofList [("runtime_mode", .str "local_config")]
  createdAt := some E.now
  updatedAt := some E.now
  createdBy := E.actorId
  lastMessageId := none

def reopened (req : AskRequest) (thread : Thread) : Thread :=
  { thread with state := .processing, updatedAt := some E.now, title := (givenTitle req).or thread.title }

def existingThread : Option String → AskM (Option Thread)
  | none => pure none
  | some id => do
    storeCalls E [.getThread]
    let a ← get
    match (view E a).threads.get? id with
    | none => throw ("Thread '" ++ id ++ "' was not found.")
    | some thread =>
      if thread.workspaceId ≠ E.workspaceId then throw "Thread does not belong to the current runtime workspace."
      else return some thread

/-- the thread is added, or set to processing -/
def openThread (req : AskRequest) (agent : Agent) : Option Thread → AskM Thread
  | none => do
    store E (ChatStore.setThread (newThread E req agent))
    return newThread E req agent
  | some thread => do
    assign E (reopened E req thread)
    save E .saveThread (reopened E req thread)
    return reopened E req thread

def userMessage (req : AskRequest) (threadId : String) : Message where
  id := E.userMessageId
  threadId := threadId
  parentMessageId := none
  role := .user
  content := Dict.ofList [("text", .str (strip req.prompt))]
  modelSnapshot := none
  error := .null
  createdAt := some E.now

def askIn (req : AskRequest) (thread : Thread) : AskM Unit := do
  store E (ChatStore.addMessage (userMessage E req thread.id))
  assign E { thread with lastMessageId := some E.userMessageId }
  save E .saveMessage { thread with lastMessageId := some E.userMessageId }
  storeCalls E [.flush]

/-- `AgentApplication.ask_agent` up to the commit -/
def askBody (req : AskRequest) (agent : Agent) : AskM Response := do
  storeCalls E [.enter]
  let existing ← existingThread E req.threadId
  let thread ← openThread E req agent existing
  askIn E req thread
  calls E [.service]
  execute E thread.id agent.id

/-- `AgentApplication.ask_agent` -/
def askAgent (req : AskRequest) : AskM Response := do
  let agent ← lift (resolveAgent E req.agentName)
  let response ← askBody E req agent
  commit E
  return response

def ChatStore.begin (s : ChatStore) : Asking := ⟨s, s⟩

end Ask

end Langbridge.Runtime.AskAgent
