/-
Questions that raise (`AgentApplication.ask_agent`): what they leave of the thread. An exception rolls back a unit of
work; in memory nothing is taken back, and `reset_thread_after_failure` is not called.
-/
import Langbridge.Runtime.AskAgent

namespace Langbridge.Runtime.AskFailures

open Core Core.Raising Runtime.AskAgent List PyText

section Ask

variable [PyText] (E : Env)

/-! ## What a failure should leave -/

/-- the thread is not in processing, and it has the messages, the last message and the metadata it had; a thread that
the question has created awaits the user, if it is there -/
def Restored (req : AskRequest) (before after : ChatStore) : Prop :=
  match req.threadId with
  | some id => ∀ thread, before.threads.get? id = some thread → ∃ thread', after.threads.get? id = some thread' ∧
      thread'.state ≠ .processing ∧ thread'.lastMessageId = thread.lastMessageId ∧ thread'.metadata = thread.metadata ∧
      after.listForThread id = before.listForThread id
  | none => ∀ thread, after.threads.get? E.newThreadId = some thread → thread.state = .awaitingUserInput

/-- nothing raises up to the assistant's message -/
def Answers (req : AskRequest) (agent : Agent) : Prop :=
  (∃ definition, E.definitions.get? agent.id = some definition ∧ definition.llmConnectionId ∈ E.connections) ∧
    strip req.prompt ≠ "" ∧
    raised E [.service, .definition, .validate, .connection, .provider, .runtime, .retrieve, .supervisor, .defaults,
      .assistantMessage] = none

/-- a question that raises does no harm: the thread is not in processing before, and the question is rolled back or has
not begun; one that opens a thread in memory may also be answered, so that only its memories are lost -/
def Harmless (req : AskRequest) (s : ChatStore) : Prop :=
  match req.threadId with
  | some id => ∀ thread, s.threads.get? id = some thread → thread.state ≠ .processing ∧
      (E.backend = .sql ∨ (∀ agent, resolveAgent E req.agentName ≠ .ok agent) ∨ thread.workspaceId ≠ E.workspaceId)
  | none => E.backend = .sql ∨ ∀ agent, resolveAgent E req.agentName = .ok agent → Answers E req agent

/-! ## What the steps do to the stores -/

section Keeping

variable {E} {rel : Asking → Asking → Prop} (hrefl : ∀ a, rel a a) (htrans : ∀ a b c, rel a b → rel b c → rel a c)

omit [PyText] in
include hrefl in
theorem keeps_calls (points : List Point) : Keeps rel (calls E points) := by
  rw [calls]
  split
  · exact Keeps.return hrefl _
  · exact Keeps.raise hrefl _

omit [PyText] in
include hrefl in
theorem keeps_storeCalls (points : List Point) : Keeps rel (storeCalls E points) := by
  rw [storeCalls]
  split
  · exact Keeps.return hrefl _
  · exact keeps_calls hrefl points

omit [PyText] in
include hrefl in
theorem keeps_lift {α : Type} (x : Except String α) : Keeps rel (lift x) := by
  cases x with
  | ok a => exact Keeps.return hrefl a
  | error e => exact Keeps.raise hrefl e

include hrefl htrans in
/-- preparing an answer writes nothing -/
theorem keeps_prepare (threadId agentId : String) : Keeps rel (prepare E threadId agentId) := by
  refine Keeps.bind htrans ?_ fun x => Keeps.bind htrans ?_ fun definition => Keeps.bind htrans ?_ fun _ =>
    Keeps.bind htrans (keeps_calls hrefl _) fun _ => Keeps.bind htrans (keeps_lift hrefl _) fun query =>
      Keeps.bind htrans (keeps_calls hrefl _) fun _ => Keeps.return hrefl _
  · refine Keeps.bind htrans (keeps_storeCalls hrefl _) fun _ => Keeps.get_bind fun a => ?_
    split
    · exact Keeps.raise hrefl _
    · exact Keeps.bind htrans (keeps_storeCalls hrefl _) fun _ => Keeps.bind htrans (keeps_lift hrefl _) fun _ =>
        Keeps.return hrefl _
  · refine Keeps.bind htrans (keeps_calls hrefl _) fun _ => ?_
    split
    · exact Keeps.raise hrefl _
    · exact Keeps.bind htrans (keeps_calls hrefl _) fun _ => Keeps.return hrefl _
  · refine Keeps.bind htrans (keeps_calls hrefl _) fun _ => ?_
    split_ifs
    · exact Keeps.return hrefl _
    · exact Keeps.raise hrefl _

variable (hset : ∀ thread a, rel a (changed E (ChatStore.setThread thread) a))
  (hadd : ∀ message a, rel a (changed E (ChatStore.addMessage message) a))

omit [PyText] in
include hrefl hset in
theorem keeps_assign (thread : Thread) : Keeps rel (assign E thread) := by
  rw [assign]
  split
  · exact Keeps.update (hset thread)
  · exact Keeps.return hrefl _

omit [PyText] in
include hrefl htrans hset in
theorem keeps_save (point : Point) (thread : Thread) : Keeps rel (save E point thread) :=
  Keeps.bind htrans (keeps_storeCalls hrefl _) fun _ => Keeps.update (hset thread)

include hrefl htrans hset hadd in
theorem keeps_execute (threadId agentId : String) : Keeps rel (execute E threadId agentId) := by
  refine Keeps.bind htrans (keeps_prepare hrefl htrans threadId agentId) fun p => Keeps.bind htrans ?_ fun _ =>
    Keeps.bind htrans (keeps_calls hrefl _) fun _ => Keeps.return hrefl _
  exact Keeps.bind htrans (keeps_assign hrefl hset _) fun _ => Keeps.bind htrans (keeps_calls hrefl _) fun _ =>
    Keeps.bind htrans (Keeps.update (hadd _)) fun _ => Keeps.bind htrans (keeps_assign hrefl hset _) fun _ =>
      keeps_save hrefl htrans hset _ _

include hrefl htrans hset hadd in
theorem keeps_askBody (req : AskRequest) (agent : Agent) : Keeps rel (askBody E req agent) := by
  refine Keeps.bind htrans (keeps_storeCalls hrefl _) fun _ => Keeps.bind htrans ?_ fun existing =>
    Keeps.bind htrans ?_ fun thread => Keeps.bind htrans ?_ fun _ => Keeps.bind htrans (keeps_calls hrefl _) fun _ =>
      keeps_execute hrefl htrans hset hadd _ _
  · cases req.threadId with
    | none => exact Keeps.return hrefl _
    | some id =>
      refine Keeps.bind htrans (keeps_storeCalls hrefl _) fun _ => Keeps.get_bind fun a => ?_
      split
      · exact Keeps.raise hrefl _
      · split_ifs
        · exact Keeps.raise hrefl _
        · exact Keeps.return hrefl _
  · cases existing with
    | none => exact Keeps.bind htrans (Keeps.update (hset _)) fun _ => Keeps.return hrefl _
    | some thread =>
      exact Keeps.bind htrans (keeps_assign hrefl hset _) fun _ =>
        Keeps.bind htrans (keeps_save hrefl htrans hset _ _) fun _ => Keeps.return hrefl _
  · exact Keeps.bind htrans (Keeps.update (hadd _)) fun _ => Keeps.bind htrans (keeps_assign hrefl hset _) fun _ =>
      Keeps.bind htrans (keeps_save hrefl htrans hset _ _) fun _ => keeps_storeCalls hrefl _

end Keeping

/-! ## Preparing an answer -/

section Prepare

variable {E} {a a' : Asking} {e : String}

variable {points : List Point}

omit [PyText] in
theorem raised_eq_none : raised E points = none ↔ ∀ p ∈ points, E.raises p = none :=
  findSome?_eq_none_iff

omit [PyText] in
theorem calls_of_none (h : ∀ p ∈ points, E.raises p = none) : calls E points = pure () := by
  rw [calls, raised_eq_none.2 h]

omit [PyText] in
theorem calls_ok {u : Unit} (h : calls E points a = .ok u a') : (∀ p ∈ points, E.raises p = none) ∧ a' = a := by
  rw [calls] at h
  cases hraised : raised E points with
  | none =>
    rw [hraised] at h
    cases h
    exact ⟨raised_eq_none.1 hraised, rfl⟩
  | some e =>
    rw [hraised] at h
    cases h

omit [PyText] in
theorem calls_error (h : calls E points a = .error e a') : (¬ ∀ p ∈ points, E.raises p = none) ∧ a' = a := by
  rw [calls] at h
  cases hraised : raised E points with
  | none =>
    rw [hraised] at h
    cases h
  | some e' =>
    rw [hraised] at h
    cases h
    refine ⟨fun hnone => ?_, rfl⟩
    rw [raised_eq_none.2 hnone] at hraised
    cases hraised

omit [PyText] in
theorem lift_ok {α : Type} {x : Except String α} {v : α} (h : lift x a = .ok v a') : x = .ok v ∧ a' = a := by
  cases x with
  | ok w =>
    cases h
    exact ⟨rfl, rfl⟩
  | error e => cases h

omit [PyText] in
theorem lift_error {α : Type} {x : Except String α} (h : lift x a = .error e a') : x = .error e ∧ a' = a := by
  cases x with
  | ok w => cases h
  | error e =>
    cases h
    exact ⟨rfl, rfl⟩

omit [PyText] in
theorem storeCalls_memory (hmem : E.backend = .memory) (points : List Point) : storeCalls E points = pure () := by
  rw [storeCalls, hmem]

structure Asked (E : Env) (req : AskRequest) (thread : Thread) (s : ChatStore) : Prop where
  stored : s.threads.get? thread.id = some thread
  last : thread.lastMessageId = some E.userMessageId
  message : (s.listForThread thread.id).find? (fun m => m.id = E.userMessageId) = some (userMessage E req thread.id)

theorem extractUserQuery_userMessage (req : AskRequest) (threadId : String) :
    extractUserQuery (userMessage E req threadId) =
      if strip req.prompt ≠ "" then .ok (strip req.prompt)
      else .error ("Thread message " ++ E.userMessageId ++ " does not contain user text.") := by
  by_cases hblank : strip req.prompt = ""
  · simp [extractUserQuery, userMessage, Dict.ofList, Dict.get?_set, hblank]
  · simp [extractUserQuery, userMessage, Dict.ofList, Dict.get?_set, hblank]

variable {thread : Thread}

theorem getThread_asked (hmem : E.backend = .memory) {req : AskRequest} (h : Asked E req thread a.stored) :
    getThreadAndLastUserMessage E thread.id a =
      .ok (thread, userMessage E req thread.id, a.stored.listForThread thread.id) a := by
  have hlast : lastUserMessage thread (a.stored.listForThread thread.id) = .ok (userMessage E req thread.id) := by
    have hmessage := mem_of_find?_eq_some h.message
    rw [lastUserMessage]
    cases hlast : (a.stored.listForThread thread.id).getLast? with
    | none =>
      rw [getLast?_eq_none_iff.1 hlast] at hmessage
      cases hmessage
    | some last =>
      simp only [h.last, Option.bind_some, h.message, Option.getD_some]
      rfl
  have hview : view E a = a.stored := by rw [view, hmem]
  have hget : (get : AskM Asking) a = .ok a a := rfl
  rw [getThreadAndLastUserMessage, storeCalls_memory hmem, storeCalls_memory hmem, pure_bind, bind_of_ok hget, hview,
    h.stored]
  simp only [pure_bind]
  rw [hlast]
  rfl

/-- the calls of `prepare` that may raise -/
def preparing : List Point :=
  [.definition, .validate, .connection, .provider, .runtime, .retrieve, .supervisor, .defaults]

/-- nothing raises while an answer is prepared -/
def Prepares (E : Env) (req : AskRequest) (agentId : String) : Prop :=
  (∃ definition, E.definitions.get? agentId = some definition ∧ definition.llmConnectionId ∈ E.connections) ∧
    strip req.prompt ≠ "" ∧ ∀ p ∈ preparing, E.raises p = none

omit [PyText] in
theorem getAgentDefinition_ok {id : String} {definition : AgentDefinition}
    (h : getAgentDefinition E id a = .ok definition a') :
    a' = a ∧ E.definitions.get? id = some definition ∧ E.raises .definition = none ∧ E.raises .validate = none := by
  obtain ⟨_, a₁, hcall, hrest⟩ := bind_ok h
  obtain ⟨hdefinition, rfl⟩ := calls_ok hcall
  cases hfound : E.definitions.get? id with
  | none =>
    rw [hfound] at hrest
    cases hrest
  | some found =>
    rw [hfound] at hrest
    obtain ⟨_, a₂, hcall, hreturn⟩ := bind_ok hrest
    obtain ⟨hvalidate, rfl⟩ := calls_ok hcall
    obtain ⟨rfl, rfl⟩ := EStateM.Result.ok.inj hreturn
    exact ⟨rfl, rfl, hdefinition _ (mem_singleton_self _), hvalidate _ (mem_singleton_self _)⟩

omit [PyText] in
theorem getLlmConnection_ok {id : String} {u : Unit} (h : getLlmConnection E id a = .ok u a') :
    a' = a ∧ id ∈ E.connections ∧ E.raises .connection = none := by
  obtain ⟨_, a₁, hcall, hrest⟩ := bind_ok h
  obtain ⟨hconnection, rfl⟩ := calls_ok hcall
  split_ifs at hrest with hin
  · obtain ⟨-, rfl⟩ := EStateM.Result.ok.inj hrest
    exact ⟨rfl, hin, hconnection _ (mem_singleton_self _)⟩
  · cases hrest

theorem prepare_ok (hmem : E.backend = .memory) {req : AskRequest}
    (hasked : Asked E req thread a.stored) {agentId : String} {p : Prepared}
    (h : prepare E thread.id agentId a = .ok p a') : a' = a ∧ p.thread = thread ∧ Prepares E req agentId := by
  rw [prepare, bind_of_ok (getThread_asked hmem hasked)] at h
  obtain ⟨definition, a₁, hdef, h⟩ := bind_ok h
  obtain ⟨rfl, hfound, hdefinition, hvalidate⟩ := getAgentDefinition_ok hdef
  obtain ⟨_, a₂, hconn, h⟩ := bind_ok h
  obtain ⟨rfl, hin, hconnection⟩ := getLlmConnection_ok hconn
  obtain ⟨_, a₃, hcall, h⟩ := bind_ok h
  obtain ⟨hprovider, rfl⟩ := calls_ok hcall
  obtain ⟨query, a₄, hquery, h⟩ := bind_ok h
  obtain ⟨hquery, rfl⟩ := lift_ok hquery
  obtain ⟨_, a₅, hcall, h⟩ := bind_ok h
  obtain ⟨hretrieve, rfl⟩ := calls_ok hcall
  obtain ⟨rfl, rfl⟩ := EStateM.Result.ok.inj h
  have hprompt : strip req.prompt ≠ "" := by
    intro hblank
    rw [extractUserQuery_userMessage, if_neg (not_not.2 hblank)] at hquery
    cases hquery
  refine ⟨rfl, rfl, ⟨definition, hfound, hin⟩, hprompt, fun p hp => ?_⟩
  simp only [preparing, mem_cons, not_mem_nil, or_false] at hp
  rcases hp with rfl | rfl | rfl | hp | hp | hp | hp | hp
  · exact hdefinition
  · exact hvalidate
  · exact hconnection
  · exact hprovider p (by rw [hp]; decide)
  · exact hprovider p (by rw [hp]; decide)
  · exact hretrieve p (by rw [hp]; decide)
  · exact hretrieve p (by rw [hp]; decide)
  · exact hretrieve p (by rw [hp]; decide)

theorem prepare_of_prepares (hmem : E.backend = .memory) {req : AskRequest}
    (hasked : Asked E req thread a.stored) {agentId : String} (h : Prepares E req agentId) :
    ∃ p, prepare E thread.id agentId a = .ok p a := by
  obtain ⟨⟨definition, hdefinition, hin⟩, hprompt, hnone⟩ := h
  have hcalls : ∀ points : List Point, (∀ p ∈ points, p ∈ preparing) → calls E points = pure () :=
    fun points hpoints => calls_of_none fun p hp => hnone p (hpoints p hp)
  refine ⟨⟨thread, userMessage E req thread.id, definition,
    E.respond (strip req.prompt) (a.stored.listForThread thread.id) thread.metadata⟩, ?_⟩
  rw [prepare, bind_of_ok (getThread_asked hmem hasked)]
  simp only [getAgentDefinition, getLlmConnection, hcalls [.definition] (by decide), hcalls [.validate] (by decide),
    hcalls [.connection] (by decide), hcalls [.provider, .runtime] (by decide),
    hcalls [.retrieve, .supervisor, .defaults] (by decide), hdefinition, pure_bind, hin, if_true,
    extractUserQuery_userMessage, if_pos hprompt]
  rfl

end Prepare

/-! ## A question in memory -/

section Memory

variable {E} {req : AskRequest} {s : ChatStore}

/-- the ids that a question draws are new -/
structure Fresh (E : Env) (s : ChatStore) : Prop where
  thread : s.threads.get? E.newThreadId = none
  message : ∀ m ∈ s.messages, m.id ≠ E.userMessageId

def askedThread (E : Env) (thread : Thread) : Thread := { thread with lastMessageId := some E.userMessageId }

/-- a runtime in memory once the question is written -/
def asked (E : Env) (req : AskRequest) (thread : Thread) (s : ChatStore) : Asking :=
  ⟨((s.addMessage (userMessage E req thread.id)).setThread (askedThread E thread)).setThread (askedThread E thread), s⟩

theorem asked_asked (hfresh : Fresh E s) (thread : Thread) (s' : ChatStore) (hmessages : s'.messages = s.messages) :
    Asked E req (askedThread E thread) (asked E req thread s').stored := by
  refine ⟨ChatStore.get?_setThread _ _, rfl, ?_⟩
  have hold : (s.messages.filter fun m => m.threadId = thread.id).find? (fun m => m.id = E.userMessageId) = none := by
    rw [find?_eq_none]
    intro m hm
    simpa using hfresh.message m (mem_of_mem_filter hm)
  have hlist : (asked E req thread s').stored.listForThread thread.id =
      (s.messages.filter fun m => m.threadId = thread.id) ++ [userMessage E req thread.id] := by
    rw [ChatStore.listForThread, asked, ChatStore.messages_setThread, ChatStore.messages_setThread,
      ChatStore.messages_addMessage, hmessages, filter_append]
    simp [userMessage]
  change ((asked E req thread s').stored.listForThread thread.id).find? _ = _
  rw [hlist, find?_append, hold]
  simp [userMessage, askedThread]

omit [PyText] in
/-- a write in memory, and what follows -/
theorem modify_memory {α : Type} (hmem : E.backend = .memory) (f : ChatStore → ChatStore) (k : Unit → AskM α)
    (a : Asking) : (modify (changed E f) >>= k) a = k () ⟨f a.stored, a.session⟩ := by
  have hmodify : (modify (changed E f) : AskM Unit) a = .ok () ⟨f a.stored, a.session⟩ := by
    change EStateM.Result.ok () (changed E f a) = _
    rw [changed, hmem]
  exact bind_of_ok hmodify

/-- what follows the question -/
def answering (E : Env) (threadId agentId : String) : AskM Response := do
  calls E [.service]
  execute E threadId agentId

theorem askBody_new (hmem : E.backend = .memory) (hnone : req.threadId = none) (agent : Agent) :
    ∃ session, askBody E req agent s.begin = answering E E.newThreadId agent.id
      ⟨(asked E req (newThread E req agent) (s.setThread (newThread E req agent))).stored, session⟩ := by
  refine ⟨s, ?_⟩
  simp only [askBody, hnone, existingThread, openThread, askIn, storeCalls, store, assign, save, hmem, pure_bind,
    bind_assoc]
  rw [modify_memory hmem, modify_memory hmem, modify_memory hmem, modify_memory hmem]
  rfl

variable {thread : Thread}

omit [PyText] in
theorem existingThread_memory (hmem : E.backend = .memory) {id : String} (hthread : s.threads.get? id = some thread) :
    existingThread E (some id) s.begin =
      if thread.workspaceId ≠ E.workspaceId then .error "Thread does not belong to the current runtime workspace." s.begin
      else .ok (some thread) s.begin := by
  have hget : (get : AskM Asking) s.begin = .ok s.begin s.begin := rfl
  have hview : view E s.begin = s := by
    rw [view, hmem]
    rfl
  rw [existingThread, storeCalls_memory hmem, pure_bind, bind_of_ok hget, hview, hthread]
  dsimp only
  split_ifs <;> rfl

theorem askBody_existing (hmem : E.backend = .memory) {id : String} (hid : req.threadId = some id)
    (hthread : s.threads.get? id = some thread) (hworkspace : thread.workspaceId = E.workspaceId) (agent : Agent) :
    ∃ s' session, s'.messages = s.messages ∧ askBody E req agent s.begin =
      answering E thread.id agent.id ⟨(asked E req (reopened E req thread) s').stored, session⟩ := by
  refine ⟨(s.setThread (reopened E req thread)).setThread (reopened E req thread), s, rfl, ?_⟩
  have hexisting := existingThread_memory (E := E) hmem hthread
  rw [if_neg (not_not.2 hworkspace)] at hexisting
  rw [askBody, storeCalls_memory hmem, pure_bind, hid, bind_of_ok hexisting]
  simp only [openThread, askIn, storeCalls, store, assign, save, hmem, pure_bind, bind_assoc]
  rw [modify_memory hmem, modify_memory hmem, modify_memory hmem, modify_memory hmem, modify_memory hmem]
  rfl

theorem askBody_mismatch (hmem : E.backend = .memory) {id : String} (hid : req.threadId = some id)
    (hthread : s.threads.get? id = some thread) (hworkspace : thread.workspaceId ≠ E.workspaceId) (agent : Agent) :
    askBody E req agent s.begin =
      .error "Thread does not belong to the current runtime workspace." s.begin := by
  have hexisting := existingThread_memory (E := E) hmem hthread
  rw [if_pos hworkspace] at hexisting
  rw [askBody, storeCalls_memory hmem, pure_bind, hid, bind_of_error hexisting]

theorem recordAnswer_memory (hmem : E.backend = .memory) (p : Prepared) (a : Asking) :
    (∃ a', recordAnswer E p a = .ok () a' ∧ E.raises .assistantMessage = none ∧
      a'.stored.threads.get? p.thread.id = some (answered E p)) ∨
    ∃ e a', recordAnswer E p a = .error e a' ∧ E.raises .assistantMessage ≠ none ∧
      a'.stored.threads.get? p.thread.id = some (persistSupervisorState p.thread p.response) := by
  have hget : ∀ (thread : Thread) (s : ChatStore), thread.id = p.thread.id →
      (s.setThread thread).threads.get? p.thread.id = some thread := by
    intro thread s hid
    rw [← hid, ChatStore.get?_setThread]
  have hid : (answered E p).id = p.thread.id := persistSupervisorState_id p.thread p.response
  simp only [recordAnswer, assign, store, save, storeCalls, hmem, pure_bind, modify_memory hmem]
  cases hraises : E.raises .assistantMessage with
  | none =>
    rw [calls_of_none (by simpa using hraises)]
    simp only [pure_bind, modify_memory hmem]
    refine .inl ⟨_, rfl, trivial, ?_⟩
    rw [changed, hmem]
    exact hget _ _ hid
  | some e =>
    have hcalls : calls E [.assistantMessage] = throw e := by simp [calls, raised, hraises]
    rw [hcalls]
    exact .inr ⟨e, _, rfl, Option.some_ne_none _, hget _ _ (persistSupervisorState_id _ _)⟩

/-- where an answer in memory raises: before the assistant's message, with the thread in processing, or in writing the
memories -/
theorem answering_error (hmem : E.backend = .memory) {a a' : Asking} {e : String} {agentId : String}
    (hasked : Asked E req thread a.stored) (hstate : thread.state = .processing)
    (h : answering E thread.id agentId a = .error e a') :
    ∃ thread', a'.stored.threads.get? thread.id = some thread' ∧
      (thread'.state = .awaitingUserInput ↔
        E.raises .service = none ∧ Prepares E req agentId ∧ E.raises .assistantMessage = none) := by
  have hbefore : ∀ a'', a'' = a → ¬ (E.raises .service = none ∧ Prepares E req agentId) →
      ∃ thread', a''.stored.threads.get? thread.id = some thread' ∧
        (thread'.state = .awaitingUserInput ↔
          E.raises .service = none ∧ Prepares E req agentId ∧ E.raises .assistantMessage = none) := by
    rintro _ rfl hnot
    refine ⟨thread, hasked.stored, ?_⟩
    rw [hstate]
    exact iff_of_false (by decide) fun h => hnot ⟨h.1, h.2.1⟩
  rcases bind_error h with hservice | ⟨_, a₁, hservice, hexecute⟩
  · obtain ⟨hraises, ha⟩ := calls_error hservice
    refine hbefore a' ha fun h => hraises fun p hp => ?_
    rw [mem_singleton.1 hp]
    exact h.1
  obtain ⟨hnone, ha₁⟩ := calls_ok hservice
  rw [ha₁] at hexecute
  rcases bind_error hexecute with hprepare | ⟨p, a₂, hprepare, hrecord⟩
  · have hkeeps : Keeps Eq (prepare E thread.id agentId) :=
      keeps_prepare (fun _ => rfl) (fun _ _ _ h h' => h.trans h') thread.id agentId
    have hfinal := hkeeps a
    rw [hprepare] at hfinal
    refine hbefore a' hfinal.symm fun h => ?_
    obtain ⟨p, hp⟩ := prepare_of_prepares hmem hasked h.2
    rw [hprepare] at hp
    cases hp
  obtain ⟨-, hthread, hprepares⟩ := prepare_ok hmem hasked hprepare
  rcases recordAnswer_memory hmem p a₂ with ⟨a₃, hok, hraises, hget⟩ | ⟨e₃, a₃, herror, hraises, hget⟩
  · rw [bind_of_ok hok] at hrecord
    rcases bind_error hrecord with hwrite | ⟨_, a₄, -, hreturn⟩
    · obtain ⟨-, ha'⟩ := calls_error hwrite
      rw [hthread] at hget
      refine ⟨answered E p, by rw [ha']; exact hget, iff_of_true rfl ?_⟩
      exact ⟨hnone _ (mem_singleton_self _), hprepares, hraises⟩
    · cases hreturn
  · rw [bind_of_error herror] at hrecord
    obtain ⟨-, ha'⟩ := EStateM.Result.error.inj hrecord
    rw [hthread] at hget
    refine ⟨_, by rw [← ha']; exact hget, ?_⟩
    rw [persistSupervisorState_state, hstate]
    exact iff_of_false (by decide) fun h => hraises h.2.2

end Memory

/-! ## Exactness -/

section Exact

variable {E} {req : AskRequest} {s : ChatStore} {a : Asking} {e : String}

/-- a unit of work is rolled back -/
theorem askAgent_sql (hsql : E.backend = .sql) (h : askAgent E req s.begin = .error e a) : a.stored = s := by
  have hset : ∀ (f : ChatStore → ChatStore) (a : Asking), (changed E f a).stored = a.stored := by
    intro f a
    rw [changed, hsql]
  have hrel : ∀ agent, Keeps (fun a b : Asking => b.stored = a.stored) (askBody E req agent) := fun agent =>
    @keeps_askBody _ E (fun a b => b.stored = a.stored) (fun _ => rfl) (fun _ _ _ h h' => h'.trans h)
      (fun _ => hset _) (fun _ => hset _) req agent
  have hkeeps : ∀ agent, (final (askBody E req agent s.begin)).stored = s := fun agent => hrel agent s.begin
  rcases bind_error h with hagent | ⟨agent, a₁, hagent, h₁⟩
  · rw [(lift_error hagent).2]
    rfl
  obtain ⟨-, rfl⟩ := lift_ok hagent
  rcases bind_error h₁ with hbody | ⟨response, a₂, hbody, h₂⟩
  · have hstored := hkeeps agent
    rwa [hbody] at hstored
  have hstored := hkeeps agent
  rw [hbody] at hstored
  rcases bind_error h₂ with hcommit | ⟨_, a₃, -, hreturn⟩
  · rw [commit, hsql] at hcommit
    rcases bind_error hcommit with hcall | ⟨_, a₃, -, hmodify⟩
    · rw [(calls_error hcall).2]
      exact hstored
    · cases hmodify
  · cases hreturn

/-- a question in memory raises in choosing the agent, or after that -/
theorem askAgent_memory (hmem : E.backend = .memory) (h : askAgent E req s.begin = .error e a) :
    ((∀ agent, resolveAgent E req.agentName ≠ .ok agent) ∧ a.stored = s) ∨
      ∃ agent, resolveAgent E req.agentName = .ok agent ∧ askBody E req agent s.begin = .error e a := by
  rcases bind_error h with hagent | ⟨agent, a₁, hagent, h₁⟩
  · obtain ⟨hnone, ha⟩ := lift_error hagent
    refine .inl ⟨fun agent hok => ?_, by rw [ha]; rfl⟩
    rw [hnone] at hok
    cases hok
  obtain ⟨hsome, rfl⟩ := lift_ok hagent
  rcases bind_error h₁ with hbody | ⟨response, a₂, -, h₂⟩
  · exact .inr ⟨agent, hsome, hbody⟩
  · rw [commit, hmem] at h₂
    cases h₂

/-- in memory the messages of a question stay -/
theorem answering_messages (hmem : E.backend = .memory) {threadId agentId : String} {a a' : Asking}
    (h : answering E threadId agentId a = .error e a') : a.stored.messages <+: a'.stored.messages := by
  have hstored : ∀ (f : ChatStore → ChatStore) (a : Asking), (changed E f a).stored = f a.stored := by
    intro f a
    rw [changed, hmem]
  have hkeeps : Keeps (fun a b : Asking => a.stored.messages <+: b.stored.messages)
      (answering E threadId agentId) := by
    have hrefl : ∀ a : Asking, a.stored.messages <+: a.stored.messages := fun _ => prefix_refl _
    have htrans : ∀ a b c : Asking, a.stored.messages <+: b.stored.messages → b.stored.messages <+: c.stored.messages →
        a.stored.messages <+: c.stored.messages := fun _ _ _ => List.IsPrefix.trans
    refine Keeps.bind htrans (keeps_calls hrefl _) fun _ => keeps_execute hrefl htrans ?_ ?_ _ _
    · intro thread a
      rw [hstored]
      exact prefix_refl _
    · intro message a
      rw [hstored]
      exact prefix_append _ _
  have hfinal := hkeeps a
  rwa [h] at hfinal

/-- **A question that raises** leaves the thread as it was exactly if it is harmless. -/
theorem restored_iff (E : Env) (req : AskRequest) (s : ChatStore) (e : String) (a : Asking) (hfresh : Fresh E s)
    (h : askAgent E req s.begin = .error e a) : Restored E req s a.stored ↔ Harmless E req s := by
  have hsame : a.stored = s → ∀ id, req.threadId = some id →
      (Restored E req s a.stored ↔ ∀ thread, s.threads.get? id = some thread → thread.state ≠ .processing) := by
    intro hs id hid
    rw [hs]
    simp only [Restored, hid]
    refine forall₂_congr fun thread hthread => ⟨?_, fun hstate => ⟨thread, hthread, hstate, rfl, rfl, trivial⟩⟩
    rintro ⟨thread', hthread', hstate, -⟩
    rw [hthread] at hthread'
    rwa [Option.some.inj hthread']
  have hgone : a.stored = s → req.threadId = none → Restored E req s a.stored := by
    intro hs hid
    rw [hs]
    simp only [Restored, hid]
    intro thread hthread
    rw [hfresh.thread] at hthread
    cases hthread
  cases hbackend : E.backend with
  | sql =>
    have hs := askAgent_sql hbackend h
    cases hid : req.threadId with
    | none => exact iff_of_true (hgone hs hid) (by simp [Harmless, hid, hbackend])
    | some id =>
      rw [hsame hs id hid]
      simp [Harmless, hid, hbackend]
  | memory =>
    rcases askAgent_memory hbackend h with ⟨hnone, hs⟩ | ⟨agent, hagent, hbody⟩
    · cases hid : req.threadId with
      | none => exact iff_of_true (hgone hs hid) (by simp [Harmless, hid, hnone])
      | some id =>
        rw [hsame hs id hid]
        simp [Harmless, hid, hnone]
    have hagents : ¬ ∀ agent, resolveAgent E req.agentName ≠ .ok agent := fun hnone => hnone agent hagent
    cases hid : req.threadId with
    | none =>
      obtain ⟨session, hrun⟩ := askBody_new hbackend hid agent (s := s)
      rw [hrun] at hbody
      have hasked : Asked E req (askedThread E (newThread E req agent))
          (Asking.mk (asked E req (newThread E req agent) (s.setThread (newThread E req agent))).stored
            session).stored :=
        asked_asked hfresh (newThread E req agent) _ rfl
      obtain ⟨thread', hget, hstate⟩ := answering_error hbackend hasked rfl hbody
      have hleft : Restored E req s a.stored ↔ thread'.state = .awaitingUserInput := by
        simp only [Restored, hid]
        constructor
        · exact fun h => h thread' hget
        · intro hstate thread hthread
          rw [show E.newThreadId = (askedThread E (newThread E req agent)).id from rfl, hget] at hthread
          rwa [← Option.some.inj hthread]
      have hright : Harmless E req s ↔ Answers E req agent := by
        simp [Harmless, hid, hbackend, hagent]
      rw [hleft, hstate, hright, Answers, Prepares, raised_eq_none]
      simp only [preparing, mem_cons, not_mem_nil, or_false, forall_eq_or_imp, forall_eq]
      constructor
      · rintro ⟨hservice, ⟨hdefinition, hprompt, h₁, h₂, h₃, h₄, h₅, h₆, h₇, h₈⟩, hmessage⟩
        exact ⟨hdefinition, hprompt, hservice, h₁, h₂, h₃, h₄, h₅, h₆, h₇, h₈, hmessage⟩
      · rintro ⟨hdefinition, hprompt, hservice, h₁, h₂, h₃, h₄, h₅, h₆, h₇, h₈, hmessage⟩
        exact ⟨hservice, ⟨hdefinition, hprompt, h₁, h₂, h₃, h₄, h₅, h₆, h₇, h₈⟩, hmessage⟩
    | some id =>
      cases hthread : s.threads.get? id with
      | none => exact iff_of_true (by simp [Restored, hid, hthread]) (by simp [Harmless, hid, hthread])
      | some thread =>
        by_cases hworkspace : thread.workspaceId = E.workspaceId
        · obtain ⟨s', session, hmessages, hrun⟩ := askBody_existing hbackend hid hthread hworkspace agent
          rw [hrun] at hbody
          have hgrown : s.messages ++ [userMessage E req thread.id] <+: a.stored.messages := by
            rw [← hmessages]
            exact answering_messages hbackend hbody
          refine iff_of_false (fun hrestored => ?_) ?_
          · simp only [Restored, hid] at hrestored
            obtain ⟨_, -, -, -, -, hlist⟩ := hrestored thread hthread
            have hlen := (hgrown.sublist.filter fun m => decide (m.threadId = id)).length_le
            have hown : [userMessage E req thread.id].filter (fun m => decide (m.threadId = id)) =
                [userMessage E req thread.id] := by
              simp [userMessage, s.keyed id thread hthread]
            rw [filter_append, length_append, hown, length_singleton] at hlen
            have hsame := congrArg List.length hlist
            simp only [ChatStore.listForThread] at hsame
            omega
          · simp [Harmless, hid, hthread, hbackend, hagents, hworkspace]
        · have hs : a.stored = s := by
            rw [askBody_mismatch hbackend hid hthread hworkspace] at hbody
            obtain ⟨-, ha⟩ := EStateM.Result.error.inj hbody
            rw [← ha]
            rfl
          rw [hsame hs id hid]
          simp [Harmless, hid, hthread, hworkspace]

end Exact

end Ask

/-! ## A supervisor that raises -/

section Helper

open scoped Ascii

def failing (backend : Backend) : Env where
  backend := backend
  raises p := if p = .supervisor then some "The planner timed out." else none
  agents := Dict.ofList [("helper", ⟨"a1", "helper"⟩)]
  defaultAgent := none
  definitions := Dict.ofList [("a1", ⟨"a1", "llm"⟩)]
  connections := ["llm"]
  workspaceId := "w1"
  actorId := "u1"
  now := 1
  answeredAt := 2
  newThreadId := "t2"
  userMessageId := "m1"
  assistantMessageId := "m2"
  respond _ _ _ := Dict.ofList [("summary", .str "Completed.")]

def oneThread : ChatStore :=
  ChatStore.setThread ⟨"t1", "w1", some "Sales", .awaitingUserInput, Dict.empty, none, none, "u1", none⟩
    ⟨Dict.empty, [], fun _ _ h => by cases h⟩

def question : AskRequest := ⟨"Revenue by month?", some "helper", some "t1", none⟩

theorem oneThread_fresh (backend : Backend) : Fresh (failing backend) oneThread :=
  ⟨rfl, fun _ hm => (not_mem_nil hm).elim⟩

/-- a unit of work is rolled back -/
theorem supervisor_rolled_back : Fresh (failing .sql) oneThread ∧
    ∃ a, askAgent (failing .sql) question oneThread.begin = .error "The planner timed out." a ∧
      (Restored (failing .sql) question oneThread a.stored ↔ Harmless (failing .sql) question oneThread) :=
  ⟨oneThread_fresh .sql, _, rfl, restored_iff (failing .sql) question oneThread _ _ (oneThread_fresh .sql) rfl⟩

/-- **A supervisor that raises**: in memory the thread stays in processing, and the question in the thread. -/
theorem supervisor_raises : ∃ a thread,
    askAgent (failing .memory) question oneThread.begin = .error "The planner timed out." a ∧
      a.stored.threads.get? "t1" = some thread ∧ thread.state = .processing ∧ thread.lastMessageId = some "m1" ∧
      ¬ Restored (failing .memory) question oneThread a.stored := by
  refine ⟨_, _, rfl, rfl, rfl, rfl, fun h => ?_⟩
  obtain ⟨thread, hthread, hstate, -⟩ := h _ rfl
  cases hthread
  exact hstate rfl

end Helper

end Langbridge.Runtime.AskFailures
