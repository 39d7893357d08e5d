/-
The messages of one connection to the ODBC endpoint (`RuntimeOdbcEndpoint._handle_client`), after the startup and with
the payloads decoded. A portal keeps the name of its statement, and `Execute` looks the statement up again. An exception
is written as an error and ends the connection.

`boundMachine` is the protocol as its clients know it: a portal keeps the text that its statement had at `Bind`.

Main results: `executes_bound_iff`, `delivers_iff`.
-/
import Langbridge.Core.Machine
import Langbridge.Runtime.OdbcGateway

namespace Langbridge.Runtime.Odbc

open Core List

/-! ## The server -/

/-- `_PreparedStatement` -/
structure PreparedStatement where
  name : String
  query : String
  parameterCount : ℕ

/-- `_BoundPortal` -/
structure BoundPortal where
  name : String
  statementName : String
  parameters : List (Option String)
  resultFormats : List ℕ

structure ServerState where
  statements : Dict String PreparedStatement
  portals : Dict String BoundPortal

/-- the state of a new connection -/
def ServerState.initial : ServerState := ⟨Dict.empty, Dict.empty⟩

/-- the messages of a client; the targets of `Describe` and `Close` are characters -/
inductive Message where
  | query (text : String)
  | parse (statement text : String) (declared : ℕ)
  | bind (portal statement : String) (parameterFormats : List ℕ) (parameters : List (Option String))
    (resultFormats : List ℕ)
  | describe (target : Char) (name : String)
  | execute (portal : String) (maxRows : ℕ)
  | sync
  | flush
  | close (target : Char) (name : String)
  | terminate
  | other (code : Char)

/-- what the server does: it runs a text, and writes messages -/
inductive Event where
  | ran (query : String) (parameters : List (Option String)) (maxRows : Option ℕ)
  | rowDescription (columns : List (String × ℕ))
  | dataRow (values : List Json)
  | commandComplete (tag : String)
  | emptyQuery
  | parseComplete
  | bindComplete
  | closeComplete
  | parameterDescription (count : ℕ)
  | noData
  | ready
  | error (message : String)

abbrev Outcome (σ : Type) := Option σ × List Event

/-- the state goes on after some events -/
def proceed {σ : Type} (s : σ) (events : List Event) : Outcome σ := (some s, events)

/-- an exception -/
def fail {σ : Type} (message : String) : Outcome σ := (none, [.error message, .ready])

/-- the messages of a result in `_execute_query` -/
def resultEvents (r : OdbcResult) : List Event :=
  if r.columns ≠ [] then .rowDescription r.columns :: (r.rows.map .dataRow ++ [.commandComplete r.commandTag])
  else if r.rows.isEmpty && r.commandTag = "EMPTY" then [.emptyQuery]
  else [.commandComplete r.commandTag]

/-- the format of the bound parameter at a place -/
def parameterFormat (formats : List ℕ) (index : ℕ) : Except String ℕ :=
  match formats with
  | [] => .ok 0
  | [format] => .ok format
  | _ =>
    match formats[index]? with
    | some format => .ok format
    | none => .error "list index out of range"

/-- the checks of the parameters of `Bind` from a place on -/
def checkParameters (formats : List ℕ) : ℕ → List (Option String) → Except String Unit
  | _, [] => .ok ()
  | index, none :: ps => checkParameters formats (index + 1) ps
  | index, some _ :: ps => do
    if (← parameterFormat formats index) ≠ 0 then
      throw "Binary bind parameters are not supported by the runtime ODBC endpoint."
    checkParameters formats (index + 1) ps

def checkBind (parameterFormats : List ℕ) (parameters : List (Option String)) (resultFormats : List ℕ) :
    Except String Unit := do
  checkParameters parameterFormats 0 parameters
  if resultFormats.any (· ≠ 0) then
    throw "Binary result formats are not supported by the runtime ODBC endpoint."

section Server

variable [PyText] (gateway : String → List (Option String) → Option ℕ → Except String OdbcResult)

/-- `_execute_query`, and what is written after it -/
def executeQuery {σ : Type} (s : σ) (query : String) (parameters : List (Option String)) (maxRows : Option ℕ)
    (after : List Event) : Outcome σ :=
  match gateway query parameters maxRows with
  | .error message => (none, [.ran query parameters maxRows, .error message, .ready])
  | .ok r => (some s, .ran query parameters maxRows :: (resultEvents r ++ after))

/-- the `Bind` message -/
def serverBind (s : ServerState) (portal statement : String) (parameterFormats : List ℕ)
    (parameters : List (Option String)) (resultFormats : List ℕ) : Outcome ServerState :=
  match checkBind parameterFormats parameters resultFormats with
  | .error message => fail message
  | .ok () =>
    let formats := if resultFormats = [] then [0] else resultFormats
    proceed { s with portals := s.portals.set portal ⟨portal, statement, parameters, formats⟩ } [.bindComplete]

/-- the `Describe` message -/
def serverDescribe (s : ServerState) (target : Char) (name : String) : Outcome ServerState :=
  if target = 'S' then
    proceed s [.parameterDescription ((s.statements.get? name).elim 0 (·.parameterCount)), .noData]
  else if target = 'P' then proceed s [.noData]
  else fail ("Unsupported describe target '" ++ String.singleton target ++ "'.")

/-- the `Close` message -/
def serverClose (s : ServerState) (target : Char) (name : String) : Outcome ServerState :=
  if target = 'S' then proceed { s with statements := s.statements.erase name } [.closeComplete]
  else if target = 'P' then proceed { s with portals := s.portals.erase name } [.closeComplete]
  else fail ("Unsupported close target '" ++ String.singleton target ++ "'.")

/-- the `Execute` message -/
def serverExecute (s : ServerState) (portal : String) (maxRows : ℕ) : Outcome ServerState :=
  match s.portals.get? portal with
  | none => fail ("Unknown portal '" ++ portal ++ "'.")
  | some p =>
    match s.statements.get? p.statementName with
    | none => fail ("Unknown statement '" ++ p.statementName ++ "'.")
    | some statement => executeQuery gateway s statement.query p.parameters (some maxRows) []

/-- one turn of the loop of `_handle_client` -/
def serverStep (s : ServerState) : Message → Outcome ServerState
  | .terminate => (none, [])
  | .query text => executeQuery gateway s text [] none [.ready]
  | .parse statement text declared =>
    proceed { s with statements := s.statements.set statement ⟨statement, text, max declared (countQueryParameters text)⟩ }
      [.parseComplete]
  | .bind portal statement parameterFormats parameters resultFormats =>
    serverBind s portal statement parameterFormats parameters resultFormats
  | .describe target name => serverDescribe s target name
  | .execute portal maxRows => serverExecute gateway s portal maxRows
  | .sync => proceed s [.ready]
  | .flush => proceed s []
  | .close target name => serverClose s target name
  | .other code => fail ("Unsupported frontend message '" ++ String.singleton code ++ "'.")

def server : Machine ServerState Message Event := ⟨serverStep gateway⟩

/-! ## Portals that keep their text -/

/-- the server with the text that each portal was bound to, where its statement had been parsed -/
structure BoundState where
  server : ServerState
  texts : Dict String (Option String)

def BoundState.initial : BoundState := ⟨ServerState.initial, Dict.empty⟩

/-- the text that a statement name stands for -/
def ServerState.textOf (s : ServerState) (statement : String) : Option String := (s.statements.get? statement).map (·.query)

def BoundState.boundText (t : BoundState) (portal : String) : Option String := (t.texts.get? portal).join

def nextTexts (t : BoundState) : Message → Dict String (Option String)
  | .bind portal statement _ _ _ => t.texts.set portal (t.server.textOf statement)
  | _ => t.texts

/-- `Execute` of the text that the portal was bound to at `Bind` -/
def boundExecute (t : BoundState) (portal : String) (maxRows : ℕ) : Outcome BoundState :=
  match t.server.portals.get? portal with
  | none => fail ("Unknown portal '" ++ portal ++ "'.")
  | some p =>
    match t.boundText portal with
    | none => fail ("Unknown statement '" ++ p.statementName ++ "'.")
    | some text => executeQuery gateway t text p.parameters (some maxRows) []

/-- all messages but `Execute` do what they do in the server -/
def boundStep (t : BoundState) : Message → Outcome BoundState
  | .execute portal maxRows => boundExecute gateway t portal maxRows
  | m => ((serverStep gateway t.server m).1.map fun s => ⟨s, nextTexts t m⟩, (serverStep gateway t.server m).2)

def boundMachine : Machine BoundState Message Event := ⟨boundStep gateway⟩

/-- where a portal is executed, the name of its statement stands for the text that the portal was bound to -/
def Current (t : BoundState) : Message → Prop
  | .execute portal _ =>
    ∀ p, t.server.portals.get? portal = some p → t.server.textOf p.statementName = t.boundText portal
  | _ => True

variable {gateway}

omit [PyText] in
theorem executeQuery_clash {σ τ : Type} (s : σ) (t : τ) {query query' : String} (parameters : List (Option String))
    (maxRows : Option ℕ) (after : List Event) (h : query ≠ query') :
    Machine.StepsClash (executeQuery gateway s query parameters maxRows after)
      (executeQuery gateway t query' parameters maxRows after) := by
  intro o o' hsame
  unfold executeQuery at hsame
  cases hq : gateway query parameters maxRows <;> cases hq' : gateway query' parameters maxRows <;>
    rw [hq, hq'] at hsame <;> exact h (Event.ran.inj (List.cons.inj hsame).1).1

omit [PyText] in
theorem executeQuery_clash_fail {σ τ : Type} (s : σ) (query message : String) (parameters : List (Option String))
    (maxRows : Option ℕ) (after : List Event) :
    Machine.StepsClash (executeQuery gateway s query parameters maxRows after) (fail message : Outcome τ) := by
  intro o o' hsame
  unfold executeQuery fail at hsame
  cases hq : gateway query parameters maxRows <;> rw [hq] at hsame <;> cases (List.cons.inj hsame).1

omit [PyText] in
theorem executeQuery_agree {σ τ : Type} {R : σ → τ → Prop} {s : σ} {t : τ} (h : R s t) (query : String)
    (parameters : List (Option String)) (maxRows : Option ℕ) (after : List Event) :
    Machine.StepsAgree R (executeQuery gateway s query parameters maxRows after)
      (executeQuery gateway t query parameters maxRows after) := by
  unfold executeQuery
  cases gateway query parameters maxRows with
  | error message => exact ⟨rfl, .none⟩
  | ok r => exact ⟨rfl, .some h⟩

def Follows (s : ServerState) (t : BoundState) : Prop := t.server = s

theorem follows_map (t : BoundState) (m : Message) :
    Machine.StepsAgree Follows (serverStep gateway t.server m)
      ((serverStep gateway t.server m).1.map fun s => ⟨s, nextTexts t m⟩, (serverStep gateway t.server m).2) := by
  refine ⟨rfl, ?_⟩
  cases (serverStep gateway t.server m).1 with
  | none => exact .none
  | some s => exact .some rfl

omit [PyText] in
/-- `Execute` of a portal whose statement stands for its text runs that text -/
theorem execute_agree (t : BoundState) (portal : String) (maxRows : ℕ)
    (h : ∀ p, t.server.portals.get? portal = some p → t.server.textOf p.statementName = t.boundText portal) :
    Machine.StepsAgree Follows (serverExecute gateway t.server portal maxRows) (boundExecute gateway t portal maxRows) := by
  unfold serverExecute boundExecute
  cases hportal : t.server.portals.get? portal with
  | none => exact ⟨rfl, .none⟩
  | some p =>
    have htext := h p hportal
    unfold ServerState.textOf at htext
    dsimp only
    rw [← htext]
    cases t.server.statements.get? p.statementName with
    | none => exact ⟨rfl, .none⟩
    | some statement =>
      have hfollows : Follows t.server t := rfl
      exact executeQuery_agree hfollows _ _ _ _

omit [PyText] in
/-- `Execute` of another portal runs another text, or runs one where there is none -/
theorem execute_clash (t : BoundState) (portal : String) (maxRows : ℕ) {p : BoundPortal}
    (hportal : t.server.portals.get? portal = some p) (h : t.server.textOf p.statementName ≠ t.boundText portal) :
    Machine.StepsClash (serverExecute gateway t.server portal maxRows) (boundExecute gateway t portal maxRows) := by
  unfold serverExecute boundExecute
  unfold ServerState.textOf at h
  rw [hportal]
  dsimp only
  cases hstatement : t.server.statements.get? p.statementName with
  | none =>
    cases hbound : t.boundText portal with
    | none =>
      rw [hstatement, hbound] at h
      exact absurd rfl h
    | some text =>
      intro o o' hsame
      exact executeQuery_clash_fail t text _ p.parameters (some maxRows) [] o' o hsame.symm
  | some statement =>
    cases hbound : t.boundText portal with
    | none => exact executeQuery_clash_fail _ _ _ _ _ _
    | some text =>
      rw [hstatement, hbound] at h
      exact executeQuery_clash _ _ _ _ _ fun heq => h (congrArg some heq)

theorem step_agree (s : ServerState) (t : BoundState) (m : Message) (h : Follows s t) (hcurrent : Current t m) :
    Machine.StepsAgree Follows ((server gateway).step s m) ((boundMachine gateway).step t m) := by
  obtain rfl : t.server = s := h
  cases m with
  | execute portal maxRows => exact execute_agree t portal maxRows hcurrent
  | _ => exact follows_map t _

theorem step_clash (s : ServerState) (t : BoundState) (m : Message) (h : Follows s t) (hcurrent : ¬Current t m) :
    Machine.StepsClash ((server gateway).step s m) ((boundMachine gateway).step t m) := by
  obtain rfl : t.server = s := h
  cases m with
  | execute portal maxRows =>
    obtain ⟨p, hp⟩ := not_forall.1 hcurrent
    obtain ⟨hportal, htext⟩ := Classical.not_imp.1 hp
    exact execute_clash t portal maxRows hportal htext
  | _ => exact absurd trivial hcurrent

variable (gateway)

/-- **Portals and the texts they were bound to.** On one connection the server runs and writes what the bound machine
does if and only if, at each `Execute`, the statement name of the portal stands for the text it stood for at `Bind`. -/
theorem executes_bound_iff (ms : List Message) :
    ((server gateway).run ServerState.initial ms).2 = ((boundMachine gateway).run BoundState.initial ms).2 ↔
      (boundMachine gateway).Along Current BoundState.initial ms :=
  Machine.run_out_iff step_agree step_clash rfl

end Server

section Reparsed

open scoped Ascii

/-- every query gives its own text -/
def echo : String → List (Option String) → Option ℕ → Except String OdbcResult :=
  fun query _ _ => .ok ⟨[("text", textOid)], [[.str query]], "SELECT 1"⟩

def reparsed : List Message :=
  [.parse "s" "SELECT 1" 0, .bind "p" "s" [] [] [], .parse "s" "SELECT 2" 0, .execute "p" 0]

def echoed (query : String) : List Event :=
  [.parseComplete, .bindComplete, .parseComplete, .ran query [] (some 0), .rowDescription [("text", textOid)],
    .dataRow [.str query], .commandComplete "SELECT 1"]

/-- **A statement name that is parsed again.** The portal was bound to `SELECT 1`, and its `Execute` runs `SELECT 2`. -/
theorem reparsed_runs_other :
    ((server echo).run ServerState.initial reparsed).2 = echoed "SELECT 2" ∧
      ((boundMachine echo).run BoundState.initial reparsed).2 = echoed "SELECT 1" ∧
      echoed "SELECT 2" ≠ echoed "SELECT 1" := by
  refine ⟨rfl, rfl, ?_⟩
  intro hsame
  unfold echoed at hsame
  simp at hsame

end Reparsed

/-! ## The rows of a portal -/

def Event.isComplete : Event → Bool
  | .commandComplete _ => true
  | _ => false

def Event.row? : Event → Option (List Json)
  | .dataRow values => some values
  | _ => none

/-- the rows written before the first `CommandComplete` -/
def deliveredRows (events : List Event) : List (List Json) := (events.takeWhile fun e => !e.isComplete).filterMap Event.row?

/-- the rows written are the first ones of an evaluation, and all of them where the command is announced as complete -/
def DeliversRows (rows : List (List Json)) (events : List Event) : Prop :=
  deliveredRows events <+: rows ∧ (events.any Event.isComplete = true → deliveredRows events = rows)

/-- the query writes no row and no `CommandComplete` -/
def IsEmptyResult (r : OdbcResult) : Prop := r.columns = [] ∧ (r.rows.isEmpty && r.commandTag = "EMPTY") = true

def writtenRows (r : OdbcResult) : List (List Json) := if r.columns = [] then [] else r.rows

theorem takeWhile_rows (rows : List (List Json)) (tag : String) (more : List Event) :
    (rows.map Event.dataRow ++ .commandComplete tag :: more).takeWhile (fun e => !e.isComplete) =
      rows.map Event.dataRow := by
  induction rows with
  | nil => rfl
  | cons row rows ih => exact congrArg (Event.dataRow row :: ·) ih

theorem filterMap_rows (rows : List (List Json)) : (rows.map Event.dataRow).filterMap Event.row? = rows := by
  induction rows with
  | nil => rfl
  | cons row rows ih => exact congrArg (row :: ·) ih

theorem delivered_result (query : String) (parameters : List (Option String)) (maxRows : Option ℕ) {r : OdbcResult}
    (hr : ¬IsEmptyResult r) (more : List Event) :
    deliveredRows (.ran query parameters maxRows :: (resultEvents r ++ more)) = writtenRows r ∧
      (Event.ran query parameters maxRows :: (resultEvents r ++ more)).any Event.isComplete = true := by
  unfold resultEvents writtenRows deliveredRows
  by_cases hcolumns : r.columns = []
  · have htag : ¬(r.rows.isEmpty && r.commandTag = "EMPTY") = true := fun h => hr ⟨hcolumns, h⟩
    rw [if_neg (not_not.2 hcolumns), if_neg htag, if_pos hcolumns]
    exact ⟨rfl, rfl⟩
  · rw [if_pos hcolumns, if_neg hcolumns, cons_append, append_assoc]
    constructor
    · rw [takeWhile_cons_of_pos rfl, takeWhile_cons_of_pos rfl, singleton_append, takeWhile_rows]
      exact filterMap_rows r.rows
    · rw [any_eq_true]
      refine ⟨.commandComplete r.commandTag, ?_, rfl⟩
      simp

/-- events without rows and without `CommandComplete` -/
theorem delivers_nothing {events : List Event} (h : ∀ e ∈ events, e.isComplete = false ∧ e.row? = none) :
    deliveredRows events = [] ∧ events.any Event.isComplete = false := by
  constructor
  · unfold deliveredRows
    rw [filterMap_eq_nil_iff]
    exact fun e he => (h e (takeWhile_subset _ he)).2
  · rw [any_eq_false]
    intro e he
    rw [(h e he).1]
    exact Bool.false_ne_true

section Rows

variable [PyText] {gateway : String → List (Option String) → Option ℕ → Except String OdbcResult} {s : ServerState}
  {portal : String} {p : BoundPortal} {statement : PreparedStatement}

/-- `Execute` of a portal whose query succeeds -/
theorem execute_step {maxRows : ℕ} {r : OdbcResult} (hportal : s.portals.get? portal = some p)
    (hstatement : s.statements.get? p.statementName = some statement)
    (hr : gateway statement.query p.parameters (some maxRows) = .ok r) :
    (server gateway).step s (.execute portal maxRows) =
      (some s, .ran statement.query p.parameters (some maxRows) :: resultEvents r) := by
  change serverExecute gateway s portal maxRows = _
  unfold serverExecute
  rw [hportal]
  dsimp only
  rw [hstatement]
  dsimp only
  unfold executeQuery
  rw [hr]
  dsimp only
  rw [append_nil]

/-- a run of `Execute` messages over a query that is empty each time -/
theorem run_empty (hportal : s.portals.get? portal = some p)
    (hstatement : s.statements.get? p.statementName = some statement)
    (hempty : ∀ n, ∃ r, gateway statement.query p.parameters (some n) = .ok r ∧ IsEmptyResult r) (limits : List ℕ) :
    ∀ e ∈ ((server gateway).run s (limits.map (Message.execute portal))).2, e.isComplete = false ∧ e.row? = none := by
  induction limits with
  | nil =>
    intro e he
    cases he
  | cons n limits ih =>
    obtain ⟨r, hr, hcolumns, htag⟩ := hempty n
    intro e he
    rw [map_cons, Machine.run_cons_some (execute_step hportal hstatement hr)] at he
    unfold resultEvents at he
    rw [if_neg (not_not.2 hcolumns), if_pos htag] at he
    rcases mem_append.1 he with hhead | hrest
    · rcases mem_cons.1 hhead with rfl | hhead
      · exact ⟨rfl, rfl⟩
      · obtain rfl := mem_singleton.1 hhead
        exact ⟨rfl, rfl⟩
    · exact ih e hrest

/-- a run of `Execute` messages whose first query is not empty ends with it -/
theorem run_delivers {r : OdbcResult} {n : ℕ} (hportal : s.portals.get? portal = some p)
    (hstatement : s.statements.get? p.statementName = some statement)
    (hr : gateway statement.query p.parameters (some n) = .ok r) (hne : ¬IsEmptyResult r) (limits : List ℕ) :
    deliveredRows ((server gateway).run s ((n :: limits).map (Message.execute portal))).2 = writtenRows r ∧
      ((server gateway).run s ((n :: limits).map (Message.execute portal))).2.any Event.isComplete = true := by
  rw [map_cons, Machine.run_cons_some (execute_step hportal hstatement hr)]
  exact delivered_result _ _ _ hne _

end Rows

/-! ### Results under the limit of `Execute` -/

section Limits

variable [PyText] (config : OdbcConfig) (catalog : String → Except String OdbcResult) (P : SqlGuards.SqlParser)
  (print : SqlTree → String) (evaluate : String → Except String SqlPayload)

def firstRows (query : String) (limit : ℕ) : Except String SqlPayload :=
  (evaluate query).map fun payload => { payload with rows := payload.rows.take limit }

/-- the gateway over the runtime -/
def limited (query : String) (parameters : List (Option String)) (maxRows : Option ℕ) : Except String OdbcResult :=
  execute config catalog P print (firstRows evaluate) query parameters maxRows

def whole (query : String) (parameters : List (Option String)) : Except String OdbcResult :=
  execute config catalog P print (fun text _ => evaluate text) query parameters none

omit [PyText] in
theorem normalizeRows_length (names : List String) (rows : List (Dict String Json)) :
    (normalizeRows names rows).length = rows.length := by
  induction rows generalizing names with
  | nil => rfl
  | cons row rows ih => exact congrArg (· + 1) (ih _)

theorem runtimeResult_not_empty (payload : SqlPayload) : ¬IsEmptyResult (runtimeResult payload) := by
  rintro ⟨-, htag⟩
  rw [Bool.and_eq_true, decide_eq_true_eq] at htag
  have hstart : "SELECT ".toList <+: "EMPTY".toList := by
    rw [← htag.2]
    unfold runtimeResult
    rw [String.toList_append]
    exact prefix_append _ _
  exact absurd hstart (by decide)

variable {config catalog P print evaluate}

theorem limited_cases {query : String} {parameters : List (Option String)} {R : OdbcResult}
    (hwhole : whole config catalog P print evaluate query parameters = .ok R) (n : ℕ) :
    ∃ r, limited config catalog P print evaluate query parameters (some n) = .ok r ∧
      (AnsweredByRuntime query parameters ∧ ¬IsEmptyResult r ∧
          r.rows.length = min (effectiveLimit config (some n)) R.rows.length ∧
          (R.rows.length ≤ effectiveLimit config (some n) → r = R) ∨
        ¬AnsweredByRuntime query parameters ∧ r = R) := by
  unfold whole at hwhole
  unfold limited
  by_cases hruntime : AnsweredByRuntime query parameters
  · obtain ⟨rendered, hrendered, hroute⟩ := Option.map_eq_some_iff.1 hruntime
    rw [execute_eq _ _ _ _ _ _ _ _ _ hrendered] at hwhole ⊢
    unfold answer at hwhole ⊢
    rw [hroute] at hwhole ⊢
    dsimp only at hwhole ⊢
    unfold firstRows
    cases hevaluate : evaluate (normalizeRuntimeQuery config P print rendered) with
    | error e =>
      rw [hevaluate] at hwhole
      cases hwhole
    | ok payload =>
      rw [hevaluate] at hwhole
      cases hwhole
      refine ⟨runtimeResult { payload with rows := payload.rows.take _ }, rfl, .inl ⟨hruntime, ?_, ?_, ?_⟩⟩
      · exact runtimeResult_not_empty _
      · unfold runtimeResult
        rw [normalizeRows_length, normalizeRows_length, length_take]
      · intro hle
        unfold runtimeResult at hle
        rw [normalizeRows_length] at hle
        rw [take_of_length_le hle]
  · refine ⟨R, ?_, .inr ⟨hruntime, rfl⟩⟩
    rw [← hwhole]
    exact execute_of_not_runtime _ _ _ _ _ hruntime _ _ _

variable (config catalog P print evaluate)

/-- **Rows and limits.** The messages `Execute` of a portal give, up to the first `CommandComplete`, the rows of its query
if and only if there are none, or the result has columns and, where the runtime answers, no more rows than the limit of
the first message. -/
theorem delivers_iff (s : ServerState) (portal : String) (p : BoundPortal) (statement : PreparedStatement)
    (R : OdbcResult) (n : ℕ) (limits : List ℕ) (hportal : s.portals.get? portal = some p)
    (hstatement : s.statements.get? p.statementName = some statement)
    (hwhole : whole config catalog P print evaluate statement.query p.parameters = .ok R) :
    DeliversRows R.rows ((server (limited config catalog P print evaluate)).run s
        ((n :: limits).map (Message.execute portal))).2 ↔
      R.rows = [] ∨ R.columns ≠ [] ∧
        (AnsweredByRuntime statement.query p.parameters → R.rows.length ≤ effectiveLimit config (some n)) := by
  obtain ⟨r, hr, hcases⟩ := limited_cases hwhole n
  by_cases hempty : IsEmptyResult r
  · -- only a query that the runtime does not answer is empty, and it stays so
    rcases hcases with ⟨-, hne, -, -⟩ | ⟨hruntime, rfl⟩
    · exact absurd hempty hne
    · have hevery : ∀ n, ∃ r', limited config catalog P print evaluate statement.query p.parameters (some n) = .ok r' ∧
          IsEmptyResult r' := by
        intro m
        refine ⟨r, ?_, hempty⟩
        rw [← hr]
        exact execute_of_not_runtime _ _ _ _ _ hruntime _ _ _
      obtain ⟨hrows, hcomplete⟩ := delivers_nothing (run_empty hportal hstatement hevery (n :: limits))
      have hnone : r.rows = [] := isEmpty_iff.1 (Bool.and_eq_true_iff.1 hempty.2).1
      refine ⟨fun _ => .inl hnone, fun _ => ⟨?_, fun h => ?_⟩⟩
      · rw [hrows]
        exact nil_prefix
      · rw [hcomplete] at h
        cases h
  · obtain ⟨hrows, hcomplete⟩ := run_delivers hportal hstatement hr hempty limits
    have hdelivers : DeliversRows R.rows ((server (limited config catalog P print evaluate)).run s
        ((n :: limits).map (Message.execute portal))).2 ↔ writtenRows r = R.rows := by
      unfold DeliversRows
      rw [hrows, hcomplete]
      exact ⟨fun h => h.2 rfl, fun h => ⟨h ▸ prefix_refl _, fun _ => h⟩⟩
    rw [hdelivers]
    unfold writtenRows
    rcases hcases with ⟨hruntime, -, hlength, hsame⟩ | ⟨hruntime, rfl⟩
    · constructor
      · intro h
        split_ifs at h with hcolumns
        · exact .inl h.symm
        · rw [h] at hlength
          have hle : R.rows.length ≤ effectiveLimit config (some n) := by omega
          rw [hsame hle] at hcolumns
          exact .inr ⟨hcolumns, fun _ => hle⟩
      · rintro (hnone | ⟨hcolumns, hle⟩)
        · have hle : R.rows.length ≤ effectiveLimit config (some n) := by
            rw [hnone]
            exact Nat.zero_le _
          rw [hsame hle, hnone]
          exact ite_self _
        · rw [hsame (hle hruntime), if_neg hcolumns]
    · constructor
      · intro h
        split_ifs at h with hcolumns
        · exact .inl h.symm
        · exact .inr ⟨hcolumns, fun h => absurd h hruntime⟩
      · rintro (hnone | ⟨hcolumns, -⟩)
        · rw [hnone]
          exact ite_self _
        · rw [if_neg hcolumns]

end Limits

section FirstRow

open scoped Ascii

def twoNotes : String → Except String SqlPayload :=
  fun _ => .ok ⟨[("id", none)], [⟨[("id", .int 1)], nodup_singleton "id"⟩, ⟨[("id", .int 2)], nodup_singleton "id"⟩]⟩

/-- the portal `p` is bound to a query over two notes -/
def notesState : ServerState :=
  ⟨⟨[("s", ⟨"s", "SELECT id FROM notes", 0⟩)], by decide⟩, ⟨[("p", ⟨"p", "s", [], [0]⟩)], by decide⟩⟩

def notesEvents (limits : List ℕ) : List Event :=
  ((server (limited notesConfig notesCatalog ⟨fun _ _ => .error "no parser"⟩ (fun _ => "") twoNotes)).run notesState
    (limits.map (Message.execute "p"))).2

def firstNote : List Event :=
  [.ran "SELECT id FROM notes" [] (some 1), .rowDescription [("id", 20)], .dataRow [.int 1], .commandComplete "SELECT 1"]

/-- with no limit of the client, both notes are delivered -/
theorem notes_delivered : DeliversRows [[.int 1], [.int 2]] (notesEvents [0, 1]) :=
  (delivers_iff notesConfig notesCatalog ⟨fun _ _ => .error "no parser"⟩ (fun _ => "") twoNotes notesState "p"
    ⟨"p", "s", [], [0]⟩ ⟨"s", "SELECT id FROM notes", 0⟩ ⟨[("id", 20)], [[.int 1], [.int 2]], "SELECT 2"⟩ 0 [1] rfl rfl
    rfl).2 (.inr ⟨cons_ne_nil _ _, fun _ => by decide⟩)

/-- **A limit of the client.** The first of two notes is announced as all of them, and the next message delivers it
again. -/
theorem firstNote_completes :
    notesEvents [1, 1] = firstNote ++ firstNote ∧ ¬DeliversRows [[.int 1], [.int 2]] (notesEvents [1, 1]) := by
  have hevents : notesEvents [1, 1] = firstNote ++ firstNote := rfl
  refine ⟨hevents, ?_⟩
  intro h
  have hrows : [[Json.int 1]] = [[Json.int 1], [Json.int 2]] := h.2 rfl
  exact absurd (congrArg List.length hrows) (by decide)

end FirstRow

end Langbridge.Runtime.Odbc
