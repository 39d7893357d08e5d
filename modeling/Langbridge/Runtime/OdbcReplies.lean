/-
The replies of the ODBC endpoint against the PostgreSQL protocol: what a client may expect in reply to each message of a
connection.

`Session` is what the client has been told: the parameter counts of its prepared statements, the portals that were
described as without rows, and whether the endpoint ignores messages up to the next `Sync`. `Allowed` says which replies
follow the protocol.

The only error handler of `_handle_client` stands outside its loop: it writes `ReadyForQuery` after the error of any
message, and the connection ends.
-/
import Langbridge.Runtime.OdbcProtocol

namespace Langbridge.Runtime.Odbc

open Core List Dict

/-! ## The protocol -/

def Event.isReady : Event → Bool
  | .ready => true
  | _ => false

def Event.isError : Event → Bool
  | .error _ => true
  | _ => false

def Event.isRowDescription : Event → Bool
  | .rowDescription _ => true
  | _ => false

def Event.isDataRow : Event → Bool
  | .dataRow _ => true
  | _ => false

def Event.isMessage : Event → Bool
  | .ran .. => false
  | _ => true

/-- how many times the client is told that the endpoint is ready -/
def readies (events : List Event) : ℕ := events.countP Event.isReady

def Message.isQuery : Message → Bool
  | .query _ => true
  | _ => false

def Message.isSync : Message → Bool
  | .sync => true
  | _ => false

/-- what a client has been told -/
structure Session where
  skipping : Bool
  counts : Dict String ℕ
  noRows : List String

def Session.initial : Session := ⟨false, Dict.empty, []⟩

/-- the replies to a message follow the protocol -/
structure Allowed [PyText] (p : Session) (m : Message) (es : List Event) : Prop where
  /-- `Query` and `Sync` are answered by one `ReadyForQuery`, and nothing else is -/
  ready : readies es = if m.isSync || m.isQuery && !p.skipping then 1 else 0
  /-- after an error, messages are ignored up to the next `Sync` -/
  ignored : p.skipping = true → m.isSync = false → es = []
  /-- otherwise every message but `Flush` is served -/
  served : p.skipping = false → m = .flush ∨ es.any Event.isMessage = true
  /-- `Execute` sends no `RowDescription`, and no row of a portal that was described as without rows -/
  executed : ∀ portal maxRows, m = .execute portal maxRows → es.any Event.isRowDescription = false ∧
    (portal ∈ p.noRows → es.any Event.isDataRow = false)
  /-- a prepared statement is described as it was parsed -/
  intact : ∀ name count, m = .describe 'S' name → p.skipping = false → p.counts.get? name = some count →
    .parameterDescription count ∈ es

/-- the parameter counts of the prepared statements after the replies to a message -/
def Session.nextCounts [PyText] (p : Session) (m : Message) (es : List Event) : Dict String ℕ :=
  match m, es with
  | .parse statement text declared, [.parseComplete] => p.counts.set statement (max declared (countQueryParameters text))
  | .close 'S' name, [.closeComplete] => p.counts.erase name
  | _, _ => p.counts

/-- the portals that were described as without rows since they were bound -/
def Session.nextNoRows (p : Session) (m : Message) (es : List Event) : List String :=
  match m, es with
  | .describe 'P' name, [.noData] => name :: p.noRows
  | .bind portal .., [.bindComplete] => p.noRows.filter (· ≠ portal)
  | _, _ => p.noRows

def Session.next [PyText] (p : Session) (m : Message) (es : List Event) : Session where
  skipping := !m.isSync && (p.skipping || !m.isQuery && es.any Event.isError)
  counts := p.nextCounts m es
  noRows := p.nextNoRows m es

/-- the replies up to `Terminate` follow the protocol -/
def FollowsProtocol [PyText] : Session → List (Message × List Event) → Prop
  | _, [] => True
  | _, (.terminate, es) :: _ => es = []
  | p, (m, es) :: rest => Allowed p m es ∧ FollowsProtocol (p.next m es) rest

/-! ## Calm sequences -/

section Calm

variable (gateway : String → List (Option String) → Option ℕ → Except String OdbcResult)

/-- the query of a portal, once its statement is looked up -/
def ServerState.queryOf (s : ServerState) (portal : String) : Option (String × List (Option String)) :=
  (s.portals.get? portal).bind fun p => (s.statements.get? p.statementName).map fun statement =>
    (statement.query, p.parameters)

def Raises (s : ServerState) : Message → Prop
  | .query text => ∃ message, gateway text [] none = .error message
  | .bind _ _ parameterFormats parameters resultFormats =>
    ∃ message, checkBind parameterFormats parameters resultFormats = .error message
  | .describe target _ => target ≠ 'S' ∧ target ≠ 'P'
  | .execute portal maxRows => ∀ q, s.queryOf portal = some q → ∃ message, gateway q.1 q.2 (some maxRows) = .error message
  | .close target _ => target ≠ 'S' ∧ target ≠ 'P'
  | .other _ => True
  | _ => False

def HasColumns (s : ServerState) : Message → Prop
  | .execute portal maxRows => ∃ q r, s.queryOf portal = some q ∧ gateway q.1 q.2 (some maxRows) = .ok r ∧ r.columns ≠ []
  | _ => False

/-- only `Flush` comes before the end -/
def OnlyFlushes : List Message → Prop
  | [] => True
  | .terminate :: _ => True
  | .flush :: ms => OnlyFlushes ms
  | _ => False

variable [PyText]

/-- no message raises, unless it is a `Query` that only `Flush` follows, and no portal that is executed has columns -/
def Calm (s : ServerState) : List Message → Prop
  | [] => True
  | .terminate :: _ => True
  | m :: ms => (Raises gateway s m → m.isQuery = true ∧ OnlyFlushes ms) ∧ ¬HasColumns gateway s m ∧
    ∀ s', (serverStep gateway s m).1 = some s' → Calm s' ms

/-! ## One message -/

variable {gateway}

/-- what a client has been told is so, and no message is ignored -/
structure Told (p : Session) (s : ServerState) : Prop where
  awake : p.skipping = false
  counts : ∀ name, p.counts.get? name = (s.statements.get? name).map (·.parameterCount)

omit [PyText] in
@[simp] theorem readies_result (r : OdbcResult) : readies (resultEvents r) = 0 := by
  unfold readies resultEvents
  split_ifs <;> simp [Event.isReady, countP_eq_zero]

omit [PyText] in
theorem result_message (r : OdbcResult) : (resultEvents r).any Event.isMessage = true := by
  unfold resultEvents
  split_ifs <;> simp [Event.isMessage]

omit [PyText] in
theorem result_columns (r : OdbcResult) :
    (resultEvents r).any Event.isRowDescription = false ∧ (resultEvents r).any Event.isDataRow = false ↔ r.columns = [] := by
  unfold resultEvents
  split_ifs with hcolumns hempty
  · simp [Event.isRowDescription, hcolumns]
  · simpa [Event.isRowDescription, Event.isDataRow] using hcolumns
  · simpa [Event.isRowDescription, Event.isDataRow] using hcolumns

omit [PyText] in
theorem result_errors (r : OdbcResult) : (resultEvents r).any Event.isError = false := by
  unfold resultEvents
  split_ifs <;> simp [Event.isError]

variable {s : ServerState}

omit [PyText] in
theorem serverExecute_eq {portal : String} {maxRows : ℕ} {q : String × List (Option String)}
    (h : s.queryOf portal = some q) :
    serverExecute gateway s portal maxRows = executeQuery gateway s q.1 q.2 (some maxRows) [] := by
  obtain ⟨p, hp, h⟩ := Option.bind_eq_some_iff.1 h
  obtain ⟨statement, hstatement, rfl⟩ := Option.map_eq_some_iff.1 h
  simp only [serverExecute, hp, hstatement]

omit [PyText] in
theorem execute_unknown {portal : String} {maxRows : ℕ} (h : s.queryOf portal = none) :
    ∃ message, serverExecute gateway s portal maxRows = fail message := by
  unfold serverExecute
  cases hp : s.portals.get? portal with
  | none => exact ⟨_, rfl⟩
  | some p =>
    cases hstatement : s.statements.get? p.statementName with
    | none => exact ⟨"Unknown statement '" ++ p.statementName ++ "'.", by simp only [hstatement]⟩
    | some statement => simp [ServerState.queryOf, hp, hstatement] at h

variable {p : Session} {m : Message}

/-- one reply to a message that neither asks for readiness nor executes nor describes a statement -/
theorem allowed_plain {e : Event} (hp : p.skipping = false) (hsync : m.isSync = false)
    (hquery : m.isQuery = false) (hready : e.isReady = false) (hmessage : e.isMessage = true)
    (hexecute : ∀ portal maxRows, m ≠ .execute portal maxRows) (hdescribe : ∀ name, m ≠ .describe 'S' name) :
    Allowed p m [e] where
  ready := by simp [readies, hready, hsync, hquery]
  ignored h := by simp [hp] at h
  served _ := .inr (by simp [hmessage])
  executed portal maxRows h := absurd h (hexecute portal maxRows)
  intact name _ h := absurd h (hdescribe name)

theorem next_awake {es : List Event} (hp : p.skipping = false)
    (h : m.isSync = true ∨ m.isQuery = true ∨ es.any Event.isError = false) : (p.next m es).skipping = false := by
  rcases h with h | h | h <;> simp [Session.next, hp, h]

/-- a message that does not raise follows the protocol unless it executes a portal whose result has columns -/
theorem step_served (hp : Told p s) (hm : m ≠ .terminate) (hr : ¬Raises gateway s m) :
    ∃ s' es, serverStep gateway s m = (some s', es) ∧ (Allowed p m es ↔ ¬HasColumns gateway s m) ∧
      Told (p.next m es) s' := by
  have hawake := hp.awake
  cases m with
  | terminate => exact absurd rfl hm
  | other code => exact absurd trivial hr
  | query text =>
    cases hq : gateway text [] none with
    | error message => exact absurd ⟨message, hq⟩ hr
    | ok r =>
      have hstep : serverStep gateway s (.query text) = (some s, .ran text [] none :: (resultEvents r ++ [.ready])) := by
        simp only [serverStep, executeQuery, hq]
      refine ⟨_, _, hstep, iff_of_true ⟨?_, ?_, ?_, ?_, ?_⟩ id, next_awake hawake (.inr (.inl rfl)), hp.counts⟩
      · have hresult := readies_result r
        simp only [readies] at hresult
        simp [readies, countP_cons, hresult, Event.isReady, Message.isSync, Message.isQuery, hawake]
      · simp [hawake]
      · exact fun _ => .inr (by simp [Event.isMessage])
      · intro portal maxRows h
        cases h
      · intro name count h
        cases h
  | parse statement text declared =>
    refine ⟨_, _, rfl, iff_of_true (allowed_plain hawake rfl rfl rfl rfl (by simp) (by simp)) id,
      next_awake hawake (.inr (.inr rfl)), fun name => ?_⟩
    change (p.counts.set statement _).get? name = ((s.statements.set statement _).get? name).map _
    rw [get?_set, get?_set]
    split_ifs
    · rfl
    · exact hp.counts name
  | bind portal statement parameterFormats parameters resultFormats =>
    cases hcheck : checkBind parameterFormats parameters resultFormats with
    | error message => exact absurd ⟨message, hcheck⟩ hr
    | ok u =>
      have hstep : serverStep gateway s (.bind portal statement parameterFormats parameters resultFormats) =
          (some ⟨s.statements, s.portals.set portal
            ⟨portal, statement, parameters, if resultFormats = [] then [0] else resultFormats⟩⟩, [.bindComplete]) := by
        simp only [serverStep, serverBind, hcheck]
        rfl
      exact ⟨_, _, hstep, iff_of_true (allowed_plain hawake rfl rfl rfl rfl (by simp) (by simp)) id,
        next_awake hawake (.inr (.inr rfl)), hp.counts⟩
  | describe target name =>
    by_cases hstatement : target = 'S'
    · subst hstatement
      refine ⟨_, _, rfl, iff_of_true ⟨rfl, by simp [hawake], fun _ => .inr rfl, by simp, ?_⟩ id,
        next_awake hawake (.inr (.inr rfl)), hp.counts⟩
      intro other count h _ hcount
      obtain rfl := (Message.describe.inj h).2
      rw [hp.counts] at hcount
      obtain ⟨statement, hget, rfl⟩ := Option.map_eq_some_iff.1 hcount
      rw [hget]
      exact mem_cons_self
    · by_cases hportal : target = 'P'
      · subst hportal
        exact ⟨_, _, rfl, iff_of_true (allowed_plain hawake rfl rfl rfl rfl (by simp) (by simp)) id,
          next_awake hawake (.inr (.inr rfl)), hp.counts⟩
      · exact absurd ⟨hstatement, hportal⟩ hr
  | execute portal maxRows =>
    cases hq : s.queryOf portal with
    | none => exact absurd (fun q h => by rw [hq] at h; cases h) hr
    | some q =>
      cases hresult : gateway q.1 q.2 (some maxRows) with
      | error message =>
        refine absurd (fun q' h => ?_) hr
        rw [hq] at h
        exact ⟨message, Option.some.inj h ▸ hresult⟩
      | ok r =>
        have hstep : serverStep gateway s (.execute portal maxRows) =
            (some s, .ran q.1 q.2 (some maxRows) :: resultEvents r) := by
          simp only [serverStep, serverExecute_eq hq, executeQuery, hresult, append_nil]
        have hcolumns : HasColumns gateway s (.execute portal maxRows) ↔ r.columns ≠ [] := by
          refine ⟨fun ⟨q', r', hq', hr', hne⟩ => ?_, fun hne => ⟨q, r, hq, hresult, hne⟩⟩
          rw [hq] at hq'
          cases hq'
          rw [hresult] at hr'
          exact Except.ok.inj hr' ▸ hne
        have herrors : (Event.ran q.1 q.2 (some maxRows) :: resultEvents r).any Event.isError = false := by
          rw [any_cons, result_errors]
          rfl
        refine ⟨_, _, hstep, ?_, next_awake hawake (.inr (.inr herrors)), hp.counts⟩
        rw [hcolumns, not_not]
        refine ⟨fun h => ?_, fun h => ⟨?_, by simp [hawake], fun _ => .inr ?_, ?_, by simp⟩⟩
        · have hrow := (h.executed portal maxRows rfl).1
          by_contra hne
          simp [resultEvents, hne, Event.isRowDescription] at hrow
        · have hready := readies_result r
          simp only [readies] at hready
          simp [readies, hready, Event.isReady, Message.isSync, Message.isQuery]
        · rw [any_cons, result_message, Bool.or_true]
        · obtain ⟨hdescription, hrows⟩ := (result_columns r).2 h
          intro _ _ _
          rw [any_cons, any_cons, hdescription, hrows]
          exact ⟨rfl, fun _ => rfl⟩
  | sync =>
    exact ⟨_, _, rfl, iff_of_true ⟨rfl, by simp [hawake], fun _ => .inr rfl, by simp, by simp⟩ id,
      next_awake hawake (.inl rfl), hp.counts⟩
  | flush =>
    exact ⟨_, _, rfl, iff_of_true ⟨rfl, by simp, fun _ => .inl rfl, by simp, by simp⟩ id,
      next_awake hawake (.inr (.inr rfl)), hp.counts⟩
  | close target name =>
    by_cases hstatement : target = 'S'
    · subst hstatement
      refine ⟨_, _, rfl, iff_of_true (allowed_plain hawake rfl rfl rfl rfl (by simp) (by simp)) id,
        next_awake hawake (.inr (.inr rfl)), fun other => ?_⟩
      change (p.counts.erase name).get? other = ((s.statements.erase name).get? other).map _
      rw [get?_erase, get?_erase]
      split_ifs
      · rfl
      · exact hp.counts other
    · by_cases hportal : target = 'P'
      · subst hportal
        exact ⟨_, _, rfl, iff_of_true (allowed_plain hawake rfl rfl rfl rfl (by simp) (by simp)) id,
          next_awake hawake (.inr (.inr rfl)), hp.counts⟩
      · exact absurd ⟨hstatement, hportal⟩ hr

/-- an error of any message is followed by `ReadyForQuery`, which only a `Query` asks for -/
theorem error_allowed_iff {ran : List Event} (hp : p.skipping = false)
    (hm : m.isSync = false) (hran : ∀ e ∈ ran, e.isReady = false ∧ e.isRowDescription = false ∧ e.isDataRow = false)
    (hquery : m.isQuery = true → ∀ name, m ≠ .describe 'S' name) (message : String) :
    Allowed p m (ran ++ [.error message, .ready]) ↔ m.isQuery = true := by
  have hready : readies (ran ++ [.error message, .ready]) = 1 := by
    have hzero : ran.countP Event.isReady = 0 := countP_eq_zero.2 fun e he => by simp [(hran e he).1]
    simp [readies, hzero, Event.isReady, countP_cons]
  have hnone : (ran ++ [Event.error message, .ready]).any Event.isRowDescription = false ∧
      (ran ++ [Event.error message, .ready]).any Event.isDataRow = false := by
    constructor <;> simp only [any_append, Bool.or_eq_false_iff, any_eq_false]
    · exact ⟨fun e he => by simp [(hran e he).2.1], by simp [Event.isRowDescription]⟩
    · exact ⟨fun e he => by simp [(hran e he).2.2], by simp [Event.isDataRow]⟩
  refine ⟨fun h => ?_, fun h => ⟨?_, by simp [hp], fun _ => .inr ?_, fun _ _ _ => ⟨hnone.1, fun _ => hnone.2⟩, ?_⟩⟩
  · have hcount := h.ready
    rw [hready] at hcount
    by_contra hne
    simp [hm, hne] at hcount
  · rw [hready]
    simp [h, hp]
  · simp [Event.isMessage]
  · intro name _ hname
    exact absurd hname (hquery h name)

/-- a message that raises ends the connection, and follows the protocol only if it is a `Query` -/
theorem step_raises (hp : p.skipping = false) (hr : Raises gateway s m) :
    ∃ es, serverStep gateway s m = (none, es) ∧ (Allowed p m es ↔ m.isQuery = true) := by
  have hfail : ∀ (t : Outcome ServerState) (message : String), m.isQuery = false → m.isSync = false →
      t = fail message → ∃ es, t = (none, es) ∧ (Allowed p m es ↔ m.isQuery = true) := by
    intro t message hquery hsync ht
    have hallowed : Allowed p m ([] ++ [.error message, .ready]) ↔ m.isQuery = true :=
      error_allowed_iff hp hsync (by simp) (by simp [hquery]) message
    exact ⟨_, ht, hallowed⟩
  cases m with
  | query text =>
    obtain ⟨message, hq⟩ := hr
    have hstep : serverStep gateway s (.query text) = (none, [.ran text [] none] ++ [.error message, .ready]) := by
      simp only [serverStep, executeQuery, hq]
      rfl
    exact ⟨_, hstep, error_allowed_iff hp rfl (by simp [Event.isReady, Event.isRowDescription, Event.isDataRow])
      (by simp) message⟩
  | bind portal statement parameterFormats parameters resultFormats =>
    obtain ⟨message, hcheck⟩ := hr
    exact hfail _ message rfl rfl (by simp only [serverStep, serverBind, hcheck])
  | describe target name =>
    refine hfail _ ("Unsupported describe target '" ++ String.singleton target ++ "'.") rfl rfl ?_
    simp only [serverStep, serverDescribe, if_neg hr.1, if_neg hr.2]
  | execute portal maxRows =>
    cases hq : s.queryOf portal with
    | none =>
      obtain ⟨message, h⟩ : ∃ message, serverExecute gateway s portal maxRows = fail message := execute_unknown hq
      exact hfail _ message rfl rfl h
    | some q =>
      obtain ⟨message, hresult⟩ := hr q hq
      have hstep : serverStep gateway s (.execute portal maxRows) =
          (none, [.ran q.1 q.2 (some maxRows)] ++ [.error message, .ready]) := by
        simp only [serverStep, serverExecute_eq hq, executeQuery, hresult]
        rfl
      exact ⟨_, hstep, error_allowed_iff hp rfl (by simp [Event.isReady, Event.isRowDescription, Event.isDataRow])
        (by simp) message⟩
  | close target name =>
    refine hfail _ ("Unsupported close target '" ++ String.singleton target ++ "'.") rfl rfl ?_
    simp only [serverStep, serverClose, if_neg hr.1, if_neg hr.2]
  | other code => exact hfail _ _ rfl rfl rfl
  | _ => exact absurd hr id

/-! ## Any sequence of messages -/

/-- a connection that has ended replies to nothing, which only `Flush` allows -/
theorem ended_follows_iff (hp : p.skipping = false) (ms : List Message) :
    FollowsProtocol p ((server gateway).replies none ms) ↔ OnlyFlushes ms := by
  induction ms generalizing p with
  | nil => exact Iff.rfl
  | cons m ms ih =>
    cases m with
    | terminate => exact iff_of_true rfl trivial
    | flush =>
      have hallowed : Allowed p .flush [] := ⟨rfl, by simp, fun _ => .inl rfl, by simp, by simp⟩
      change Allowed p .flush [] ∧ FollowsProtocol (p.next .flush []) ((server gateway).replies none ms) ↔ OnlyFlushes ms
      rw [ih (next_awake hp (.inr (.inr rfl)))]
      exact and_iff_right hallowed
    | _ =>
      refine iff_of_false (fun h => ?_) id
      rcases h.1.served hp with h | h
      · cases h
      · cases h

theorem follows_iff (hp : Told p s) (ms : List Message) :
    FollowsProtocol p ((server gateway).replies (some s) ms) ↔ Calm gateway s ms := by
  induction ms generalizing p s with
  | nil => exact Iff.rfl
  | cons m ms ih =>
    by_cases hm : m = .terminate
    · subst hm
      exact iff_of_true rfl trivial
    · have hfollows : ∀ es rest, FollowsProtocol p ((m, es) :: rest) ↔
          Allowed p m es ∧ FollowsProtocol (p.next m es) rest := by
        intro es rest
        cases m <;> first | exact Iff.rfl | exact absurd rfl hm
      have hcalm : Calm gateway s (m :: ms) ↔ (Raises gateway s m → m.isQuery = true ∧ OnlyFlushes ms) ∧
          ¬HasColumns gateway s m ∧ ∀ s', (serverStep gateway s m).1 = some s' → Calm gateway s' ms := by
        cases m <;> first | exact Iff.rfl | exact absurd rfl hm
      change FollowsProtocol p ((m, (serverStep gateway s m).2) ::
        (server gateway).replies (serverStep gateway s m).1 ms) ↔ _
      rw [hfollows, hcalm]
      by_cases hr : Raises gateway s m
      · obtain ⟨es, hstep, hallowed⟩ := step_raises hp.awake hr
        rw [hstep, hallowed]
        have hcolumns : m.isQuery = true → ¬HasColumns gateway s m := by
          intro hquery
          cases m <;> first | exact id | cases hquery
        refine ⟨fun h => ⟨fun _ => ⟨h.1, ?_⟩, hcolumns h.1, fun s' h' => (by cases h')⟩, fun h => ?_⟩
        · exact (ended_follows_iff (next_awake hp.awake (.inr (.inl h.1))) ms).1 h.2
        · obtain ⟨hquery, hflushes⟩ := h.1 hr
          exact ⟨hquery, (ended_follows_iff (next_awake hp.awake (.inr (.inl hquery))) ms).2 hflushes⟩
      · obtain ⟨s', es, hstep, hallowed, htold⟩ := step_served hp hm hr
        rw [hstep, hallowed, ih htold]
        refine ⟨fun h => ⟨fun h' => absurd h' hr, h.1, fun t ht => ?_⟩, fun h => ⟨h.2.1, h.2.2 s' rfl⟩⟩
        rw [← Option.some.inj ht]
        exact h.2

omit [PyText] in
theorem told_initial : Told Session.initial ServerState.initial := ⟨rfl, fun _ => rfl⟩

variable (gateway)

end Calm

/-! ## A portal with rows, and an error -/

section Runs

open scoped Ascii

/-- an unknown portal, then `Sync` and a query -/
def unknownPortal : List Message := [.parse "s" "SELECT 1" 0, .execute "q" 0, .sync, .query "SELECT 2"]

end Runs

end Langbridge.Runtime.Odbc
