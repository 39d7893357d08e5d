/-
Concurrent logins and session checks (`runtime/hosting/local_auth.py`) over the persisted store. The first request that
needs the secret of the sessions finds none, generates one and stores it, with awaits in between and without a check
when it is stored.
-/
import Langbridge.Core.Machine
import Langbridge.Runtime.Accounts

namespace Langbridge.Runtime.SessionSecrets

open Core List PyText Option
open Runtime.Accounts (ActorId Account Store written)

/-! ## Tokens -/

/-- what a session token says -/
structure SessionPayload where
  workspaceId : String
  actorId : ActorId
  provider : String
  version : ℕ
  deriving DecidableEq

/-- `URLSafeTimedSerializer`: tokens that a secret signs, with the time of signing. A token is loaded with the secret
that has signed it until its maximum age, and says what it was made of. -/
structure TimedSerializer (Token : Type) where
  dumps : String → SessionPayload → ℕ → Token
  loads : String → Token → ℕ → ℕ → Except String SessionPayload
  loads_dumps : ∀ secret payload signed maxAge now, now ≤ signed + maxAge → signed ≤ now →
    loads secret (dumps secret payload signed) maxAge now = .ok payload
  payload_of_loads : ∀ secret payload signed maxAge now loaded,
    loads secret (dumps secret payload signed) maxAge now = .ok loaded → loaded = payload

structure IssuedToken (Token : Type) where
  token : Token
  secret : String
  actor : ActorId
  signed : ℕ

/-- a session check, and whether its token had been issued when it came -/
structure Check (Token : Type) where
  token : Token
  issued : Bool

/-- what the secret is needed for -/
inductive Purpose (Token : Type) where
  | issue (actor : ActorId)
  | check (c : Check Token)

inductive SessionTask (Token : Type) where
  | hasAdmin (cookie : Option (Check Token))
  | getSecret (p : Purpose Token)
  | loadState (p : Purpose Token) (secret : String)
  | commit (p : Purpose Token) (secret : String) (loaded : Option String)
  | resolved (p : Purpose Token) (secret : String)
  | lookup (c : Check Token) (actor : ActorId)

def SessionTask.check? {Token : Type} : SessionTask Token → Option (Check Token)
  | hasAdmin cookie => cookie
  | getSecret (.check c) | loadState (.check c) _ | commit (.check c) _ _ | resolved (.check c) _ | lookup c _ => some c
  | _ => none

section Manager

variable [PyText]

/-- a secret that `secrets.token_urlsafe` has made, or that is configured: neither empty nor with blanks at its ends -/
structure Secret where
  text : String
  ne : text ≠ ""
  stripped : strip text = text

/-- `RuntimeLocalAuthManager` over the persisted store -/
structure Manager (Token : Type) where
  workspaceId : String
  maxAge : ℕ
  sessionSecret : Option Secret
  serializer : TimedSerializer Token

/-- `get_session_secret` of the row of the workspace -/
def sessionSecretOf (row : Option String) : Option String :=
  row.bind fun stored => if strip stored = "" then none else some (strip stored)

end Manager

/-- the accounts, the row of `RuntimeLocalAuthState`, the requests in flight, the time and the tokens issued so far -/
structure SessionState (Token : Type) where
  accounts : Store
  row : Option String
  tasks : Dict ℕ (SessionTask Token)
  now : ℕ
  issued : List (IssuedToken Token)

inductive SessionReply (Token : Type) where
  | issued (token : Token)
  | accepted (account : Account)
  | refused (message : String)

/-- a request goes on, perhaps with another row, or ends -/
inductive SessionTurn (Token : Type) where
  | next (row : Option String) (task : SessionTask Token)
  | issue (secret : String) (actor : ActorId)
  | accept (account : Account)
  | refuse (message : String)

section Requests

variable [PyText] {Token : Type} (M : Manager Token)

/-- a request from one await to the next: `_resolve_session_secret` and `save_session_secret` between the parts of
`issue_session_token` and `authenticate_session_request` -/
def turn (s : SessionState Token) (generated : Secret) : SessionTask Token → SessionTurn Token
  | .hasAdmin cookie =>
    match s.accounts.hasAdminAccount with
    | .error message => .refuse message
    | .ok false => .refuse "Runtime bootstrap setup is required."
    | .ok true =>
      match cookie with
      | none => .refuse "Runtime session is required."
      | some c => .next s.row (.getSecret (.check c))
  | .getSecret p =>
    match M.sessionSecret, sessionSecretOf s.row with
    | some configured, persisted =>
      if persisted = some configured.text then .next s.row (.resolved p configured.text)
      else .next s.row (.loadState p configured.text)
    | none, some persisted => .next s.row (.resolved p persisted)
    | none, none => .next s.row (.loadState p generated.text)
  | .loadState p secret => .next s.row (.commit p secret s.row)
  | .commit p secret none =>
    if s.row.isSome then .refuse "UNIQUE constraint failed: runtime_local_auth_state.workspace_id"
    else .next (some secret) (.resolved p secret)
  | .commit p secret (some loaded) =>
    .next (s.row.map fun current => written current loaded secret) (.resolved p secret)
  | .resolved (.issue actor) secret => .issue secret actor
  | .resolved (.check c) secret =>
    match M.serializer.loads secret c.token M.maxAge s.now with
    | .error message => .refuse message
    | .ok payload =>
      if payload.workspaceId = M.workspaceId then .next s.row (.lookup c payload.actorId)
      else .refuse "Runtime session is invalid."
  | .lookup _ actor =>
    match s.accounts.getAccountById actor false with
    | .error message => .refuse message
    | .ok none => .refuse "Runtime session is no longer valid."
    | .ok (some account) => .accept account

/-- the payload of a token for an account -/
def Manager.payload (actor : ActorId) : SessionPayload := ⟨M.workspaceId, actor, "runtime_local_session", 2⟩

/-- a login or the bootstrap comes to `issue_session_token`, a session check arrives, a request runs to its next await,
the accounts change, or time goes by -/
inductive SessionAction (Token : Type) where
  | issue (n : ℕ) (actor : ActorId)
  | check (n : ℕ) (cookie : Option Token)
  | advance (n : ℕ) (generated : Secret)
  | accounts (store : Store)
  | tick

def SessionState.issue (s : SessionState Token) (n : ℕ) (secret : String) (actor : ActorId) : SessionState Token :=
  { s with
    tasks := s.tasks.erase n
    issued := ⟨M.serializer.dumps secret (M.payload actor) s.now, secret, actor, s.now⟩ :: s.issued }

variable [DecidableEq Token]

/-- A login and the bootstrap have found or made an active admin, and neither they nor session checks leave the accounts
without one. -/
def sessionStep (s : SessionState Token) : SessionAction Token → Option (SessionState Token) × List (SessionReply Token)
  | .issue n actor =>
    if s.tasks.has n = false ∧ s.accounts.hasAdminAccount.toOption = some true then
      (some { s with tasks := s.tasks.set n (.getSecret (.issue actor)) }, [])
    else (some s, [])
  | .check n cookie =>
    if s.tasks.has n then (some s, [])
    else
      let c := cookie.map fun token => ⟨token, s.issued.any fun t => t.token = token⟩
      (some { s with tasks := s.tasks.set n (.hasAdmin c) }, [])
  | .advance n generated =>
    match s.tasks.get? n with
    | none => (some s, [])
    | some task =>
      match turn M s generated task with
      | .next row task => (some { s with row := row, tasks := s.tasks.set n task }, [])
      | .issue secret actor =>
        (some (s.issue M n secret actor), [.issued (M.serializer.dumps secret (M.payload actor) s.now)])
      | .accept account => (some { s with tasks := s.tasks.erase n }, [.accepted account])
      | .refuse message => (some { s with tasks := s.tasks.erase n }, [.refused message])
  | .accounts store =>
    if s.accounts.hasAdminAccount.toOption = some true ∧ store.hasAdminAccount.toOption ≠ some true then (some s, [])
    else (some { s with accounts := store }, [])
  | .tick => (some { s with now := s.now + 1 }, [])

def sessions : Machine (SessionState Token) (SessionAction Token) (SessionReply Token) := ⟨sessionStep M⟩

/-- before the first request -/
structure Initial (s : SessionState Token) : Prop where
  tasks : s.tasks = Dict.empty
  issued : s.issued = []

/-- the action replaces no stored secret: a request that found the row when it came to save its secret finds no secret
in it -/
def KeepsSecret (s : SessionState Token) : SessionAction Token → Prop
  | .advance n _ =>
    match s.tasks.get? n with
    | some (.commit _ _ (some _)) => sessionSecretOf s.row = none
    | _ => True
  | _ => True

instance decidableKeepsSecret (s : SessionState Token) : ∀ a, Decidable (KeepsSecret s a)
  | .advance n _ =>
    match hn : s.tasks.get? n with
    | some (.commit _ _ (some _)) =>
      decidable_of_iff (sessionSecretOf s.row = none) (by rw [KeepsSecret, hn])
    | none | some (.hasAdmin _) | some (.getSecret _) | some (.loadState _ _) | some (.commit _ _ none)
    | some (.resolved _ _) | some (.lookup _ _) => .isTrue (by rw [KeepsSecret, hn]; trivial)
  | .issue _ _ | .check _ _ | .accounts _ | .tick => .isTrue trivial

/-! ## The stored secret -/

/-- an active admin was found or made -/
def HasAdmin (s : SessionState Token) : Prop := s.accounts.hasAdminAccount.toOption = some true

/-- a secret that can be stored, and is the configured one if there is one -/
structure Usable (secret : String) : Prop where
  ne : secret ≠ ""
  stripped : strip secret = secret
  configured : ∀ configured, M.sessionSecret = some configured → secret = configured.text

def CheckOk (s : SessionState Token) (c : Check Token) : Prop := c.issued = true → ∃ t ∈ s.issued, t.token = c.token

def PurposeOk (s : SessionState Token) : Purpose Token → Prop
  | .issue _ => HasAdmin s
  | .check c => CheckOk s c

/-- the secret that is saved is not for a token that had been issued -/
def Unissued (p : Purpose Token) : Prop := ∀ c, p = .check c → c.issued = false

/-- what holds of a request: one that has resolved the secret has the stored one -/
def TaskOk (s : SessionState Token) : SessionTask Token → Prop
  | .hasAdmin cookie => ∀ c, cookie = some c → CheckOk s c
  | .getSecret p => PurposeOk s p
  | .loadState p secret => PurposeOk s p ∧ Unissued p ∧ Usable M secret
  | .commit p secret loaded => PurposeOk s p ∧ Unissued p ∧ Usable M secret ∧
      ∀ old, loaded = some old → s.row ≠ none ∧ (sessionSecretOf (some old) ≠ none → s.row = some old)
  | .resolved p secret => PurposeOk s p ∧ sessionSecretOf s.row = some secret ∧ Usable M secret
  | .lookup c actor => CheckOk s c ∧ ∃ secret now payload, sessionSecretOf s.row = some secret ∧
      M.serializer.loads secret c.token M.maxAge now = .ok payload ∧ payload.actorId = actor

structure TokenOk (s : SessionState Token) (t : IssuedToken Token) : Prop where
  secret : sessionSecretOf s.row = some t.secret
  usable : Usable M t.secret
  token : t.token = M.serializer.dumps t.secret (M.payload t.actor) t.signed
  signed : t.signed ≤ s.now

structure Inv (s : SessionState Token) : Prop where
  tasks : ∀ n task, s.tasks.get? n = some task → TaskOk M s task
  issued : ∀ t ∈ s.issued, TokenOk M s t
  admin : s.issued ≠ [] → HasAdmin s

variable {secret : String}

omit [DecidableEq Token] in
theorem sessionSecretOf_some (h : Usable M secret) : sessionSecretOf (some secret) = some secret := by
  rw [sessionSecretOf, bind_some, h.stripped, if_neg h.ne]

omit [DecidableEq Token] in
theorem usable_of_stored {row : Option String} (h : sessionSecretOf row = some secret)
    (hnone : M.sessionSecret = none) : Usable M secret := by
  obtain ⟨stored, -, h⟩ := bind_eq_some_iff.1 h
  split_ifs at h with hblank
  cases h
  exact ⟨hblank, PyText.strip_strip stored, fun c hc => by rw [hnone] at hc; cases hc⟩

variable {s s' : SessionState Token}

omit [DecidableEq Token] in
theorem PurposeOk.mono (hissued : ∀ t ∈ s.issued, t ∈ s'.issued)
    (hadmin : HasAdmin s → HasAdmin s') {p : Purpose Token} (h : PurposeOk s p) : PurposeOk s' p := by
  cases p with
  | issue actor => exact hadmin h
  | check c =>
    intro hc
    obtain ⟨t, ht, htoken⟩ := h hc
    exact ⟨t, hissued t ht, htoken⟩

variable {task : SessionTask Token}

omit [DecidableEq Token] in
/-- what holds of a request stays, where the row does or has had no secret -/
theorem TaskOk.mono (hrow : s'.row = s.row ∨ sessionSecretOf s.row = none)
    (hstays : s.row ≠ none → s'.row ≠ none) (hissued : ∀ t ∈ s.issued, t ∈ s'.issued)
    (hadmin : HasAdmin s → HasAdmin s') (h : TaskOk M s task) : TaskOk M s' task := by
  have hsecret : ∀ secret, sessionSecretOf s.row = some secret → sessionSecretOf s'.row = some secret := by
    intro secret hsecret
    rcases hrow with hrow | hnone
    · rwa [hrow]
    · rw [hnone] at hsecret
      cases hsecret
  have hcheck : ∀ c, CheckOk s c → CheckOk s' c := fun c hc => PurposeOk.mono (p := .check c) hissued hadmin hc
  cases task with
  | hasAdmin cookie => exact fun c hc => hcheck c (h c hc)
  | getSecret p => exact PurposeOk.mono hissued hadmin h
  | loadState p secret => exact ⟨h.1.mono hissued hadmin, h.2⟩
  | commit p secret loaded =>
    refine ⟨h.1.mono hissued hadmin, h.2.1, h.2.2.1, fun old hold => ⟨hstays (h.2.2.2 old hold).1, fun hne => ?_⟩⟩
    have hsame := (h.2.2.2 old hold).2 hne
    rcases hrow with hrow | hnone
    · rwa [hrow]
    · rw [hsame] at hnone
      exact absurd hnone hne
  | resolved p secret => exact ⟨h.1.mono hissued hadmin, hsecret secret h.2.1, h.2.2⟩
  | lookup c actor =>
    obtain ⟨hc, secret, now, payload, hs, hloads, hactor⟩ := h
    exact ⟨hcheck c hc, secret, now, payload, hsecret secret hs, hloads, hactor⟩

omit [DecidableEq Token] in
/-- a check of a token that had been issued finds a secret -/
theorem Inv.unissued (h : Inv M s) {p : Purpose Token} (hp : PurposeOk s p)
    (hsecret : ∀ t ∈ s.issued, ¬ TokenOk M s t) : Unissued p := by
  rintro c rfl
  by_contra hc
  obtain ⟨t, ht, -⟩ := hp (by simpa using hc)
  exact hsecret t ht (h.issued t ht)

variable {n : ℕ} {generated : Secret}

omit [DecidableEq Token] in
/-- **One step of a request.** It goes on as the invariant says, and keeps the row or finds no secret in it. -/
theorem turn_next (h : Inv M s) {task task' : SessionTask Token} {row : Option String} (htask : s.tasks.get? n = some task)
    (hkeeps : KeepsSecret s (.advance n generated)) (hturn : turn M s generated task = .next row task') :
    (row = s.row ∨ sessionSecretOf s.row = none) ∧ (s.row ≠ none → row ≠ none) ∧
      TaskOk M { s with row := row } task' := by
  have hok := h.tasks n task htask
  cases task with
  | hasAdmin cookie =>
    simp only [turn] at hturn
    split at hturn
    · cases hturn
    · cases hturn
    · split at hturn
      · cases hturn
      · rename_i c
        obtain ⟨rfl, rfl⟩ := SessionTurn.next.inj hturn
        exact ⟨.inl rfl, id, hok c rfl⟩
  | getSecret p =>
    have hnone : ∀ configured, M.sessionSecret = some configured → sessionSecretOf s.row ≠ some configured.text →
        Unissued p := by
      intro configured hconfigured hne
      refine h.unissued M hok fun t _ ht => hne ?_
      rw [ht.secret, ht.usable.configured configured hconfigured]
    simp only [turn] at hturn
    split at hturn
    · rename_i configured hconfigured
      have husable : Usable M configured.text := by
        refine ⟨configured.ne, configured.stripped, fun other hother => ?_⟩
        rw [hconfigured] at hother
        rw [Option.some.inj hother]
      split_ifs at hturn with hsame
      · obtain ⟨rfl, rfl⟩ := SessionTurn.next.inj hturn
        exact ⟨.inl rfl, id, hok, hsame, husable⟩
      · obtain ⟨rfl, rfl⟩ := SessionTurn.next.inj hturn
        exact ⟨.inl rfl, id, hok, hnone configured hconfigured hsame, husable⟩
    · rename_i persisted hconfigured hpersisted
      obtain ⟨rfl, rfl⟩ := SessionTurn.next.inj hturn
      exact ⟨.inl rfl, id, hok, hpersisted, usable_of_stored M hpersisted hconfigured⟩
    · rename_i hconfigured hpersisted
      obtain ⟨rfl, rfl⟩ := SessionTurn.next.inj hturn
      refine ⟨.inl rfl, id, hok, h.unissued M hok fun t _ ht => ?_, generated.ne, generated.stripped, fun c hc => ?_⟩
      · have hsecret := ht.secret
        rw [hpersisted] at hsecret
        cases hsecret
      · rw [hconfigured] at hc
        cases hc
  | loadState p secret =>
    obtain ⟨rfl, rfl⟩ := SessionTurn.next.inj hturn
    exact ⟨.inl rfl, id, hok.1, hok.2.1, hok.2.2, fun old hold => ⟨by simp [hold], fun _ => hold⟩⟩
  | commit p secret loaded =>
    obtain ⟨hp, hunissued, husable, hloaded⟩ := hok
    cases loaded with
    | none =>
      simp only [turn] at hturn
      split_ifs at hturn with hsome
      obtain ⟨rfl, rfl⟩ := SessionTurn.next.inj hturn
      have hrow : s.row = none := by simpa using hsome
      refine ⟨.inr (by rw [hrow]; rfl), fun h => absurd hrow h, ?_, sessionSecretOf_some M husable, husable⟩
      exact PurposeOk.mono (fun _ ht => ht) id hp
    | some old =>
      have hnone : sessionSecretOf s.row = none := by simpa [KeepsSecret, htask] using hkeeps
      obtain ⟨rfl, rfl⟩ := SessionTurn.next.inj hturn
      obtain ⟨hsome, hsame⟩ := hloaded old rfl
      have hne : secret ≠ old := by
        rintro rfl
        have hstored := sessionSecretOf_some M husable
        have hrow := hsame (by rw [hstored]; exact some_ne_none _)
        rw [hrow, hstored] at hnone
        cases hnone
      obtain ⟨current, hcurrent⟩ := ne_none_iff_exists'.1 hsome
      have hwritten : s.row.map (fun current => written current old secret) = some secret := by
        rw [hcurrent, map_some, written, if_neg hne]
      rw [hwritten]
      exact ⟨.inr hnone, fun _ => some_ne_none _, PurposeOk.mono (fun _ ht => ht) id hp,
        sessionSecretOf_some M husable, husable⟩
  | resolved p secret =>
    obtain ⟨hp, hsecret, husable⟩ := hok
    cases p with
    | issue actor => cases hturn
    | check c =>
      simp only [turn] at hturn
      split at hturn
      · cases hturn
      · rename_i payload hloads
        split_ifs at hturn with hworkspace
        obtain ⟨rfl, rfl⟩ := SessionTurn.next.inj hturn
        exact ⟨.inl rfl, id, hp, secret, s.now, payload, hsecret, hloads, rfl⟩
  | lookup c actor =>
    rw [turn] at hturn
    split at hturn <;> cases hturn

omit [DecidableEq Token] in
/-- the checks of issued tokens that are refused are of tokens that are too old or of accounts that are not active -/
theorem turn_refuse (h : Inv M s)
    {message : String} {c : Check Token} (htask : s.tasks.get? n = some task) (hc : task.check? = some c)
    (hissued : c.issued = true) (hturn : turn M s generated task = .refuse message) {t : IssuedToken Token}
    (ht : t ∈ s.issued) (htoken : t.token = c.token) :
    t.signed + M.maxAge < s.now ∨ ∀ account, s.accounts.getAccountById t.actor false ≠ .ok (some account) := by
  have hok := h.tasks n task htask
  have hunissued : ∀ p : Purpose Token, Unissued p → p ≠ .check c := by
    rintro p hp rfl
    rw [hp c rfl] at hissued
    cases hissued
  cases task with
  | hasAdmin cookie =>
    have hadmin := h.admin (ne_nil_of_mem ht)
    obtain rfl : cookie = some c := hc
    simp only [turn] at hturn
    rw [HasAdmin] at hadmin
    split at hturn
    · rename_i herror
      rw [herror] at hadmin
      cases hadmin
    · rename_i hfalse
      rw [hfalse] at hadmin
      cases hadmin
    · cases hturn
  | getSecret p =>
    simp only [turn] at hturn
    split at hturn
    · split_ifs at hturn
    · cases hturn
    · cases hturn
  | loadState p secret => cases hturn
  | commit p secret loaded =>
    cases p with
    | issue actor => cases hc
    | check c' =>
      cases hc
      exact absurd rfl (hunissued _ hok.2.1)
  | resolved p secret =>
    cases p with
    | issue actor => cases hc
    | check c' =>
      obtain rfl := Option.some.inj hc
      have hok' := h.issued t ht
      obtain rfl : t.secret = secret := by
        have hsecret := hok'.secret
        rw [hok.2.1] at hsecret
        exact (Option.some.inj hsecret).symm
      by_contra hstands
      rw [not_or, not_lt] at hstands
      have hloads : M.serializer.loads t.secret c'.token M.maxAge s.now = .ok (M.payload t.actor) := by
        rw [← htoken, hok'.token]
        exact M.serializer.loads_dumps _ _ _ _ _ hstands.1 hok'.signed
      simp only [turn, hloads] at hturn
      rw [if_pos (show (M.payload t.actor).workspaceId = M.workspaceId from rfl)] at hturn
      cases hturn
  | lookup c' actor =>
    cases hc
    obtain ⟨-, secret, now, payload, hsecret, hloads, rfl⟩ := hok
    have hok' := h.issued t ht
    obtain rfl : t.secret = secret := by
      have hstored := hok'.secret
      rw [hsecret] at hstored
      exact (Option.some.inj hstored).symm
    have hpayload : payload = M.payload t.actor := by
      rw [← htoken, hok'.token] at hloads
      exact M.serializer.payload_of_loads _ _ _ _ _ _ hloads
    refine .inr fun account haccount => ?_
    have hactor : payload.actorId = t.actor := by rw [hpayload]; rfl
    simp only [turn, hactor, haccount] at hturn
    cases hturn

omit [DecidableEq Token] in
theorem turn_issue
    {actor : ActorId} (h : turn M s generated task = .issue secret actor) : task = .resolved (.issue actor) secret := by
  cases task with
  | resolved p secret' =>
    cases p with
    | issue actor' =>
      obtain ⟨rfl, rfl⟩ := SessionTurn.issue.inj h
      rfl
    | check c =>
      simp only [turn] at h
      split at h
      · cases h
      · split_ifs at h
  | hasAdmin cookie =>
    simp only [turn] at h
    repeat' split at h
    all_goals cases h
  | getSecret p =>
    simp only [turn] at h
    repeat' split at h
    all_goals cases h
  | loadState p secret' => cases h
  | commit p secret' loaded =>
    cases loaded with
    | none =>
      simp only [turn] at h
      split_ifs at h
    | some old => cases h
  | lookup c actor' =>
    simp only [turn] at h
    split at h <;> cases h

omit [DecidableEq Token] in
/-- what an action may do: the row stays or has had no secret, tokens are only added, an active admin remains -/
theorem Inv.of_tasks (h : Inv M s) (hrow : s'.row = s.row ∨ sessionSecretOf s.row = none)
    (hstays : s.row ≠ none → s'.row ≠ none) (hadmin : HasAdmin s → HasAdmin s') (hnow : s.now ≤ s'.now)
    (hissued : s'.issued = s.issued)
    (htasks : ∀ n task, s'.tasks.get? n = some task → s.tasks.get? n = some task ∨ TaskOk M s' task) : Inv M s' := by
  have hsame : ∀ t ∈ s.issued, t ∈ s'.issued := by
    rw [hissued]
    exact fun _ ht => ht
  constructor
  · intro n task htask
    rcases htasks n task htask with hold | hok
    · exact (h.tasks n task hold).mono M hrow hstays hsame hadmin
    · exact hok
  · intro t ht
    rw [hissued] at ht
    have hok := h.issued t ht
    refine ⟨?_, hok.usable, hok.token, le_trans hok.signed hnow⟩
    rcases hrow with hrow | hnone
    · rw [hrow]
      exact hok.secret
    · have hsecret := hok.secret
      rw [hnone] at hsecret
      cases hsecret
  · intro hne
    rw [hissued] at hne
    exact hadmin (h.admin hne)

omit [DecidableEq Token] in
/-- a token is issued with the stored secret -/
theorem Inv.issue (h : Inv M s) {actor : ActorId}
    (htask : s.tasks.get? n = some (.resolved (.issue actor) secret)) : Inv M (s.issue M n secret actor) := by
  obtain ⟨hadmin, hsecret, husable⟩ := h.tasks n _ htask
  constructor
  · intro k task hk
    rw [SessionState.issue, Dict.get?_erase] at hk
    split_ifs at hk
    have hrow : (s.issue M n secret actor).row = s.row := rfl
    exact (h.tasks k task hk).mono M (.inl hrow) id (fun t ht => mem_cons_of_mem _ ht) id
  · intro t ht
    rcases mem_cons.1 ht with rfl | ht
    · exact ⟨hsecret, husable, rfl, le_rfl⟩
    · exact ⟨(h.issued t ht).secret, (h.issued t ht).usable, (h.issued t ht).token, (h.issued t ht).signed⟩
  · exact fun _ => hadmin

/-- **One action.** What replaces no stored secret keeps the invariant. -/
theorem sessionStep_inv (s : SessionState Token) (a : SessionAction Token) (s' : SessionState Token)
    (out : List (SessionReply Token)) (h : Inv M s) (hkeeps : KeepsSecret s a)
    (hstep : (sessions M).step s a = (some s', out)) : Inv M s' := by
  have hset : ∀ (t : SessionState Token) (n : ℕ) (task : SessionTask Token), t.tasks = s.tasks.set n task →
      TaskOk M t task → ∀ k task', t.tasks.get? k = some task' → s.tasks.get? k = some task' ∨ TaskOk M t task' := by
    intro t n task htasks hok k task' hk
    rw [htasks, Dict.get?_set] at hk
    split_ifs at hk
    · exact .inr (Option.some.inj hk ▸ hok)
    · exact .inl hk
  have herase : ∀ n, Inv M { s with tasks := s.tasks.erase n } := by
    intro n
    refine h.of_tasks M (.inl rfl) id id le_rfl rfl fun k task hk => ?_
    rw [Dict.get?_erase] at hk
    split_ifs at hk
    exact .inl hk
  cases a with
  | issue n actor =>
    change (if _ then _ else _) = _ at hstep
    split_ifs at hstep with hcond
    · obtain rfl := Option.some.inj (Prod.mk.inj hstep).1
      exact h.of_tasks M (.inl rfl) id id le_rfl rfl (hset _ n _ rfl hcond.2)
    · obtain rfl := Option.some.inj (Prod.mk.inj hstep).1
      exact h
  | check n cookie =>
    change (if _ then _ else _) = _ at hstep
    split_ifs at hstep
    · obtain rfl := Option.some.inj (Prod.mk.inj hstep).1
      exact h
    · obtain rfl := Option.some.inj (Prod.mk.inj hstep).1
      refine h.of_tasks M (.inl rfl) id id le_rfl rfl (hset _ n _ rfl ?_)
      intro c hc hissued
      obtain ⟨token, -, rfl⟩ := map_eq_some_iff.1 hc
      obtain ⟨t, ht, htoken⟩ := any_eq_true.1 hissued
      exact ⟨t, ht, of_decide_eq_true htoken⟩
  | advance n generated =>
    change (match s.tasks.get? n with
      | none => _
      | some task => _) = _ at hstep
    cases htask : s.tasks.get? n with
    | none =>
      rw [htask] at hstep
      obtain rfl := Option.some.inj (Prod.mk.inj hstep).1
      exact h
    | some task =>
      rw [htask] at hstep
      cases hturn : turn M s generated task with
      | next row task' =>
        simp only [hturn] at hstep
        obtain rfl := Option.some.inj (Prod.mk.inj hstep).1
        obtain ⟨hrow, hstays, hok⟩ := turn_next M h htask hkeeps hturn
        refine h.of_tasks M hrow hstays id le_rfl rfl (hset _ n _ rfl ?_)
        exact hok.mono M (.inl rfl) id (fun _ ht => ht) id
      | issue secret actor =>
        simp only [hturn] at hstep
        obtain rfl := Option.some.inj (Prod.mk.inj hstep).1
        refine h.issue M ?_
        rw [htask, turn_issue M hturn]
      | accept account =>
        simp only [hturn] at hstep
        obtain rfl := Option.some.inj (Prod.mk.inj hstep).1
        exact herase n
      | refuse message =>
        simp only [hturn] at hstep
        obtain rfl := Option.some.inj (Prod.mk.inj hstep).1
        exact herase n
  | accounts store =>
    change (if _ then _ else _) = _ at hstep
    split_ifs at hstep with hcond
    · obtain rfl := Option.some.inj (Prod.mk.inj hstep).1
      exact h
    · obtain rfl := Option.some.inj (Prod.mk.inj hstep).1
      refine h.of_tasks M (.inl rfl) id (fun hadmin => ?_) le_rfl rfl fun k task hk => .inl hk
      by_contra hnone
      exact hcond ⟨hadmin, hnone⟩
  | tick =>
    obtain rfl := Option.some.inj (Prod.mk.inj hstep).1
    exact h.of_tasks M (.inl rfl) id id (Nat.le_succ _) rfl fun k task hk => .inl hk

/-- The property of a state: each issued token is signed with the stored secret, and a check of it is refused only if
it is too old or its account is not active. -/
structure Stands (s : SessionState Token) : Prop where
  signed : ∀ t ∈ s.issued, sessionSecretOf s.row = some t.secret
  accepted : ∀ n generated task c t message, s.tasks.get? n = some task → task.check? = some c → c.issued = true →
    t ∈ s.issued → t.token = c.token → .refused message ∈ ((sessions M).step s (.advance n generated)).2 →
    t.signed + M.maxAge < s.now ∨ ∀ account, s.accounts.getAccountById t.actor false ≠ .ok (some account)

theorem Inv.stands (h : Inv M s) : Stands M s := by
  refine ⟨fun t ht => (h.issued t ht).secret, ?_⟩
  intro n generated task c t message htask hc hissued ht htoken hrefused
  simp only [sessions, sessionStep, htask] at hrefused
  cases hturn : turn M s generated task with
  | refuse message' => exact turn_refuse M h htask hc hissued hturn ht htoken
  | next row task' => simp [hturn] at hrefused
  | issue secret actor => simp [hturn] at hrefused
  | accept account => simp [hturn] at hrefused

/-- **The sessions stand** along a run in which no request replaces a stored secret. -/
theorem sessions_stand (s s' : SessionState Token) (acts : List (SessionAction Token)) (out : List (SessionReply Token))
    (h : Initial s) (hkeeps : (sessions M).Along KeepsSecret s acts)
    (hrun : (sessions M).run s acts = (some s', out)) : Stands M s' := by
  have hinv : Inv M s := by
    constructor
    · intro n task htask
      rw [h.tasks] at htask
      cases htask
    · intro t ht
      rw [h.issued] at ht
      cases ht
    · exact fun hne => absurd h.issued hne
  exact (hkeeps.run_inv (sessionStep_inv M) hinv hrun).stands M

end Requests

/-! ## Two first logins -/

section FirstLogins

open scoped Ascii

/-- tokens that hold what they were made of; a token of another secret is not loaded -/
def openSerializer : TimedSerializer (String × SessionPayload × ℕ) where
  dumps secret payload signed := (secret, payload, signed)
  loads secret token maxAge now :=
    if token.1 ≠ secret then .error "Runtime session is invalid."
    else if token.2.2 + maxAge < now ∨ now < token.2.2 then .error "Runtime session has expired."
    else .ok token.2.1
  loads_dumps secret payload signed maxAge now hage hsigned := by
    rw [if_neg (by simp), if_neg (by simp only; omega)]
  payload_of_loads secret payload signed maxAge now loaded h := by
    split_ifs at h with hsecret hage
    exact (Except.ok.inj h).symm

/-- a workspace without a configured secret, and sessions of an hour -/
def manager : Manager (String × SessionPayload × ℕ) := ⟨"w", 3600, none, openSerializer⟩

def admin : Accounts.ActorRow where
  subject := some "ada"
  username := some "ada"
  actorType := "human"
  status := "active"
  email := none
  displayName := none
  roles := ["admin"]
  isActive := true
  metadata := Dict.empty

/-- the workspace after its bootstrap -/
def bootstrapped : SessionState (String × SessionPayload × ℕ) where
  accounts := Store.empty.addAccount 1 admin
  row := none
  tasks := Dict.empty
  now := 0
  issued := []

def generated (text : String) (h : text ≠ "" ∧ strip text = text) : Secret := ⟨text, h.1, h.2⟩

def first : Secret := generated "g1" (by decide)
def second : Secret := generated "g2" (by decide)

def oneLogin : List (SessionAction (String × SessionPayload × ℕ)) :=
  .issue 1 1 :: List.replicate 4 (.advance 1 first) ++
    .check 2 (some ("g1", manager.payload 1, 0)) :: List.replicate 4 (.advance 2 second)

/-- two logins that both find no secret; the second stores its own when the token of the first is issued -/
def twoLogins : List (SessionAction (String × SessionPayload × ℕ)) :=
  [.issue 1 1, .issue 2 1, .advance 1 first, .advance 2 second] ++ List.replicate 3 (.advance 1 first) ++
    List.replicate 2 (.advance 2 second) ++ .check 3 (some ("g1", manager.payload 1, 0)) ::
      List.replicate 2 (.advance 3 first)

/-- the session of one login stands -/
theorem one_login : ∃ s, ((sessions manager).run bootstrapped oneLogin).1 = some s ∧ Stands manager s :=
  ⟨_, rfl, sessions_stand manager bootstrapped _ oneLogin _ ⟨rfl, rfl⟩ (by decide +kernel) rfl⟩

/-- **A replaced secret**: the token of the first login is refused as soon as the second has stored its secret, though
it has just been signed and its account is active. -/
theorem replaced_secret : ∃ s, ((sessions manager).run bootstrapped twoLogins).1 = some s ∧ ¬ Stands manager s := by
  refine ⟨_, rfl, fun h => ?_⟩
  have hrefused := h.accepted 3 first _ _ _ _ rfl rfl rfl mem_cons_self rfl mem_cons_self
  rcases hrefused with hold | hinactive
  · exact absurd hold (by decide)
  · exact hinactive _ rfl

end FirstLogins

end Langbridge.Runtime.SessionSecrets
