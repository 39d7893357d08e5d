/-
Authentication of requests with a local session beside the administration of accounts (`runtime/hosting/auth.py`): a
request looks its account up, and then upserts the actor from the principal it carries (`_ensure_runtime_actor`). Signed
tokens are read before the lookup and are not modelled.
-/
import Langbridge.Runtime.AccountRequests

namespace Langbridge.Runtime.Accounts

open Core

/-! ## Requests -/

/-- `RuntimeAuthPrincipal` of a local session -/
structure Principal where
  actorId : ActorId
  subject : String
  username : String
  email : String
  displayName : String
  roles : List String
  provider : String
  deriving DecidableEq

/-- `sync_local_session` of the session of an account -/
def Account.principal (a : Account) : Principal :=
  ⟨a.id, a.subject, a.username, a.email, a.displayName, a.roles, "runtime_local_session"⟩

/-- the first text that is not empty, or another value -/
def firstOr (fallback : Option String) : List String → Option String
  | [] => fallback
  | s :: rest => if s = "" then firstOr fallback rest else some s

def Principal.metadata (p : Principal) (metadata : Dict String MetaValue) : Dict String MetaValue :=
  (metadata.set "provider" (.text p.provider)).set "runtime_operator" (.flag true)

/-- the attributes that a request sets on the actor it has loaded -/
def Principal.apply (p : Principal) (loaded : ActorRow) : ActorRow where
  subject := some p.subject
  username := firstOr loaded.username [p.username, p.subject]
  actorType := "human"
  status := "active"
  email := some p.email
  displayName := firstOr loaded.displayName [p.displayName, p.subject, p.email]
  roles := p.roles
  isActive := true
  metadata := p.metadata loaded.metadata

/-- the actor that a request adds where it finds none -/
def Principal.newRow (p : Principal) : ActorRow where
  subject := some p.subject
  username := firstOr (some p.subject) [p.username]
  actorType := "human"
  status := "active"
  email := some p.email
  displayName := firstOr (some "Runtime Operator") [p.displayName, p.subject, p.email]
  roles := p.roles
  isActive := true
  metadata := p.metadata Dict.empty

/-- where a request stands -/
inductive AuthTask where
  | hasAdmin (actor : ActorId)
  | lookup (actor : ActorId)
  | load (p : Principal)
  | bySubject (p : Principal)
  | commit (p : Principal) (found : Option (ActorId × ActorRow))
  deriving DecidableEq

inductive AuthReply where
  | admin (reply : AdminReply)
  | authenticated (actor : ActorId)
  | refused (message : String)
  deriving DecidableEq

/-- a request goes on, or ends with a store and the actor it acts for -/
inductive AuthTurn where
  | next (task : AuthTask)
  | done (store : Store) (actor : ActorId)

/-- the insertion of an actor without a credential -/
def Store.commitActor (s : Store) (id : ActorId) (row : ActorRow) : Except String Store :=
  if s.clashes id row then .error "UNIQUE constraint failed: runtime_actors" else .ok (s.setActor id row)

section Requests

variable [PyText]

/-- a request from one await to the next -/
def AuthTask.turn (s : Store) : AuthTask → Except String AuthTurn
  | .hasAdmin actor => do
    if ← s.hasAdminAccount then return .next (.lookup actor)
    throw "Runtime bootstrap setup is required."
  | .lookup actor => do
    match ← s.getAccountById actor false with
    | none => throw "Runtime session is no longer valid."
    | some account => return .next (.load account.principal)
  | .load p =>
    match s.actors.get? p.actorId with
    | some loaded => .ok (.next (.commit p (some (p.actorId, loaded))))
    | none => if p.subject = "" then .ok (.next (.commit p none)) else .ok (.next (.bySubject p))
  | .bySubject p => .ok (.next (.commit p (s.actors.entries.find? fun e => e.2.subject = some p.subject)))
  | .commit p none => do return .done (← s.commitActor p.actorId p.newRow) p.actorId
  | .commit p (some (id, loaded)) => do return .done (← s.commitUpdate id loaded (p.apply loaded)) id

/-- the accounts with their administration, and the requests in flight -/
structure AuthState where
  admin : AdminState
  requests : Dict ℕ AuthTask
  deriving DecidableEq

/-- an action of the administration, a request with a session of an account, or a request that runs to its next await -/
inductive AuthAction where
  | admin (a : AdminAction)
  | request (n : ℕ) (actor : ActorId)
  | advance (n : ℕ)

def AuthState.advance (s : AuthState) (n : ℕ) : Option AuthState × List AuthReply :=
  match s.requests.get? n with
  | none => (some s, [])
  | some task =>
    match task.turn s.admin.store with
    | .error message => (some { s with requests := s.requests.erase n }, [.refused message])
    | .ok (.next t) => (some { s with requests := s.requests.set n t }, [])
    | .ok (.done store actor) =>
      (some ⟨{ s.admin with store := store }, s.requests.erase n⟩, [.authenticated actor])

variable (C : Collation)

def authStep (s : AuthState) : AuthAction → Option AuthState × List AuthReply
  | .admin a => ((adminStep C s.admin a).1.map fun t => ⟨t, s.requests⟩, (adminStep C s.admin a).2.map .admin)
  | .request n actor =>
    if s.requests.has n then (some s, []) else (some { s with requests := s.requests.set n (.hasAdmin actor) }, [])
  | .advance n => s.advance n

def authentication : Machine AuthState AuthAction AuthReply := ⟨authStep C⟩

/-! ## Accounts that requests leave as they are -/

/-- each attribute that is set is the one that was loaded, or the one that is stored -/
structure Kept (current loaded new : ActorRow) : Prop where
  subject : new.subject = loaded.subject ∨ new.subject = current.subject
  username : new.username = loaded.username ∨ new.username = current.username
  actorType : new.actorType = loaded.actorType ∨ new.actorType = current.actorType
  status : new.status = loaded.status ∨ new.status = current.status
  email : new.email = loaded.email ∨ new.email = current.email
  displayName : new.displayName = loaded.displayName ∨ new.displayName = current.displayName
  roles : new.roles = loaded.roles ∨ new.roles = current.roles
  isActive : new.isActive = loaded.isActive ∨ new.isActive = current.isActive
  metadata : new.metadata = loaded.metadata ∨ new.metadata = current.metadata

omit [PyText] in
theorem flush_eq_iff (current loaded new : ActorRow) : flush current loaded new = current ↔ Kept current loaded new := by
  have hrow : flush current loaded new = current ↔
      written current.subject loaded.subject new.subject = current.subject ∧
        written current.username loaded.username new.username = current.username ∧
        written current.actorType loaded.actorType new.actorType = current.actorType ∧
        written current.status loaded.status new.status = current.status ∧
        written current.email loaded.email new.email = current.email ∧
        written current.displayName loaded.displayName new.displayName = current.displayName ∧
        written current.roles loaded.roles new.roles = current.roles ∧
        written current.isActive loaded.isActive new.isActive = current.isActive ∧
        written current.metadata loaded.metadata new.metadata = current.metadata := by
    exact ActorRow.mk.injEq .. ▸ Iff.rfl
  simp only [hrow, written_eq_iff]
  constructor
  · rintro ⟨h1, h2, h3, h4, h5, h6, h7, h8, h9⟩
    exact ⟨h1, h2, h3, h4, h5, h6, h7, h8, h9⟩
  · intro h
    exact ⟨h.subject, h.username, h.actorType, h.status, h.email, h.displayName, h.roles, h.isActive, h.metadata⟩

instance (current loaded new : ActorRow) : Decidable (Kept current loaded new) :=
  decidable_of_iff (flush current loaded new = current) (flush_eq_iff current loaded new)

/-- the request is not at its commit, or what it sets on an account was loaded or is stored -/
def UnmovedTask (s : Store) : AuthTask → Prop
  | .commit p (some (id, loaded)) => (s.account? id).elim True fun current => Kept current loaded (p.apply loaded)
  | _ => True

/-- the request that runs does not move its account -/
def Unmoved (s : AuthState) : AuthAction → Prop
  | .advance n => (s.requests.get? n).elim True (UnmovedTask s.admin.store)
  | _ => True

instance (s : Store) : DecidablePred (UnmovedTask s)
  | .commit _ (some (id, _)) => decidableElim (s.account? id)
  | .commit _ none | .hasAdmin _ | .lookup _ | .load _ | .bySubject _ => .isTrue trivial

instance (s : AuthState) : DecidablePred (Unmoved s)
  | .advance n => decidableElim (s.requests.get? n)
  | .admin _ | .request .. => .isTrue trivial

def LeavesAccounts (s : AuthState) (a : AuthAction) : Prop :=
  (∀ admin, a ≠ .admin admin) → ∀ s' out, (authentication C).step s a = (some s', out) →
    ∀ id, s'.admin.store.account? id = s.admin.store.account? id

end Requests

section Frame

variable [PyText] {C : Collation}

omit [PyText] in
theorem account?_setActor (s : Store) (id : ActorId) (row : ActorRow) (other : ActorId) :
    (s.setActor id row).account? other =
      if other ∈ s.credentials then if other = id then some row else s.actors.get? other else none := by
  unfold Store.account? Store.setActor
  rw [Dict.get?_set]

omit [PyText] in
theorem commitActor_accounts {s store : Store} {id : ActorId} {row : ActorRow} (h : s.commitActor id row = .ok store)
    (other : ActorId) : store.account? other = s.account? other := by
  unfold Store.commitActor at h
  split_ifs at h with hclashes
  cases h
  have hfree := get?_of_not_clashes hclashes
  rw [account?_setActor]
  unfold Store.account?
  split_ifs with hmem hself
  · obtain ⟨r, hr⟩ := (Dict.mem_keys_iff _ _).1 (s.linked other hmem)
    rw [hself, hfree] at hr
    cases hr
  · rfl
  · rfl

omit [PyText] in
/-- the commit of an update leaves the accounts as they are if and only if it keeps the row it writes, if an account's -/
theorem commitUpdate_accounts {s store : Store} {id : ActorId} {loaded new : ActorRow}
    (h : s.commitUpdate id loaded new = .ok store) :
    (∀ other, store.account? other = s.account? other) ↔
      (s.account? id).elim True fun current => Kept current loaded new := by
  unfold Store.commitUpdate at h
  cases hcurrent : s.actors.get? id with
  | none =>
    simp only [hcurrent] at h
    cases h
  | some current =>
    simp only [hcurrent] at h
    cases h
    have haccount : s.account? id = if id ∈ s.credentials then some current else none := by
      unfold Store.account?
      rw [hcurrent]
    rw [haccount]
    split_ifs with hmem
    · rw [Option.elim_some, ← flush_eq_iff]
      constructor
      · intro hsame
        have hid := hsame id
        rw [account?_setActor, if_pos hmem, if_pos rfl, haccount, if_pos hmem] at hid
        exact Option.some.inj hid
      · intro hkept other
        rw [account?_setActor, hkept]
        unfold Store.account?
        split_ifs with hother hself
        · rw [hself, hcurrent]
        · rfl
        · rfl
    · refine ⟨fun _ => trivial, fun _ other => ?_⟩
      rw [account?_setActor]
      unfold Store.account?
      split_ifs with hother hself
      · exact absurd (hself ▸ hother) hmem
      · rfl
      · rfl

/-- a request ends with a commit, and that leaves the accounts as they are if and only if it is unmoved -/
theorem turn_accounts {s store : Store} {task : AuthTask} {actor : ActorId} (h : task.turn s = .ok (.done store actor)) :
    (∀ id, store.account? id = s.account? id) ↔ UnmovedTask s task := by
  cases task with
  | hasAdmin id =>
    obtain ⟨found, -, h⟩ := of_bind_ok h
    cases found <;> cases h
  | lookup id =>
    obtain ⟨found, -, h⟩ := of_bind_ok h
    cases found <;> cases h
  | load p =>
    unfold AuthTask.turn at h
    cases hloaded : s.actors.get? p.actorId with
    | none =>
      simp only [hloaded] at h
      split_ifs at h <;> cases h
    | some loaded =>
      simp only [hloaded] at h
      cases h
  | bySubject p => cases h
  | commit p found =>
    cases found with
    | none =>
      obtain ⟨store', hstore, h⟩ := of_bind_ok h
      cases h
      exact ⟨fun _ => trivial, fun _ => commitActor_accounts hstore⟩
    | some e =>
      obtain ⟨store', hstore, h⟩ := of_bind_ok h
      cases h
      exact commitUpdate_accounts hstore

/-- a request that does not end with a commit is unmoved -/
theorem unmoved_of_turn {s : Store} {task : AuthTask} (h : ∀ store actor, task.turn s ≠ .ok (.done store actor)) :
    UnmovedTask s task := by
  cases task with
  | commit p found =>
    cases found with
    | none => trivial
    | some e =>
      change (s.account? e.1).elim True fun current => Kept current e.2 (p.apply e.2)
      cases haccount : s.account? e.1 with
      | none => trivial
      | some current =>
        -- the row of an account is there to be written
        unfold Store.account? at haccount
        split_ifs at haccount
        refine absurd ?_ (h (s.setActor e.1 (flush current e.2 (p.apply e.2))) e.1)
        have hcommit : s.commitUpdate e.1 e.2 (p.apply e.2) =
            .ok (s.setActor e.1 (flush current e.2 (p.apply e.2))) := by
          unfold Store.commitUpdate
          rw [haccount]
        change (s.commitUpdate e.1 e.2 (p.apply e.2) >>= fun store => .ok (AuthTurn.done store e.1)) = _
        rw [hcommit]
        rfl
  | _ => trivial

/-- the step of a request leaves the accounts as they are if and only if the request is unmoved -/
theorem advance_accounts (s : AuthState) (n : ℕ) :
    (∀ s' out, s.advance n = (some s', out) → ∀ id, s'.admin.store.account? id = s.admin.store.account? id) ↔
      (s.requests.get? n).elim True (UnmovedTask s.admin.store) := by
  unfold AuthState.advance
  cases htask : s.requests.get? n with
  | none =>
    refine ⟨fun _ => trivial, fun _ s' out h id => ?_⟩
    cases h
    rfl
  | some task =>
    rw [Option.elim_some]
    dsimp only
    cases hturn : task.turn s.admin.store with
    | error message =>
      refine ⟨fun _ => unmoved_of_turn fun _ _ h => ?_, fun _ s' out h id => ?_⟩
      · rw [hturn] at h
        cases h
      · cases h
        rfl
    | ok turn =>
      cases turn with
      | next t =>
        refine ⟨fun _ => unmoved_of_turn fun _ _ h => ?_, fun _ s' out h id => ?_⟩
        · rw [hturn] at h
          cases h
        · cases h
          rfl
      | done store actor =>
        rw [← turn_accounts hturn]
        constructor
        · intro h
          exact h _ _ rfl
        · intro h s' out hstep
          cases hstep
          exact h

theorem leavesAccounts_iff (s : AuthState) (a : AuthAction) : LeavesAccounts C s a ↔ Unmoved s a := by
  cases a with
  | admin b => exact ⟨fun _ => trivial, fun _ h => absurd rfl (h b)⟩
  | request n actor =>
    refine ⟨fun _ => trivial, fun _ _ s' out h id => ?_⟩
    change (if s.requests.has n then _ else _) = _ at h
    split_ifs at h <;> cases h <;> rfl
  | advance n =>
    have hadvance := advance_accounts s n
    constructor
    · intro h
      exact hadvance.1 (h fun _ hne => by cases hne)
    · intro h _
      exact hadvance.2 h

variable (C)

end Frame

section Revived

open scoped Ascii

def operator (name : String) (roles : List String) : ActorRow :=
  ⟨some name, some name, "human", "active", some (name ++ "@example.org"), some name, roles, true,
    localMetadata Dict.empty⟩

/-- the admin `ada` and the analyst `bob` -/
def twoOperators : AuthState where
  admin := ⟨(Store.empty.addAccount 1 (operator "ada" ["admin"])).addAccount 2 (operator "bob" ["analyst"]), Dict.empty⟩
  requests := Dict.empty

/-- an admin disables `bob` between the lookup and the load of a request of `bob` -/
def disabledInFlight : List AuthAction :=
  .request 0 2 :: .advance 0 :: .advance 0 :: .admin (.update 0 2 disable) ::
    (List.replicate 4 (AuthAction.admin (.advance 0 0)) ++ [.advance 0, .advance 0])

/-- an admin makes `bob` a service, and `bob` sends a request -/
def retypedBefore : List AuthAction :=
  .admin (.update 0 2 ⟨none, none, some "service", none, none⟩) ::
    (List.replicate 4 (AuthAction.admin (.advance 0 0)) ++ .request 0 2 :: List.replicate 4 (.advance 0))

/-- the status and the actor type of `bob` after a run -/
def bobAfter (acts : List AuthAction) : Option (String × String) :=
  ((authentication asciiCollation).run twoOperators acts).1.bind fun s =>
    (s.admin.store.account? 2).map fun row => (row.status, row.actorType)

end Revived

end Langbridge.Runtime.Accounts
