/-
Concurrent requests that administer accounts (`RuntimeLocalAuthManager` over the persisted store): `update_actor`,
`create_actor` and `bootstrap_admin`. A request runs from one await to the next; a unit of work is committed at once, and
what it does not read again may have changed since it was looked up.
-/
import Langbridge.Core.Machine
import Langbridge.Runtime.Accounts

namespace Langbridge.Runtime.Accounts

open Core List

/-! ## Requests -/

structure UpdateFields where
  email : Option String
  displayName : Option String
  actorType : Option String
  status : Option String
  roles : Option (List String)
  deriving DecidableEq

/-- the arguments of `create_actor` -/
structure CreateRequest where
  username : String
  email : String
  password : String
  displayName : Option String
  actorType : Option String
  roles : List String

/-- the arguments of `bootstrap_admin` -/
structure BootstrapRequest where
  username : String
  email : String
  password : String

/-- the arguments of `create_account`; those of a bootstrap are the username and the e-mail -/
inductive Creation where
  | actor (username email displayName actorType : String) (roles : List String)
  | admin (username email : String)
  deriving DecidableEq

def Creation.isBootstrap : Creation → Bool
  | .actor .. => false
  | .admin .. => true

def Creation.username : Creation → String
  | .actor username .. => username
  | .admin username _ => username

def Creation.email : Creation → String
  | .actor _ email .. => email
  | .admin _ email => email

/-- the entries that local accounts have in their metadata -/
def localMetadata (metadata : Dict String MetaValue) : Dict String MetaValue :=
  ((metadata.set "provider" (.text "runtime_local_session")).set "runtime_operator" (.flag true)).set "local_auth"
    (.flag true)

/-- the actor that `create_account` adds -/
def Creation.row : Creation → ActorRow
  | .actor username email displayName actorType roles =>
    ⟨some username, some username, actorType, "active", some email, some displayName, roles, true,
      localMetadata Dict.empty⟩
  | .admin username email =>
    ⟨some username, some username, "human", "active", some email, some username, ["admin"], true,
      localMetadata Dict.empty⟩

/-- where a request stands: the await it comes from, and what it has read so far -/
inductive AdminTask where
  | updateLookup (actor : ActorId) (fields : UpdateFields)
  | updateCheck (actor : ActorId) (fields : UpdateFields) (existing : Account)
  | updateLoad (actor : ActorId) (fields : UpdateFields) (existing : Account)
  | updateUnique (actor : ActorId) (fields : UpdateFields) (existing : Account) (loaded : ActorRow)
  | updateCommit (actor : ActorId) (fields : UpdateFields) (existing : Account) (loaded : ActorRow)
  | bootstrapCheck (creation : Creation)
  | createUsername (creation : Creation)
  | createEmail (creation : Creation)
  | createCommit (creation : Creation)
  deriving DecidableEq

inductive AdminReply where
  | updated
  | created
  | bootstrapped
  | failed (message : String)
  deriving DecidableEq

/-- a request goes on, or ends with a store and a reply -/
inductive Turn where
  | next (task : AdminTask)
  | done (store : Store) (reply : AdminReply)

section Requests

variable [PyText] (C : Collation)

/-! ## The steps of a request -/

/-- the fields that `update_actor` normalizes after it has looked the account up -/
def normalizeFields (fields : UpdateFields) (existing : Account) : Except String UpdateFields := do
  let email ← fields.email.mapM normalizeEmail
  let displayName := fields.displayName.map fun name => normalizeDisplayName (some name) existing.username
  let actorType := fields.actorType.map normalizeActorType
  let status ← fields.status.mapM normalizeActorStatus
  let roles ← fields.roles.mapM normalizeRuntimeRoles
  return ⟨email, displayName, actorType, status, roles⟩

/-- `next_status` of `update_actor` -/
def nextStatus (fields : UpdateFields) (existing : Account) : String := fields.status.getD existing.status

/-- `next_roles` of `update_actor` -/
def nextRoles (fields : UpdateFields) (existing : Account) : List String := fields.roles.getD existing.roles

def ensureActiveAdminRemains (accounts : List Account) (actor : ActorId) (status : String) (roles : List String) :
    Except String Unit :=
  let counted (account : Account) : Bool :=
    if account.id = actor then status = "active" && hasAdminRole roles else isActiveAdmin account
  if accounts.any counted then .ok () else .error "At least one active admin runtime user is required."

/-- the e-mail of an update is another one -/
def changesEmail (fields : UpdateFields) (loaded : ActorRow) : Bool :=
  match fields.email with
  | none => false
  | some email => normalizeIdentifier C (some email) ≠ normalizeIdentifier C loaded.email

/-- the attributes that `update_account` sets on the actor it has loaded -/
def updatedRow (fields : UpdateFields) (loaded : ActorRow) : ActorRow :=
  { loaded with
    email := if changesEmail C fields loaded then fields.email else loaded.email
    displayName := fields.displayName.or loaded.displayName
    actorType := fields.actorType.getD loaded.actorType
    status := fields.status.getD loaded.status
    isActive := fields.status.elim loaded.isActive fun status => status = "active"
    roles := fields.roles.getD loaded.roles
    metadata := localMetadata loaded.metadata }

/-- the flush and the commit of `update_account` -/
def Store.commitUpdate (s : Store) (actor : ActorId) (loaded new : ActorRow) : Except String Store :=
  match s.actors.get? actor with
  | none => .error "UPDATE statement on table 'runtime_actors' expected to update 1 row(s); 0 were matched."
  | some current => .ok (s.setActor actor (flush current loaded new))

/-- identifiers, subjects and usernames are unique -/
def Store.clashes (s : Store) (id : ActorId) (row : ActorRow) : Bool :=
  s.actors.has id || s.actors.values.any fun r => r.subject = row.subject || r.username = row.username

/-- the flush and the commit of `create_account` -/
def Store.commitCreate (s : Store) (id : ActorId) (row : ActorRow) : Except String Store :=
  if s.clashes id row then .error "UNIQUE constraint failed: runtime_actors" else .ok (s.addAccount id row)

/-- a request from one await to the next; `fresh` is the identifier that `uuid4` gives -/
def AdminTask.turn (s : Store) (fresh : ActorId) : AdminTask → Except String Turn
  | .updateLookup actor fields => do
    match ← s.getAccountById actor true with
    | none => throw "Runtime actor was not found."
    | some existing => return .next (.updateCheck actor (← normalizeFields fields existing) existing)
  | .updateCheck actor fields existing => do
    ensureActiveAdminRemains (← s.listAccounts) actor (nextStatus fields existing) (nextRoles fields existing)
    return .next (.updateLoad actor fields existing)
  | .updateLoad actor fields existing =>
    match s.account? actor with
    | none => .error "Runtime actor was not found."
    | some loaded =>
      if changesEmail C fields loaded then .ok (.next (.updateUnique actor fields existing loaded))
      else .ok (.next (.updateCommit actor fields existing loaded))
  | .updateUnique actor fields existing loaded => do
    s.ensureUnique C (·.email) (fields.email.getD "") "A runtime actor already uses that email." (some actor)
    return .next (.updateCommit actor fields existing loaded)
  | .updateCommit actor fields _ loaded => do
    return .done (← s.commitUpdate actor loaded (updatedRow C fields loaded)) .updated
  | .bootstrapCheck creation => do
    if ← s.hasAdminAccount then throw "Runtime bootstrap has already been completed."
    return .next (.createUsername creation)
  | .createUsername creation => do
    s.ensureUnique C (·.username) creation.username "A runtime actor already uses that username." none
    return .next (.createEmail creation)
  | .createEmail creation => do
    s.ensureUnique C (·.email) creation.email "A runtime actor already uses that email." none
    return .next (.createCommit creation)
  | .createCommit creation => do
    return .done (← s.commitCreate fresh creation.row) (if creation.isBootstrap then .bootstrapped else .created)

def checkPassword (password : String) : Except String Unit :=
  if password.length < 8 then .error "Password must be at least 8 characters." else .ok ()

/-- `create_actor` up to its first await -/
def CreateRequest.creation (r : CreateRequest) : Except String Creation := do
  let username ← normalizeUsername r.username
  let email ← normalizeEmail r.email
  let displayName := normalizeDisplayName r.displayName username
  let actorType := normalizeActorType (r.actorType.getD "human")
  let roles ← normalizeRuntimeRoles r.roles
  checkPassword r.password
  return .actor username email displayName actorType roles

/-- `bootstrap_admin` up to its first await -/
def BootstrapRequest.creation (r : BootstrapRequest) : Except String Creation := do
  let username ← normalizeUsername r.username
  let email ← normalizeEmail r.email
  checkPassword r.password
  return .admin username email

/-! ## Any number of requests -/

/-- the store and the requests in flight -/
structure AdminState where
  store : Store
  tasks : Dict ℕ AdminTask
  deriving DecidableEq

/-- a request arrives under a number, or the one with a number runs to its next await -/
inductive AdminAction where
  | update (n : ℕ) (actor : ActorId) (fields : UpdateFields)
  | create (n : ℕ) (r : CreateRequest)
  | bootstrap (n : ℕ) (r : BootstrapRequest)
  | advance (n : ℕ) (fresh : ActorId)

/-- a request begins; a number that is in use is not taken again -/
def AdminState.begin (s : AdminState) (n : ℕ) (task : Except String AdminTask) : Option AdminState × List AdminReply :=
  if s.tasks.has n then (some s, [])
  else
    match task with
    | .error message => (some s, [.failed message])
    | .ok t => (some { s with tasks := s.tasks.set n t }, [])

/-- a request runs to its next await -/
def AdminState.advance (s : AdminState) (n : ℕ) (fresh : ActorId) : Option AdminState × List AdminReply :=
  match s.tasks.get? n with
  | none => (some s, [])
  | some task =>
    match task.turn C s.store fresh with
    | .error message => (some { s with tasks := s.tasks.erase n }, [.failed message])
    | .ok (.next t) => (some { s with tasks := s.tasks.set n t }, [])
    | .ok (.done store reply) => (some ⟨store, s.tasks.erase n⟩, [reply])

def adminStep (s : AdminState) : AdminAction → Option AdminState × List AdminReply
  | .update n actor fields => s.begin n (.ok (.updateLookup actor fields))
  | .create n r => s.begin n (r.creation.map .createUsername)
  | .bootstrap n r => s.begin n (r.creation.map .bootstrapCheck)
  | .advance n fresh => s.advance C n fresh

def administration : Machine AdminState AdminAction AdminReply := ⟨adminStep C⟩

/-! ## Standing commits -/

/-- nobody has changed the status and the roles of an account since an update looked it up and loaded it -/
structure Untouched (s : Store) (actor : ActorId) (existing : Account) (loaded : ActorRow) : Prop where
  stored : (s.account? actor).any (fun row =>
    row.status = loaded.status && row.isActive = loaded.isActive && row.roles = loaded.roles) = true
  status : coerceActorStatus loaded = existing.status
  roles : normalizeStoredRoles loaded.roles = existing.roles

instance (s : Store) (actor : ActorId) (existing : Account) (loaded : ActorRow) :
    Decidable (Untouched s actor existing loaded) :=
  decidable_of_iff (_ ∧ _ ∧ _) ⟨fun h => ⟨h.1, h.2.1, h.2.2⟩, fun h => ⟨h.stored, h.status, h.roles⟩⟩

/-- an active admin does not depend on the update: another account is one, or the update makes its account one, which
nobody has changed meanwhile -/
def StandingUpdate (s : Store) (actor : ActorId) (fields : UpdateFields) (existing : Account) (loaded : ActorRow) : Prop :=
  s.hasOtherAdmin actor = true ∨
    nextStatus fields existing = "active" ∧ hasAdminRole (nextRoles fields existing) = true ∧
      Untouched s actor existing loaded

instance (s : Store) (actor : ActorId) (fields : UpdateFields) (existing : Account) (loaded : ActorRow) :
    Decidable (StandingUpdate s actor fields existing loaded) := inferInstanceAs (Decidable (_ ∨ _))

/-- a commit of an update is standing, and one of a bootstrap finds no active admin -/
def StandingTask (s : Store) : AdminTask → Prop
  | .updateCommit actor fields existing loaded => StandingUpdate s actor fields existing loaded
  | .createCommit creation => creation.isBootstrap = true → s.hasAdmin = false
  | _ => True

instance (s : Store) : DecidablePred (StandingTask s)
  | .updateCommit actor fields existing loaded => inferInstanceAs (Decidable (StandingUpdate s actor fields existing loaded))
  | .createCommit _ => inferInstanceAs (Decidable (_ → _))
  | .updateLookup .. | .updateCheck .. | .updateLoad .. | .updateUnique .. | .bootstrapCheck _ | .createUsername _
  | .createEmail _ => .isTrue trivial

/-- the request that runs is not at a commit, or its commit is standing -/
def Standing (s : AdminState) : AdminAction → Prop
  | .advance n _ => (s.tasks.get? n).elim True (StandingTask s.store)
  | _ => True

instance (s : AdminState) : DecidablePred (Standing s)
  | .advance n _ => decidableElim (s.tasks.get? n)
  | .update .. | .create .. | .bootstrap .. => .isTrue trivial

theorem Standing.task {s : AdminState} {n : ℕ} {fresh : ActorId} {task : AdminTask} (h : Standing s (.advance n fresh))
    (htask : s.tasks.get? n = some task) : StandingTask s.store task := by
  change (s.tasks.get? n).elim True (StandingTask s.store) at h
  rw [htask] at h
  exact h

end Requests

/-! ### What a step does -/

section Steps

variable [PyText] {C : Collation}

variable {s store : Store}

/-- a request ends with a commit -/
theorem turn_done {fresh : ActorId} {task : AdminTask} {reply : AdminReply}
    (h : task.turn C s fresh = .ok (.done store reply)) :
    (∃ actor fields existing loaded, task = .updateCommit actor fields existing loaded ∧
        s.commitUpdate actor loaded (updatedRow C fields loaded) = .ok store ∧ reply = .updated) ∨
      ∃ creation, task = .createCommit creation ∧ s.commitCreate fresh creation.row = .ok store ∧
        reply = if creation.isBootstrap then .bootstrapped else .created := by
  cases task with
  | updateLookup actor fields =>
    obtain ⟨found, -, h⟩ := of_bind_ok h
    cases found with
    | none => cases h
    | some existing =>
      obtain ⟨fields', -, h⟩ := of_bind_ok h
      cases h
  | updateCheck actor fields existing =>
    obtain ⟨accounts, -, h⟩ := of_bind_ok h
    obtain ⟨u, -, h⟩ := of_bind_ok h
    cases h
  | updateLoad actor fields existing =>
    unfold AdminTask.turn at h
    cases hloaded : s.account? actor with
    | none =>
      simp only [hloaded] at h
      cases h
    | some loaded =>
      simp only [hloaded] at h
      split_ifs at h <;> cases h
  | updateUnique actor fields existing loaded =>
    obtain ⟨u, -, h⟩ := of_bind_ok h
    cases h
  | updateCommit actor fields existing loaded =>
    obtain ⟨store', hstore, h⟩ := of_bind_ok h
    cases h
    exact .inl ⟨actor, fields, existing, loaded, rfl, hstore, rfl⟩
  | bootstrapCheck creation =>
    obtain ⟨found, -, h⟩ := of_bind_ok h
    cases found with
    | true => cases h
    | false => cases h
  | createUsername creation =>
    obtain ⟨u, -, h⟩ := of_bind_ok h
    cases h
  | createEmail creation =>
    obtain ⟨u, -, h⟩ := of_bind_ok h
    cases h
  | createCommit creation =>
    obtain ⟨store', hstore, h⟩ := of_bind_ok h
    cases h
    exact .inr ⟨creation, rfl, hstore, rfl⟩

/-- what a step does to the store: nothing, or the commit of one request -/
inductive StepEffect (C : Collation) (s : AdminState) (a : AdminAction) (store : Store) (out : List AdminReply) : Prop
  | quiet (hstore : store = s.store) (hout : .bootstrapped ∉ out)
  | update (n : ℕ) (fresh actor : ActorId) (fields : UpdateFields) (existing : Account) (loaded : ActorRow)
      (haction : a = .advance n fresh) (htask : s.tasks.get? n = some (.updateCommit actor fields existing loaded))
      (hcommit : s.store.commitUpdate actor loaded (updatedRow C fields loaded) = .ok store) (hout : out = [.updated])
  | create (n : ℕ) (fresh : ActorId) (creation : Creation) (haction : a = .advance n fresh)
      (htask : s.tasks.get? n = some (.createCommit creation))
      (hcommit : s.store.commitCreate fresh creation.row = .ok store)
      (hout : out = [if creation.isBootstrap then .bootstrapped else .created])

theorem begin_effect {s s' : AdminState} {n : ℕ} {a : AdminAction} {task : Except String AdminTask}
    {out : List AdminReply} (h : s.begin n task = (some s', out)) : StepEffect C s a s'.store out := by
  unfold AdminState.begin at h
  split_ifs at h
  · cases h
    exact .quiet rfl not_mem_nil
  · cases task with
    | error message =>
      cases h
      exact .quiet rfl (by simp)
    | ok t =>
      cases h
      exact .quiet rfl not_mem_nil

theorem step_effect {s s' : AdminState} {a : AdminAction} {out : List AdminReply}
    (h : (administration C).step s a = (some s', out)) : StepEffect C s a s'.store out := by
  cases a with
  | update n actor fields =>
    have hbegin : s.begin n (.ok (.updateLookup actor fields)) = (some s', out) := h
    exact begin_effect hbegin
  | create n r =>
    have hbegin : s.begin n (r.creation.map .createUsername) = (some s', out) := h
    exact begin_effect hbegin
  | bootstrap n r =>
    have hbegin : s.begin n (r.creation.map .bootstrapCheck) = (some s', out) := h
    exact begin_effect hbegin
  | advance n fresh =>
    change s.advance C n fresh = _ at h
    unfold AdminState.advance at h
    cases htask : s.tasks.get? n with
    | none =>
      simp only [htask] at h
      cases h
      exact .quiet rfl not_mem_nil
    | some task =>
      simp only [htask] at h
      cases hturn : task.turn C s.store fresh with
      | error message =>
        simp only [hturn] at h
        cases h
        exact .quiet rfl (by simp)
      | ok turn =>
        cases turn with
        | next t =>
          simp only [hturn] at h
          cases h
          exact .quiet rfl not_mem_nil
        | done store reply =>
          simp only [hturn] at h
          cases h
          rcases turn_done hturn with ⟨actor, fields, existing, loaded, rfl, hcommit, rfl⟩ | ⟨creation, rfl, hcommit, rfl⟩
          · exact .update n fresh actor fields existing loaded rfl htask hcommit rfl
          · exact .create n fresh creation rfl htask hcommit rfl

/-- the run goes on after every action -/
theorem step_goes_on (s : AdminState) (a : AdminAction) : ∃ s' out, (administration C).step s a = (some s', out) := by
  have hbegin : ∀ n task, ∃ s' out, s.begin n task = (some s', out) := by
    intro n task
    unfold AdminState.begin
    split_ifs
    · exact ⟨_, _, rfl⟩
    · cases task <;> exact ⟨_, _, rfl⟩
  cases a with
  | update n actor fields => exact hbegin n (.ok (.updateLookup actor fields))
  | create n r => exact hbegin n (r.creation.map .createUsername)
  | bootstrap n r => exact hbegin n (r.creation.map .bootstrapCheck)
  | advance n fresh =>
    change ∃ s' out, s.advance C n fresh = (some s', out)
    unfold AdminState.advance
    cases s.tasks.get? n with
    | none => exact ⟨_, _, rfl⟩
    | some task =>
      cases hturn : task.turn C s.store fresh with
      | error message =>
        simp only [hturn]
        exact ⟨_, _, rfl⟩
      | ok turn =>
        cases turn <;> simp only [hturn] <;> exact ⟨_, _, rfl⟩

/-! ### What a commit keeps -/

theorem hasAdmin_iff (s : Store) :
    s.hasAdmin = true ↔ ∃ id ∈ s.credentials, ∃ row, s.actors.get? id = some row ∧ activeAdmin row = true := by
  unfold Store.hasAdmin
  simp only [any_eq_true, Option.any_eq_true]

theorem hasOtherAdmin_iff (s : Store) (actor : ActorId) :
    s.hasOtherAdmin actor = true ↔
      ∃ id ∈ s.credentials, id ≠ actor ∧ ∃ row, s.actors.get? id = some row ∧ activeAdmin row = true := by
  unfold Store.hasOtherAdmin
  simp only [any_eq_true, Bool.and_eq_true, decide_eq_true_eq, Option.any_eq_true]

omit [PyText] in
theorem commitUpdate_ok {actor : ActorId} {loaded new : ActorRow} (h : s.commitUpdate actor loaded new = .ok store) :
    ∃ current, s.actors.get? actor = some current ∧ store.credentials = s.credentials ∧
      ∀ id, store.actors.get? id = if id = actor then some (flush current loaded new) else s.actors.get? id := by
  unfold Store.commitUpdate at h
  cases hcurrent : s.actors.get? actor with
  | none =>
    simp only [hcurrent] at h
    cases h
  | some current =>
    simp only [hcurrent] at h
    cases h
    exact ⟨current, rfl, rfl, fun id => Dict.get?_set _ _ _ _⟩

variable {id : ActorId} {row : ActorRow}

omit [PyText] in
theorem get?_of_not_clashes (h : ¬s.clashes id row = true) : s.actors.get? id = none := by
  unfold Store.clashes at h
  rw [Bool.or_eq_true, not_or] at h
  have hhas : s.actors.has id ≠ true := h.1
  exact Option.not_isSome_iff_eq_none.1 hhas

omit [PyText] in
/-- the commit of a creation adds one row -/
theorem commitCreate_ok (h : s.commitCreate id row = .ok store) :
    s.actors.get? id = none ∧ store.credentials = s.credentials ++ [id] ∧
      ∀ other, store.actors.get? other = if other = id then some row else s.actors.get? other := by
  unfold Store.commitCreate at h
  split_ifs at h with hclashes
  cases h
  exact ⟨get?_of_not_clashes hclashes, rfl, fun other => Dict.get?_set _ _ _ _⟩

/-- a creation takes no admin away -/
theorem commitCreate_hasAdmin (h : s.commitCreate id row = .ok store)
    (hadmin : s.hasAdmin = true ∨ activeAdmin row = true) : store.hasAdmin = true := by
  obtain ⟨hfree, hcredentials, hget⟩ := commitCreate_ok h
  rw [hasAdmin_iff]
  rcases hadmin with hadmin | hadmin
  · obtain ⟨other, hother, r, hr, hactive⟩ := (hasAdmin_iff s).1 hadmin
    refine ⟨other, ?_, r, ?_, hactive⟩
    · rw [hcredentials]
      exact mem_append_left _ hother
    · rw [hget, if_neg ?_]
      · exact hr
      · rintro rfl
        rw [hfree] at hr
        cases hr
  · refine ⟨id, ?_, row, ?_, hadmin⟩
    · rw [hcredentials]
      exact mem_append_right _ mem_cons_self
    · rw [hget, if_pos rfl]

end Steps

section Admins

variable [PyWords] {C : Collation}

/-- the row that a standing update writes is one of an active admin where the update makes it one -/
theorem activeAdmin_flush {fields : UpdateFields} {existing : Account} {current loaded : ActorRow}
    (hstatus : nextStatus fields existing = "active") (hroles : hasAdminRole (nextRoles fields existing) = true)
    (hcurrent : (current.status = loaded.status ∧ current.isActive = loaded.isActive) ∧ current.roles = loaded.roles)
    (hloaded : coerceActorStatus loaded = existing.status) (hstored : normalizeStoredRoles loaded.roles = existing.roles) :
    activeAdmin (flush current loaded (updatedRow C fields loaded)) = true := by
  set row := flush current loaded (updatedRow C fields loaded) with hrow
  have hrowStatus : row.status = fields.status.getD loaded.status := written_of_loaded hcurrent.1.1 _
  have hrowActive : row.isActive = fields.status.elim loaded.isActive fun status => status = "active" :=
    written_of_loaded hcurrent.1.2 _
  have hrowRoles : row.roles = fields.roles.getD loaded.roles := written_of_loaded hcurrent.2 _
  unfold activeAdmin
  rw [Bool.and_eq_true, decide_eq_true_eq]
  constructor
  · unfold nextStatus at hstatus
    cases hgiven : fields.status with
    | some status =>
      rw [hgiven] at hstatus hrowStatus
      exact coerceActorStatus_active (hrowStatus.trans hstatus)
    | none =>
      rw [hgiven] at hstatus hrowStatus hrowActive
      unfold coerceActorStatus at hloaded ⊢
      rw [show row.status = loaded.status from hrowStatus, show row.isActive = loaded.isActive from hrowActive, hloaded]
      exact hstatus
  · unfold nextRoles at hroles
    rw [hrowRoles]
    cases hgiven : fields.roles with
    | some roles =>
      rw [hgiven] at hroles
      exact hroles
    | none =>
      rw [hgiven, Option.getD_none, ← hstored, hasAdminRole_stored] at hroles
      exact hroles

theorem standing_update {s store : Store} {actor : ActorId} {fields : UpdateFields} {existing : Account}
    {loaded : ActorRow} (hstanding : StandingUpdate s actor fields existing loaded)
    (h : s.commitUpdate actor loaded (updatedRow C fields loaded) = .ok store) : store.hasAdmin = true := by
  obtain ⟨current, hcurrent, hcredentials, hget⟩ := commitUpdate_ok h
  rw [hasAdmin_iff, hcredentials]
  rcases hstanding with hother | ⟨hstatus, hroles, huntouched⟩
  · obtain ⟨id, hid, hne, row, hrow, hactive⟩ := (hasOtherAdmin_iff s actor).1 hother
    refine ⟨id, hid, row, ?_, hactive⟩
    rw [hget, if_neg hne]
    exact hrow
  · obtain ⟨row, hrow, hsame⟩ := (Option.any_eq_true _ _).1 huntouched.stored
    simp only [Bool.and_eq_true, decide_eq_true_eq] at hsame
    unfold Store.account? at hrow
    split_ifs at hrow with hmem
    obtain rfl : current = row := Option.some.inj (hcurrent.symm.trans hrow)
    have hactive := activeAdmin_flush (C := C) hstatus hroles hsame huntouched.status huntouched.roles
    refine ⟨actor, hmem, _, ?_, hactive⟩
    rw [hget, if_pos rfl]

theorem bootstrap_row {creation : Creation} (h : creation.isBootstrap = true) : activeAdmin creation.row = true := by
  cases creation with
  | actor username email displayName actorType roles => cases h
  | admin username email =>
    unfold activeAdmin
    rw [Bool.and_eq_true, decide_eq_true_eq]
    refine ⟨coerceActorStatus_active rfl, (hasAdminRole_iff _).2 ⟨"admin", mem_cons_self, ?_⟩⟩
    exact aliasRole_allowed (by decide)

/-- how often `bootstrap_admin` has succeeded -/
def bootstraps (out : List AdminReply) : ℕ := out.count .bootstrapped

/-- a standing step keeps an active admin; a bootstrap that succeeds finds none and leaves one -/
theorem standing_step {s s' : AdminState} {a : AdminAction} {out : List AdminReply} (hstanding : Standing s a)
    (h : (administration C).step s a = (some s', out)) :
    (s.store.hasAdmin = true → s'.store.hasAdmin = true ∧ bootstraps out = 0) ∧ bootstraps out ≤ 1 ∧
      (bootstraps out = 1 → s'.store.hasAdmin = true) := by
  cases step_effect h with
  | quiet hstore hout =>
    have hzero : bootstraps out = 0 := count_eq_zero.2 hout
    rw [hzero, hstore]
    exact ⟨fun hadmin => ⟨hadmin, rfl⟩, Nat.zero_le _, fun hone => absurd hone (by decide)⟩
  | update n fresh actor fields existing loaded haction htask hcommit hout =>
    subst haction hout
    have hadmin := standing_update (hstanding.task htask) hcommit
    exact ⟨fun _ => ⟨hadmin, rfl⟩, Nat.zero_le _, fun _ => hadmin⟩
  | create n fresh creation haction htask hcommit hout =>
    subst haction hout
    cases hbootstrap : creation.isBootstrap with
    | true =>
      have hnone : s.store.hasAdmin = false := hstanding.task htask hbootstrap
      have hadmin := commitCreate_hasAdmin hcommit (.inr (bootstrap_row hbootstrap))
      refine ⟨fun hsome => ?_, le_refl _, fun _ => hadmin⟩
      rw [hnone] at hsome
      cases hsome
    | false =>
      exact ⟨fun hsome => ⟨commitCreate_hasAdmin hcommit (.inl hsome), rfl⟩, Nat.zero_le _,
        fun hone => absurd hone (by decide)⟩

end Admins

section Lost

open scoped Ascii

def asciiCollation : Collation := ⟨Ascii.lower, Ascii.lower⟩

def AdminState.initial : AdminState := ⟨Store.empty, Dict.empty⟩

/-- one of the accounts is disabled -/
def disable : UpdateFields := ⟨none, none, none, some "disabled", none⟩

/-- a request runs through four awaits -/
def advances (n : ℕ) (fresh : ActorId) : List AdminAction := List.replicate 4 (.advance n fresh)

/-- `ada` is bootstrapped, and `bob` is created as another admin -/
def twoAdmins : List AdminAction :=
  .bootstrap 0 ⟨"ada", "ada@example.org", "password"⟩ :: advances 0 1 ++
    (.create 1 ⟨"bob", "bob@example.org", "password", none, none, ["admin"]⟩ :: (advances 1 2).drop 1)

/-- each of two requests disables one of the admins, and they take turns -/
def disableBoth : List AdminAction :=
  .update 2 1 disable :: .update 3 2 disable ::
    (List.replicate 4 [AdminAction.advance 2 0, AdminAction.advance 3 0]).flatten

def bootstrapAgain : List AdminAction :=
  .bootstrap 4 ⟨"eve", "eve@example.org", "password"⟩ :: advances 4 3

end Lost

end Langbridge.Runtime.Accounts
