/-
The accounts of the local operators (`runtime/hosting/local_auth.py`) in the persisted store: rows of actors and the
credentials that make an actor an account, the normalization of roles, statuses and names, and what a unit of work reads
and writes. A flush writes the attributes that differ from those that were loaded. There is one workspace.
-/
import Langbridge.Core.Dict
import Langbridge.Core.Text

namespace Langbridge.Runtime.Accounts

open Core List PyText

/-! ## Rows -/

abbrev ActorId := ℕ

/-- a value of `metadata_json` -/
inductive MetaValue where
  | text (s : String)
  | flag (b : Bool)
  deriving DecidableEq

/-- `RuntimeActor` -/
structure ActorRow where
  subject : Option String
  username : Option String
  actorType : String
  status : String
  email : Option String
  displayName : Option String
  roles : List String
  isActive : Bool
  metadata : Dict String MetaValue
  deriving DecidableEq

structure Store where
  actors : Dict ActorId ActorRow
  credentials : List ActorId
  linked : ∀ id ∈ credentials, id ∈ actors.keys
  deriving DecidableEq

def Store.empty : Store := ⟨Dict.empty, [], fun _ h => absurd h not_mem_nil⟩

/-- a row is written -/
def Store.setActor (s : Store) (id : ActorId) (row : ActorRow) : Store where
  actors := s.actors.set id row
  credentials := s.credentials
  linked := fun x hx => (Dict.mem_keys_set _ _ _ _).2 (.inl (s.linked x hx))

def Store.addAccount (s : Store) (id : ActorId) (row : ActorRow) : Store where
  actors := s.actors.set id row
  credentials := s.credentials ++ [id]
  linked := by
    intro x hx
    rw [Dict.mem_keys_set]
    exact (mem_append.1 hx).imp (s.linked x) mem_singleton.1

def Store.account? (s : Store) (id : ActorId) : Option ActorRow :=
  if id ∈ s.credentials then s.actors.get? id else none

/-- a column after a flush of an attribute that was loaded and then set -/
def written {α : Type} [DecidableEq α] (current loaded new : α) : α := if new = loaded then current else new

def flush (current loaded new : ActorRow) : ActorRow where
  subject := written current.subject loaded.subject new.subject
  username := written current.username loaded.username new.username
  actorType := written current.actorType loaded.actorType new.actorType
  status := written current.status loaded.status new.status
  email := written current.email loaded.email new.email
  displayName := written current.displayName loaded.displayName new.displayName
  roles := written current.roles loaded.roles new.roles
  isActive := written current.isActive loaded.isActive new.isActive
  metadata := written current.metadata loaded.metadata new.metadata

theorem written_eq_iff {α : Type} [DecidableEq α] (current loaded new : α) :
    written current loaded new = current ↔ new = loaded ∨ new = current := by
  unfold written
  split_ifs with h
  · exact ⟨fun _ => .inl h, fun _ => rfl⟩
  · exact ⟨.inr, fun hor => hor.resolve_left h⟩

/-- a column that nobody has changed since it was loaded takes the new value -/
theorem written_of_loaded {α : Type} [DecidableEq α] {current loaded : α} (h : current = loaded) (new : α) :
    written current loaded new = new := by
  unfold written
  split_ifs with hnew
  · rw [h, hnew]
  · rfl

/-- what `str.casefold` and the database's `lower` make of a text -/
structure Collation where
  casefold : String → String
  lower : String → String

section Normalize

variable [PyText]

/-! ## Roles and statuses -/

/-- `_RUNTIME_ALLOWED_ROLES` -/
def allowedRoles : List String := ["admin", "builder", "analyst", "viewer"]

/-- `_RUNTIME_ROLE_ALIASES` -/
def roleAliases : List (String × String) :=
  [("runtime:admin", "admin"), ("runtime:builder", "builder"), ("runtime:analyst", "analyst"),
    ("runtime:viewer", "viewer")]

def aliasRole (raw : String) : String := (roleAliases.lookup (norm raw)).getD (norm raw)

/-- the loop of `_normalize_stored_roles`, with the roles seen so far -/
def storedRoles (seen : List String) : List String → List String
  | [] => []
  | raw :: rest =>
    if aliasRole raw ∉ allowedRoles ∨ aliasRole raw ∈ seen then storedRoles seen rest
    else aliasRole raw :: storedRoles (aliasRole raw :: seen) rest

def normalizeStoredRoles (roles : List String) : List String :=
  if storedRoles [] roles = [] then ["viewer"] else storedRoles [] roles

/-- the loop of `_normalize_runtime_roles` -/
def runtimeRoles (seen : List String) : List String → Except String (List String)
  | [] => .ok []
  | raw :: rest =>
    if aliasRole raw = "" then runtimeRoles seen rest
    else if aliasRole raw ∉ allowedRoles then
      .error "Runtime roles must be drawn from: admin, builder, analyst, viewer."
    else if aliasRole raw ∈ seen then runtimeRoles seen rest
    else do return aliasRole raw :: (← runtimeRoles (aliasRole raw :: seen) rest)

def normalizeRuntimeRoles (roles : List String) : Except String (List String) := do
  let normalized ← runtimeRoles [] roles
  if normalized = [] then throw "At least one runtime role is required."
  return normalized

def hasAdminRole (roles : List String) : Bool := decide ("admin" ∈ normalizeStoredRoles roles)

def coerceActorStatus (row : ActorRow) : String :=
  let status := norm row.status
  if status = "active" ∨ status = "disabled" then status else if row.isActive then "active" else "disabled"

def normalizeActorStatus (value : String) : Except String String :=
  let normalized := norm value
  if normalized = "enabled" ∨ normalized = "active" then .ok "active"
  else if normalized = "disabled" then .ok "disabled"
  else .error "Runtime actor status must be 'active' or 'disabled'."

def normalizeActorType (value : String) : String := if norm value = "" then "human" else norm value

def normalizeEmail (value : String) : Except String String :=
  let normalized := lower (strip value)
  if '@' ∉ normalized.toList ∨ normalized.toList.head? = some '@' ∨ normalized.toList.getLast? = some '@' then
    .error "A valid email address is required."
  else .ok normalized

def normalizeUsername (value : String) : Except String String :=
  let normalized := strip value
  let fits (c : Char) : Bool := c.isAlphanum || c = '.' || c = '_' || c = '-'
  if normalized.toList.all fits && 3 ≤ normalized.length && normalized.length ≤ 64 then .ok normalized
  else .error "Username must be 3-64 characters and use letters, numbers, dots, underscores, or hyphens."

def normalizeDisplayName (value : Option String) (fallback : String) : String :=
  let normalized := strip (value.getD "")
  if normalized = "" then fallback else normalized

/-! ## Accounts -/

/-- `RuntimeLocalAuthAccount` -/
structure Account where
  id : ActorId
  subject : String
  username : String
  email : String
  displayName : String
  actorType : String
  status : String
  roles : List String
  deriving DecidableEq

def firstText : List (Option String) → String
  | [] => ""
  | none :: rest => firstText rest
  | some s :: rest => if s = "" then firstText rest else s

def coerceActorUsername (row : ActorRow) : Except String String :=
  let username := strip (row.username.getD "")
  let subject := strip (row.subject.getD "")
  if username ≠ "" then .ok username
  else if subject ≠ "" then .ok subject
  else .error "Runtime actor is missing its username."

def credentialToAccount (id : ActorId) (row : ActorRow) : Except String Account := do
  let username ← coerceActorUsername row
  return {
    id := id
    subject := firstText [row.subject, row.username]
    username := username
    email := row.email.getD ""
    displayName := firstText [row.displayName, row.username, row.subject]
    actorType := firstText [some row.actorType, some "human"]
    status := coerceActorStatus row
    roles := normalizeStoredRoles row.roles }

def isActiveAdmin (account : Account) : Bool := account.status = "active" && hasAdminRole account.roles

def Store.listAccounts (s : Store) : Except String (List Account) :=
  s.credentials.mapM fun id =>
    match s.actors.get? id with
    | some row => credentialToAccount id row
    | none => .error "Runtime local auth credential is missing its actor."

def Store.hasAdminAccount (s : Store) : Except String Bool := do return (← s.listAccounts).any isActiveAdmin

def Store.getAccountById (s : Store) (id : ActorId) (includeDisabled : Bool) : Except String (Option Account) :=
  match s.account? id with
  | none => .ok none
  | some row => do
    let account ← credentialToAccount id row
    return if !includeDisabled && account.status ≠ "active" then none else some account

variable (C : Collation)

/-- `get_by_username` and `get_by_email`: the actor whose folded column is the folded value -/
def Store.getFolded (s : Store) (column : ActorRow → Option String) (value : String) : Except String (Option ActorId) :=
  match s.actors.entries.filter fun e => (column e.2).map C.lower = some (C.casefold (strip value)) with
  | [] => .ok none
  | [e] => .ok (some e.1)
  | _ => .error "Multiple rows were found when one or none was required"

/-- one test of `_ensure_unique_actor` -/
def Store.ensureUnique (s : Store) (column : ActorRow → Option String) (value message : String)
    (exclude : Option ActorId) : Except String Unit := do
  match ← s.getFolded C column value with
  | none => return ()
  | some id => if some id ≠ exclude then throw message

def normalizeIdentifier (value : Option String) : String := C.casefold (strip (value.getD ""))

/-! ## Active admins -/

def activeAdmin (row : ActorRow) : Bool := coerceActorStatus row = "active" && hasAdminRole row.roles

def Store.hasAdmin (s : Store) : Bool := s.credentials.any fun id => (s.actors.get? id).any activeAdmin

/-- one of the accounts but this one is an active admin -/
def Store.hasOtherAdmin (s : Store) (id : ActorId) : Bool :=
  s.credentials.any fun other => decide (other ≠ id) && (s.actors.get? other).any activeAdmin

theorem mem_storedRoles (seen roles : List String) (role : String) :
    role ∈ storedRoles seen roles ↔ role ∉ seen ∧ role ∈ allowedRoles ∧ ∃ raw ∈ roles, aliasRole raw = role := by
  induction roles generalizing seen with
  | nil => simp [storedRoles]
  | cons raw rest ih =>
    rw [storedRoles]
    split_ifs with hskip
    · rw [ih]
      constructor
      · rintro ⟨hseen, hallowed, r, hr, hrole⟩
        exact ⟨hseen, hallowed, r, mem_cons_of_mem _ hr, hrole⟩
      · rintro ⟨hseen, hallowed, r, hr, hrole⟩
        rcases mem_cons.1 hr with rfl | hr
        · rw [hrole] at hskip
          rcases hskip with hnot | hin
          · exact absurd hallowed hnot
          · exact absurd hin hseen
        · exact ⟨hseen, hallowed, r, hr, hrole⟩
    · rw [not_or, not_not] at hskip
      rw [mem_cons, ih, mem_cons, not_or]
      constructor
      · rintro (rfl | ⟨⟨-, hseen⟩, hallowed, r, hr, hrole⟩)
        · exact ⟨hskip.2, hskip.1, raw, mem_cons_self, rfl⟩
        · exact ⟨hseen, hallowed, r, mem_cons_of_mem _ hr, hrole⟩
      · rintro ⟨hseen, hallowed, r, hr, hrole⟩
        rcases mem_cons.1 hr with rfl | hr
        · exact .inl hrole.symm
        · by_cases hsame : role = aliasRole raw
          · exact .inl hsame
          · exact .inr ⟨⟨hsame, hseen⟩, hallowed, r, hr, hrole⟩

theorem hasAdminRole_iff (roles : List String) : hasAdminRole roles = true ↔ ∃ raw ∈ roles, aliasRole raw = "admin" := by
  have hmem := mem_storedRoles [] roles "admin"
  unfold hasAdminRole normalizeStoredRoles
  rw [decide_eq_true_eq]
  split_ifs with hnone
  · rw [hnone] at hmem
    constructor
    · intro h
      exact absurd h (by decide)
    · intro h
      exact absurd (hmem.2 ⟨not_mem_nil, by decide, h⟩) not_mem_nil
  · rw [hmem]
    exact ⟨fun h => h.2.2, fun h => ⟨not_mem_nil, by decide, h⟩⟩

end Normalize

section Words

variable [PyWords]

/-- the roles that are stored are not changed by another normalization -/
theorem aliasRole_allowed {role : String} (h : role ∈ allowedRoles) : aliasRole role = role := by
  have hword : ∀ r ∈ allowedRoles, r.toList.all Char.isLower = true ∧ roleAliases.lookup r = none := by decide
  unfold aliasRole
  rw [PyWords.norm_word role (hword role h).1, (hword role h).2]
  rfl

theorem hasAdminRole_stored (roles : List String) : hasAdminRole (normalizeStoredRoles roles) = hasAdminRole roles := by
  rw [Bool.eq_iff_iff, hasAdminRole_iff (normalizeStoredRoles roles)]
  have hnormalized : hasAdminRole roles = true ↔ "admin" ∈ normalizeStoredRoles roles := by
    unfold hasAdminRole
    rw [decide_eq_true_eq]
  rw [hnormalized]
  have hallowed : ∀ r ∈ normalizeStoredRoles roles, r ∈ allowedRoles := by
    intro r hr
    unfold normalizeStoredRoles at hr
    split_ifs at hr
    · rw [mem_singleton] at hr
      rw [hr]
      decide
    · exact ((mem_storedRoles [] roles r).1 hr).2.1
  constructor
  · rintro ⟨raw, hraw, hadmin⟩
    rw [aliasRole_allowed (hallowed raw hraw)] at hadmin
    exact hadmin ▸ hraw
  · intro h
    exact ⟨"admin", h, aliasRole_allowed (hallowed _ h)⟩

theorem coerceActorStatus_active {row : ActorRow} (h : row.status = "active") : coerceActorStatus row = "active" := by
  have hnorm : norm "active" = "active" := PyWords.norm_word "active" (by decide)
  unfold coerceActorStatus
  rw [h, hnorm]
  exact if_pos (.inl rfl)

end Words

end Langbridge.Runtime.Accounts
