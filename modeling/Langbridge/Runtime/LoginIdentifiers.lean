/-
Login identifiers (`runtime/hosting/local_auth.py`): which account a username or an e-mail finds, in the store that keeps
accounts in memory and in the persisted one.

Both stores check at a creation and at a change of an e-mail that no other account has it. The store in memory compares
case foldings on both sides. The persisted one compares the database's lower case of what is stored with the case folding
of what is asked for, and these differ for e-mails such as one with a final sigma, whose lower case is not its folding.
-/
import Langbridge.Runtime.AccountRequests

namespace Langbridge.Runtime.Accounts

open Core List Dict PyText Option

/-! ## Operations -/

/-- what an operator asks for, with the identifier that `uuid4` gives -/
inductive AccountOp where
  | create (fresh : ActorId) (r : CreateRequest)
  | bootstrap (fresh : ActorId) (r : BootstrapRequest)
  | update (actor : ActorId) (fields : UpdateFields)

/-- the state after an operation, which is the old one if it raises -/
def performed {σ : Type} (s : σ) : Except String σ → σ
  | .ok s' => s'
  | .error _ => s

/-- the account that `create_account` keeps in memory -/
def Creation.account (id : ActorId) : Creation → Account
  | .actor username email displayName actorType roles =>
    ⟨id, username, username, email, displayName, actorType, "active", roles⟩
  | .admin username email => ⟨id, username, username, email, username, "human", "active", ["admin"]⟩

section Stores

variable [PyText] (C : Collation)

/-! ## The store in memory -/

/-- `_InMemoryRuntimeLocalAuthStore` -/
abbrev MemoryStore := Dict ActorId Account

/-- a text that is given and not empty once it is normalized, and that an account has -/
def taken (value : Option String) (column : String) : Bool :=
  value.any fun v => normalizeIdentifier C (some v) ≠ "" &&
    normalizeIdentifier C (some column) = normalizeIdentifier C (some v)

/-- `_InMemoryRuntimeLocalAuthStore._ensure_unique_actor` -/
def ensureUniqueActor (accounts : List Account) (username email : Option String) (exclude : Option ActorId) :
    Except String Unit :=
  match accounts.find? fun account =>
    exclude ≠ some account.id && (taken C username account.username || taken C email account.email) with
  | none => .ok ()
  | some account =>
    if taken C username account.username then .error "A runtime actor already uses that username."
    else .error "A runtime actor already uses that email."

/-- `create_account`, after the check of `create_admin_account` -/
def MemoryStore.createAccount (s : MemoryStore) (fresh : ActorId) (creation : Creation) : Except String MemoryStore := do
  if creation.isBootstrap && s.values.any isActiveAdmin then throw "Runtime bootstrap has already been completed."
  ensureUniqueActor C s.values (some creation.username) (some creation.email) none
  return s.set fresh (creation.account fresh)

/-- the e-mail of an update is another one -/
def Account.changesEmail (account : Account) (fields : UpdateFields) : Bool :=
  fields.email.any fun email => normalizeIdentifier C (some email) ≠ normalizeIdentifier C (some account.email)

def MemoryStore.updateAccount (s : MemoryStore) (actor : ActorId) (fields : UpdateFields) : Except String MemoryStore :=
  match s.get? actor with
  | none => .error "Runtime actor was not found."
  | some account => do
    if account.changesEmail C fields then ensureUniqueActor C s.values none fields.email (some actor)
    return s.set actor { account with
      email := if account.changesEmail C fields then fields.email.getD account.email else account.email
      displayName := fields.displayName.getD account.displayName
      actorType := fields.actorType.getD account.actorType
      status := fields.status.getD account.status
      roles := fields.roles.getD account.roles }

def MemoryStore.updateActor (s : MemoryStore) (actor : ActorId) (fields : UpdateFields) : Except String MemoryStore :=
  match s.get? actor with
  | none => .error "Runtime actor was not found."
  | some existing => do
    let fields ← normalizeFields fields existing
    ensureActiveAdminRemains s.values actor (nextStatus fields existing) (nextRoles fields existing)
    s.updateAccount C actor fields

def MemoryStore.perform (s : MemoryStore) : AccountOp → Except String MemoryStore
  | .create fresh r => do s.createAccount C fresh (← r.creation)
  | .bootstrap fresh r => do s.createAccount C fresh (← r.creation)
  | .update actor fields => s.updateActor C actor fields

def MemoryStore.run (s : MemoryStore) (ops : List AccountOp) : MemoryStore :=
  ops.foldl (fun s op => performed s (s.perform C op)) s

def Account.matched (account : Account) (identifier : String) : Bool :=
  let normalized := normalizeIdentifier C (some identifier)
  normalizeIdentifier C (some account.username) = normalized || normalizeIdentifier C (some account.email) = normalized ||
    normalizeIdentifier C (some account.subject) = normalized

def MemoryStore.getAccountByIdentifier (s : MemoryStore) (identifier : String) (includeDisabled : Bool) :
    Option Account :=
  s.values.find? fun account => (includeDisabled || account.status = "active") && account.matched C identifier

/-! ## The persisted store -/

/-- the check of `create_admin_account` -/
def Store.checkBootstrap (s : Store) : Creation → Except String Unit
  | .actor .. => .ok ()
  | .admin .. => do
    if ← s.hasAdminAccount then throw "Runtime bootstrap has already been completed."

def Store.createAccount (s : Store) (fresh : ActorId) (creation : Creation) : Except String Store := do
  s.checkBootstrap creation
  s.ensureUnique C (·.username) creation.username "A runtime actor already uses that username." none
  s.ensureUnique C (·.email) creation.email "A runtime actor already uses that email." none
  s.commitCreate fresh creation.row

def Store.updateAccount (s : Store) (actor : ActorId) (fields : UpdateFields) : Except String Store :=
  match s.account? actor with
  | none => .error "Runtime actor was not found."
  | some loaded => do
    if changesEmail C fields loaded then
      s.ensureUnique C (·.email) (fields.email.getD "") "A runtime actor already uses that email." (some actor)
    s.commitUpdate actor loaded (updatedRow C fields loaded)

def Store.updateActor (s : Store) (actor : ActorId) (fields : UpdateFields) : Except String Store := do
  match ← s.getAccountById actor true with
  | none => throw "Runtime actor was not found."
  | some existing =>
    let fields ← normalizeFields fields existing
    ensureActiveAdminRemains (← s.listAccounts) actor (nextStatus fields existing) (nextRoles fields existing)
    s.updateAccount C actor fields

def Store.perform (s : Store) : AccountOp → Except String Store
  | .create fresh r => do s.createAccount C fresh (← r.creation)
  | .bootstrap fresh r => do s.createAccount C fresh (← r.creation)
  | .update actor fields => s.updateActor C actor fields

def Store.run (s : Store) (ops : List AccountOp) : Store := ops.foldl (fun s op => performed s (s.perform C op)) s

/-- the rows of the query of `get_by_identifier` -/
def Store.matched (s : Store) (identifier : String) : List ActorId :=
  let normalized := normalizeIdentifier C (some identifier)
  if normalized = "" then []
  else s.credentials.filter fun id => (s.actors.get? id).any fun row =>
    row.username.map C.lower = some normalized || row.subject.map C.lower = some normalized ||
      row.email.map C.lower = some normalized

def Store.getAccountByIdentifier (s : Store) (identifier : String) (includeDisabled : Bool) :
    Except String (Option Account) :=
  match (s.matched C identifier).head? with
  | none => .ok none
  | some id => s.getAccountById id includeDisabled

end Stores

/-! ## Identification -/

section Identified

variable [PyFold]

/-- Python's case folding, and a database that lower-cases as Python does -/
def unicode : Collation := ⟨PyFold.casefold, lower⟩

/-- the texts differ in letter case and in the blanks around them -/
def SameLetters (x y : String) : Prop := PyFold.casefold (strip x) = PyFold.casefold (strip y)

/-- no identifier matches two accounts, and every account is found by its own username and its own e-mail -/
structure Identified (IsAccount : Account → Prop) (Matched : String → ActorId → Prop)
    (login : String → Except String (Option Account)) : Prop where
  one : ∀ x a b, Matched x a → Matched x b → a = b
  found : ∀ account, IsAccount account → ∀ x, SameLetters x account.username ∨ SameLetters x account.email →
    login x = .ok (some account)

/-- the account that `authenticate` looks at -/
def MemoryStore.login (s : MemoryStore) (identifier : String) : Except String (Option Account) :=
  .ok (s.getAccountByIdentifier unicode (normalizeIdentifier unicode (some identifier)) true)

def Store.login (s : Store) (identifier : String) : Except String (Option Account) :=
  s.getAccountByIdentifier unicode (normalizeIdentifier unicode (some identifier)) true

def MemoryStore.Identified (s : MemoryStore) : Prop :=
  Accounts.Identified (fun account => account ∈ s.values)
    (fun x id => ∃ account, s.get? id = some account ∧ account.matched unicode x = true) s.login

def Store.HasAccount (s : Store) (account : Account) : Prop :=
  ∃ row, s.account? account.id = some row ∧ credentialToAccount account.id row = .ok account

def Store.Identified (s : Store) : Prop :=
  Accounts.Identified s.HasAccount (fun x id => id ∈ s.matched unicode x) s.login

/-- the e-mail that a text is normalized to is its own case folding -/
def FoldedEmail (raw : String) : Prop := ∀ email, normalizeEmail raw = .ok email → PyFold.casefold email = email

/-- the operation sets no e-mail but one that is its own case folding -/
def AccountOp.Folded : AccountOp → Prop
  | .create _ r => FoldedEmail r.email
  | .bootstrap _ r => FoldedEmail r.email
  | .update _ fields => ∀ raw ∈ fields.email, FoldedEmail raw

/-! ## Names that the validators accept -/

theorem normalized_eq (x : String) : normalizeIdentifier unicode (some x) = PyFold.casefold (strip x) := rfl

@[simp] theorem normalized_normalized (x : String) :
    normalizeIdentifier unicode (some (normalizeIdentifier unicode (some x))) = normalizeIdentifier unicode (some x) := by
  simp only [normalized_eq, PyFold.strip_casefold, PyFold.casefold_casefold, PyText.strip_strip]

structure Username (u : String) : Prop where
  stripped : strip u = u
  ascii : ∀ c ∈ u.toList, c.toNat < 128
  ne : u ≠ ""
  noAt : '@' ∉ u.toList

structure Email (e : String) : Prop where
  stripped : strip e = e
  lowered : lower e = e
  at' : '@' ∈ e.toList

theorem normalizeUsername_ok {v u : String} (h : normalizeUsername v = .ok u) : Username u := by
  simp only [normalizeUsername] at h
  split_ifs at h with hfits
  cases h
  simp only [Bool.and_eq_true, List.all_eq_true, decide_eq_true_eq] at hfits
  obtain ⟨⟨hall, hthree⟩, -⟩ := hfits
  refine ⟨PyText.strip_strip v, fun c hc => ?_, fun hempty => ?_, fun hat => ?_⟩
  · have hc := hall c hc
    simp only [Bool.or_eq_true, decide_eq_true_eq] at hc
    rcases hc with ((hc | rfl) | rfl) | rfl
    · exact lt_of_le_of_lt (alphanum_bounds hc).2 (by decide)
    all_goals decide
  · simp [hempty] at hthree
  · exact absurd (hall '@' hat) (by decide)

theorem normalizeEmail_ok {v e : String} (h : normalizeEmail v = .ok e) : Email e := by
  simp only [normalizeEmail] at h
  split_ifs at h with hbad
  cases h
  rw [not_or, not_not] at hbad
  exact ⟨by simp, by simp, hbad.1⟩

variable {u e : String}

/-- a username and an e-mail have no folding in common -/
theorem Username.fold_ne (hu : Username u) (he : Email e) : PyFold.casefold u ≠ PyFold.casefold e := fun h =>
  hu.noAt ((PyFold.at_casefold u).1 (h ▸ (PyFold.at_casefold e).2 he.at'))

theorem Username.fold_eq (h : Username u) : PyFold.casefold u = lower u :=
  PyFold.casefold_ascii u h.ascii

theorem Username.normalized (h : Username u) :
    normalizeIdentifier unicode (some u) = PyFold.casefold u := by rw [normalized_eq, h.stripped]

theorem Email.normalized (h : Email e) : normalizeIdentifier unicode (some e) = PyFold.casefold e := by
  rw [normalized_eq, h.stripped]

theorem Email.ne (h : Email e) : PyFold.casefold e ≠ "" :=
  PyFold.casefold_ne_empty e fun hempty => by simpa [hempty] using h.at'

theorem Username.fold_ne_empty (h : Username u) : PyFold.casefold u ≠ "" :=
  PyFold.casefold_ne_empty u h.ne

/-- the arguments of a creation that a request gives -/
structure Creation.Accepted (c : Creation) : Prop where
  username : Username c.username
  email : Email c.email

variable {c : Creation}

theorem create_accepted {r : CreateRequest} (h : r.creation = .ok c) :
    c.Accepted ∧ normalizeEmail r.email = .ok c.email := by
  obtain ⟨u, hu, h⟩ := of_bind_ok h
  obtain ⟨e, he, h⟩ := of_bind_ok h
  obtain ⟨roles, -, h⟩ := of_bind_ok h
  obtain ⟨-, -, h⟩ := of_bind_ok h
  cases h
  exact ⟨⟨normalizeUsername_ok hu, normalizeEmail_ok he⟩, he⟩

theorem bootstrap_accepted {r : BootstrapRequest} (h : r.creation = .ok c) :
    c.Accepted ∧ normalizeEmail r.email = .ok c.email := by
  obtain ⟨u, hu, h⟩ := of_bind_ok h
  obtain ⟨e, he, h⟩ := of_bind_ok h
  obtain ⟨-, -, h⟩ := of_bind_ok h
  cases h
  exact ⟨⟨normalizeUsername_ok hu, normalizeEmail_ok he⟩, he⟩

/-- the e-mail of the fields that `update_actor` has normalized -/
theorem normalizeFields_email {fields fields' : UpdateFields} {existing : Account}
    (h : normalizeFields fields existing = .ok fields') (he : fields'.email = some e) :
    ∃ raw ∈ fields.email, normalizeEmail raw = .ok e := by
  obtain ⟨email, hemail, h⟩ := of_bind_ok h
  obtain ⟨status, -, h⟩ := of_bind_ok h
  obtain ⟨roles, -, h⟩ := of_bind_ok h
  cases h
  cases hraw : fields.email with
  | none =>
    rw [hraw] at hemail
    cases hemail
    cases he
  | some raw =>
    rw [hraw] at hemail
    obtain ⟨e', he', hemail⟩ := of_bind_ok hemail
    cases hemail
    cases he
    exact ⟨raw, rfl, he'⟩

/-! ## Accounts in memory -/

/-- what a validated account is -/
structure Account.Valid (account : Account) : Prop where
  username : Username account.username
  subject : account.subject = account.username
  email : Email account.email

theorem Creation.Accepted.account (h : c.Accepted) (id : ActorId) : (c.account id).Valid := by
  cases c with
  | actor => exact ⟨h.username, rfl, h.email⟩
  | admin => exact ⟨h.username, rfl, h.email⟩

/-- the accounts are valid, and no two have one username or one e-mail -/
structure MemoryStore.Inv (s : MemoryStore) : Prop where
  ids : ∀ id account, s.get? id = some account → account.id = id
  valid : ∀ id account, s.get? id = some account → account.Valid
  usernames : ∀ id account id' account', s.get? id = some account → s.get? id' = some account' →
    PyFold.casefold account.username = PyFold.casefold account'.username → id = id'
  emails : ∀ id account id' account', s.get? id = some account → s.get? id' = some account' →
    PyFold.casefold account.email = PyFold.casefold account'.email → id = id'

variable {id : ActorId}

omit [PyFold] in
/-- two entries of a dictionary whose written entry has a value of its own -/
theorem keys_eq_set {α : Type} {d : Dict ActorId Account} {new : Account} (f : Account → α)
    (hold : ∀ i a j b, d.get? i = some a → d.get? j = some b → f a = f b → i = j)
    (hnew : ∀ i a, i ≠ id → d.get? i = some a → f a ≠ f new) :
    ∀ i a j b, (d.set id new).get? i = some a → (d.set id new).get? j = some b → f a = f b → i = j := by
  intro i a j b hi hj hab
  rw [get?_set] at hi hj
  split_ifs at hi hj with hid hjd
  · rw [hid, hjd]
  · cases hi
    exact absurd hab.symm (hnew j b hjd hj)
  · cases hj
    exact absurd hab (hnew i a hid hi)
  · exact hold i a j b hi hj hab

theorem MemoryStore.Inv.set {s : MemoryStore} (hs : s.Inv) {new : Account} (hid : new.id = id) (hvalid : new.Valid)
    (husername : ∀ i a, i ≠ id → s.get? i = some a → PyFold.casefold a.username ≠ PyFold.casefold new.username)
    (hemail : ∀ i a, i ≠ id → s.get? i = some a → PyFold.casefold a.email ≠ PyFold.casefold new.email) :
    MemoryStore.Inv (s.set id new) where
  ids i a h := by
    rw [get?_set] at h
    split_ifs at h with hi
    · rw [← Option.some.inj h, hid, hi]
    · exact hs.ids i a h
  valid i a h := by
    rw [get?_set] at h
    split_ifs at h with hi
    · rwa [← Option.some.inj h]
    · exact hs.valid i a h
  usernames := keys_eq_set (fun a => PyFold.casefold a.username) hs.usernames husername
  emails := keys_eq_set (fun a => PyFold.casefold a.email) hs.emails hemail

variable {account : Account}

/-- what `_ensure_unique_actor` finds out -/
theorem ensureUniqueActor_ok {accounts : List Account} {username email : Option String} {exclude : Option ActorId}
    (h : ensureUniqueActor unicode accounts username email exclude = .ok ())
    (hmem : account ∈ accounts) (hother : exclude ≠ some account.id) :
    taken unicode username account.username = false ∧ taken unicode email account.email = false := by
  unfold ensureUniqueActor at h
  cases hfind : accounts.find? fun account => decide (exclude ≠ some account.id) &&
      (taken unicode username account.username || taken unicode email account.email) with
  | none =>
    have hnone := find?_eq_none.1 hfind account hmem
    simpa [hother] using hnone
  | some other =>
    rw [hfind] at h
    dsimp only at h
    split_ifs at h

theorem not_taken_email {e column : String} (he : Email e) (hc : Email column)
    (h : taken unicode (some e) column = false) : PyFold.casefold column ≠ PyFold.casefold e := by
  simpa [taken, he.normalized, hc.normalized, he.ne] using h

theorem not_taken_username {u column : String} (hu : Username u) (hc : Username column)
    (h : taken unicode (some u) column = false) : PyFold.casefold column ≠ PyFold.casefold u := by
  simpa [taken, hu.normalized, hc.normalized, hu.fold_ne_empty] using h

variable {i : ActorId}

theorem mem_values_get {s : MemoryStore} (hs : s.Inv) {a : Account} (h : s.get? i = some a) :
    a ∈ s.values ∧ a.id = i := ⟨(mem_values s a).2 ⟨i, h⟩, hs.ids i a h⟩

theorem MemoryStore.Inv.createAccount {s s' : MemoryStore} (hs : s.Inv) {fresh : ActorId} (hc : c.Accepted)
    (h : s.createAccount unicode fresh c = .ok s') : s'.Inv := by
  unfold MemoryStore.createAccount at h
  split_ifs at h
  · cases h
  · obtain ⟨⟨⟩, hunique, h⟩ := of_bind_ok h
    cases h
    have hnew : (c.account fresh).username = c.username ∧ (c.account fresh).email = c.email ∧
        (c.account fresh).id = fresh := by cases c <;> exact ⟨rfl, rfl, rfl⟩
    have hother : ∀ i a, s.get? i = some a → taken unicode (some c.username) a.username = false ∧
        taken unicode (some c.email) a.email = false := fun i a ha =>
      ensureUniqueActor_ok hunique (mem_values_get hs ha).1 (by simp)
    refine hs.set hnew.2.2 (hc.account fresh) (fun i a _ ha => ?_) fun i a _ ha => ?_
    · rw [hnew.1]
      exact not_taken_username hc.username (hs.valid i a ha).username (hother i a ha).1
    · rw [hnew.2.1]
      exact not_taken_email hc.email (hs.valid i a ha).email (hother i a ha).2

theorem MemoryStore.Inv.updateAccount {s s' : MemoryStore} (hs : s.Inv) {actor : ActorId} {fields : UpdateFields}
    (hfields : ∀ e ∈ fields.email, Email e) (h : s.updateAccount unicode actor fields = .ok s') : s'.Inv := by
  unfold MemoryStore.updateAccount at h
  cases hget : s.get? actor with
  | none =>
    rw [hget] at h
    cases h
  | some account =>
    rw [hget] at h
    have hvalid := hs.valid actor account hget
    have husername : ∀ i a, i ≠ actor → s.get? i = some a → PyFold.casefold a.username ≠ PyFold.casefold account.username :=
      fun i a hi ha heq => hi (hs.usernames i a actor account ha hget heq)
    cases hchanges : account.changesEmail unicode fields with
    | false =>
      simp only [hchanges, Bool.false_eq_true, if_false] at h
      cases h
      exact hs.set (hs.ids actor account hget) ⟨hvalid.username, hvalid.subject, hvalid.email⟩ husername
        fun i a hi ha heq => hi (hs.emails i a actor account ha hget heq)
    | true =>
      simp only [hchanges, if_true] at h
      obtain ⟨⟨⟩, hunique, h⟩ := of_bind_ok h
      cases h
      obtain ⟨e, he⟩ : ∃ e, fields.email = some e := by
        cases hemail : fields.email with
        | none => simp [Account.changesEmail, hemail] at hchanges
        | some e => exact ⟨e, rfl⟩
      have hnew : Email e := hfields e he
      refine hs.set (hs.ids actor account hget) ⟨hvalid.username, hvalid.subject, ?_⟩ husername fun i a hi ha => ?_
      · simpa [he] using hnew
      · have hmem := mem_values_get hs ha
        have hfree := (ensureUniqueActor_ok hunique hmem.1 (by rw [hmem.2]; simpa using hi.symm)).2
        rw [he] at hfree
        simpa [he] using not_taken_email hnew (hs.valid i a ha).email hfree

variable {op : AccountOp}

theorem MemoryStore.Inv.perform {s s' : MemoryStore} (hs : s.Inv) (h : s.perform unicode op = .ok s') : s'.Inv := by
  cases op with
  | create fresh r =>
    obtain ⟨c, hc, h⟩ := of_bind_ok h
    exact hs.createAccount (create_accepted hc).1 h
  | bootstrap fresh r =>
    obtain ⟨c, hc, h⟩ := of_bind_ok h
    exact hs.createAccount (bootstrap_accepted hc).1 h
  | update actor fields =>
    change s.updateActor unicode actor fields = .ok s' at h
    unfold MemoryStore.updateActor at h
    cases hget : s.get? actor with
    | none =>
      rw [hget] at h
      cases h
    | some existing =>
      rw [hget] at h
      obtain ⟨fields', hfields, h⟩ := of_bind_ok h
      obtain ⟨⟨⟩, -, h⟩ := of_bind_ok h
      refine hs.updateAccount (fun e he => ?_) h
      obtain ⟨raw, -, hraw⟩ := normalizeFields_email hfields he
      exact normalizeEmail_ok hraw

theorem MemoryStore.Inv.run {s : MemoryStore} (hs : s.Inv) (ops : List AccountOp) : (s.run unicode ops).Inv := by
  induction ops generalizing s with
  | nil => exact hs
  | cons op ops ih =>
    refine ih ?_
    change MemoryStore.Inv (performed s (s.perform unicode op))
    cases h : s.perform unicode op with
    | error => exact hs
    | ok s' => exact hs.perform h

theorem MemoryStore.inv_empty : MemoryStore.Inv Dict.empty where
  ids _ _ h := by simp at h
  valid _ _ h := by simp at h
  usernames _ _ _ _ h := by simp at h
  emails _ _ _ _ h := by simp at h

theorem Account.Valid.matched_iff (h : account.Valid) (x : String) :
    account.matched unicode x = true ↔ PyFold.casefold account.username = normalizeIdentifier unicode (some x) ∨
      PyFold.casefold account.email = normalizeIdentifier unicode (some x) := by
  simp only [Account.matched, h.subject, h.username.normalized, h.email.normalized, Bool.or_eq_true, decide_eq_true_eq]
  tauto

/-- the accounts in memory are told apart by every identifier -/
theorem MemoryStore.Inv.identified {s : MemoryStore} (hs : s.Inv) : s.Identified := by
  have hone : ∀ x i a j b, s.get? i = some a → a.matched unicode x = true → s.get? j = some b →
      b.matched unicode x = true → i = j := by
    intro x i a j b ha hma hb hmb
    have hva := hs.valid i a ha
    have hvb := hs.valid j b hb
    rcases (hva.matched_iff x).1 hma with hxa | hxa <;> rcases (hvb.matched_iff x).1 hmb with hxb | hxb
    · exact hs.usernames i a j b ha hb (hxa.trans hxb.symm)
    · exact absurd (hxa.trans hxb.symm) (hva.username.fold_ne hvb.email)
    · exact absurd (hxb.trans hxa.symm) (hvb.username.fold_ne hva.email)
    · exact hs.emails i a j b ha hb (hxa.trans hxb.symm)
  refine ⟨fun x i j hi hj => ?_, fun account haccount x hx => ?_⟩
  · obtain ⟨a, ha, hma⟩ := hi
    obtain ⟨b, hb, hmb⟩ := hj
    exact hone x i a j b ha hma hb hmb
  · obtain ⟨i, hi⟩ := (mem_values s account).1 haccount
    have hvalid := hs.valid i account hi
    have hmatched : account.matched unicode (normalizeIdentifier unicode (some x)) = true := by
      rw [hvalid.matched_iff, normalized_normalized, normalized_eq]
      rcases hx with hx | hx
      · exact .inl (by rw [hx, hvalid.username.stripped])
      · exact .inr (by rw [hx, hvalid.email.stripped])
    unfold MemoryStore.login MemoryStore.getAccountByIdentifier
    simp only [Bool.true_or, Bool.true_and]
    cases hfind : s.values.find? fun a => a.matched unicode (normalizeIdentifier unicode (some x)) with
    | none => exact absurd hmatched (find?_eq_none.1 hfind account haccount)
    | some other =>
      have hother := find?_some hfind
      obtain ⟨j, hj⟩ := (mem_values s other).1 (mem_of_find?_eq_some hfind)
      obtain rfl := hone _ i account j other hi hmatched hj hother
      rw [hi] at hj
      rw [Option.some.inj hj]

/-! ## Persisted accounts -/

structure AccountRow (row : ActorRow) (username email : String) : Prop where
  name : row.username = some username
  subject : row.subject = some username
  mail : row.email = some email
  validName : Username username
  validEmail : Email email

theorem Creation.Accepted.row (h : c.Accepted) : AccountRow c.row c.username c.email := by
  cases c with
  | actor => exact ⟨rfl, rfl, rfl, h.username, h.email⟩
  | admin => exact ⟨rfl, rfl, rfl, h.username, h.email⟩

/-- the rows with a credential are those of accounts; no two have one username, or one e-mail that is its own folding -/
structure Store.Inv (s : Store) : Prop where
  rows : ∀ i ∈ s.credentials, ∃ row username email, s.actors.get? i = some row ∧ AccountRow row username email
  usernames : ∀ i ∈ s.credentials, ∀ j ∈ s.credentials, ∀ a b, s.actors.get? i = some a → s.actors.get? j = some b →
    a.username.map lower = b.username.map lower → i = j
  emails : ∀ i ∈ s.credentials, ∀ j ∈ s.credentials, ∀ a b, s.actors.get? i = some a → s.actors.get? j = some b →
    a.email = b.email → a.email.map PyFold.casefold = a.email → i = j

/-- all e-mails of accounts are their own case foldings -/
def Store.FoldedEmails (s : Store) : Prop :=
  ∀ i ∈ s.credentials, ∀ a, s.actors.get? i = some a → a.email.map PyFold.casefold = a.email

variable {s : Store}

/-- what a test of `_ensure_unique_actor` finds out -/
theorem ensureUnique_ok {column : ActorRow → Option String} {value message : String}
    {exclude : Option ActorId} (h : s.ensureUnique unicode column value message exclude = .ok ())
    {a : ActorRow} (ha : s.actors.get? i = some a)
    (hcolumn : (column a).map lower = some (PyFold.casefold (strip value))) : exclude = some i := by
  have hmem : (i, a) ∈ s.actors.entries.filter fun e =>
      (column e.2).map unicode.lower = some (unicode.casefold (strip value)) :=
    mem_filter.2 ⟨(get?_eq_some_iff _ _ _).1 ha, decide_eq_true hcolumn⟩
  obtain ⟨found, hfound, h⟩ := of_bind_ok h
  rw [Store.getFolded] at hfound
  split at hfound
  · rename_i hnil
    rw [hnil] at hmem
    cases hmem
  · rename_i e hsingle
    rw [hsingle, mem_singleton] at hmem
    cases hfound
    by_contra hne
    rw [← hmem] at h
    dsimp only at h
    rw [if_pos (Ne.symm hne)] at h
    cases h
  · cases hfound

omit [PyFold] in
theorem flush_same (loaded new : ActorRow) : flush loaded loaded new = new := by
  simp only [flush, written_of_loaded rfl]

variable {s' : Store}

/-- the row that is written has a username of its own, and an e-mail of its own if it is its own folding -/
theorem Store.Inv.write (hs : s.Inv) {new : ActorRow} {username email : String}
    (hrow : AccountRow new username email) (hget : ∀ i, s'.actors.get? i = if i = id then some new else s.actors.get? i)
    (hcred : ∀ i ∈ s'.credentials, i = id ∨ i ∈ s.credentials)
    (husername : ∀ i a, i ≠ id → i ∈ s.credentials → s.actors.get? i = some a →
      a.username.map lower ≠ some (lower username))
    (hemail : ∀ i a, i ≠ id → i ∈ s.credentials → s.actors.get? i = some a → PyFold.casefold email = email →
      a.email ≠ some email) : s'.Inv where
  rows i hi := by
    rw [hget]
    split_ifs with hid
    · exact ⟨new, username, email, rfl, hrow⟩
    · exact hs.rows i ((hcred i hi).resolve_left hid)
  usernames i hi j hj a b ha hb hab := by
    rw [hget] at ha hb
    split_ifs at ha hb with hid hjd
    · rw [hid, hjd]
    · cases ha
      rw [hrow.name] at hab
      exact absurd hab.symm (husername j b hjd ((hcred j hj).resolve_left hjd) hb)
    · cases hb
      rw [hrow.name] at hab
      exact absurd hab (husername i a hid ((hcred i hi).resolve_left hid) ha)
    · exact hs.usernames i ((hcred i hi).resolve_left hid) j ((hcred j hj).resolve_left ‹_›) a b ha hb hab
  emails i hi j hj a b ha hb hab hfold := by
    rw [hget] at ha hb
    split_ifs at ha hb with hid hjd
    · rw [hid, hjd]
    · cases ha
      rw [hrow.mail] at hab hfold
      exact absurd hab.symm (hemail j b hjd ((hcred j hj).resolve_left hjd) hb (Option.some.inj hfold))
    · cases hb
      rw [hrow.mail] at hab
      rw [hab] at hfold
      exact absurd hab (hemail i a hid ((hcred i hi).resolve_left hid) ha (Option.some.inj hfold))
    · exact hs.emails i ((hcred i hi).resolve_left hid) j ((hcred j hj).resolve_left ‹_›) a b ha hb hab hfold

/-- what an operation on the persisted store keeps -/
structure Store.Kept (s s' : Store) (email : String → Prop) : Prop where
  inv : s.Inv → s'.Inv
  folded : s.Inv → s.FoldedEmails → (∀ e, email e → PyFold.casefold e = e) → s'.FoldedEmails

theorem Store.Kept.createAccount {fresh : ActorId} (hc : c.Accepted)
    (h : s.createAccount unicode fresh c = .ok s') : s.Kept s' (· = c.email) := by
  obtain ⟨⟨⟩, -, h⟩ := of_bind_ok h
  obtain ⟨⟨⟩, husername, h⟩ := of_bind_ok h
  obtain ⟨⟨⟩, hemail, hcommit⟩ := of_bind_ok h
  obtain ⟨hfree, hcredentials, hget⟩ := commitCreate_ok hcommit
  have hcred : ∀ i ∈ s'.credentials, i = fresh ∨ i ∈ s.credentials := by
    intro i hi
    rw [hcredentials, mem_append, mem_singleton] at hi
    exact hi.symm
  refine ⟨fun hs => hs.write hc.row hget hcred (fun i a _ _ ha hname => ?_) fun i a _ hi ha hfold hmail => ?_, ?_⟩
  · have hfold : some (lower c.username) = some (PyFold.casefold (strip c.username)) := by
      rw [hc.username.stripped, hc.username.fold_eq]
    exact absurd (ensureUnique_ok husername ha (hname.trans hfold)) (by simp)
  · have hlower : a.email.map lower = some (PyFold.casefold (strip c.email)) := by
      rw [hmail, map_some, hc.email.lowered, hc.email.stripped, hfold]
    exact absurd (ensureUnique_ok hemail ha hlower) (by simp)
  · intro hs hfolded hown i hi a ha
    rw [hget] at ha
    split_ifs at ha with hid
    · cases ha
      rw [hc.row.mail, map_some, hown _ rfl]
    · exact hfolded i ((hcred i hi).resolve_left hid) a ha

variable {row : ActorRow}

omit [PyFold] in
theorem account?_some (h : s.account? id = some row) : id ∈ s.credentials ∧ s.actors.get? id = some row := by
  unfold Store.account? at h
  split_ifs at h with hmem
  exact ⟨hmem, h⟩

theorem Store.Kept.updateAccount {actor : ActorId} {fields : UpdateFields}
    (hfields : ∀ e ∈ fields.email, Email e) (h : s.updateAccount unicode actor fields = .ok s') :
    s.Kept s' (· ∈ fields.email) := by
  unfold Store.updateAccount at h
  cases hloaded : s.account? actor with
  | none =>
    rw [hloaded] at h
    cases h
  | some loaded =>
    rw [hloaded] at h
    obtain ⟨hmem, hget⟩ := account?_some hloaded
    -- the row that the commit writes: nobody has changed it since it was loaded
    have hwritten : ∀ {new}, s.commitUpdate actor loaded new = .ok s' →
        s'.credentials = s.credentials ∧ ∀ i, s'.actors.get? i = if i = actor then some new else s.actors.get? i := by
      intro new hcommit
      obtain ⟨current, hcurrent, hcredentials, hset⟩ := commitUpdate_ok hcommit
      obtain rfl := Option.some.inj (hget.symm.trans hcurrent)
      exact ⟨hcredentials, fun i => by rw [hset, flush_same]⟩
    have hothername : s.Inv → ∀ u e, AccountRow loaded u e → ∀ i a, i ≠ actor → i ∈ s.credentials →
        s.actors.get? i = some a → a.username.map lower ≠ some (lower u) :=
      fun hs u e hrow i a hi hcred ha hname => hi (hs.usernames i hcred actor hmem a loaded ha hget (by
        rw [hname, hrow.name, map_some]))
    have hrow : s.Inv → ∃ u e, AccountRow loaded u e := by
      intro hs
      obtain ⟨row, u, e, hrow, haccount⟩ := hs.rows actor hmem
      obtain rfl := Option.some.inj (hget.symm.trans hrow)
      exact ⟨u, e, haccount⟩
    cases hchanges : changesEmail unicode fields loaded with
    | false =>
      simp only [hchanges, Bool.false_eq_true, if_false] at h
      obtain ⟨hcredentials, hset⟩ := hwritten h
      have hsame : (updatedRow unicode fields loaded).email = loaded.email := by simp [updatedRow, hchanges]
      refine ⟨fun hs => ?_, fun hs hfolded _ i hi a ha => ?_⟩
      · obtain ⟨u, e, hrow⟩ := hrow hs
        have hnewrow : AccountRow (updatedRow unicode fields loaded) u e :=
          ⟨hrow.name, hrow.subject, hsame.trans hrow.mail, hrow.validName, hrow.validEmail⟩
        refine hs.write hnewrow hset
          (fun i hi => .inr (hcredentials ▸ hi)) (hothername hs u e hrow) fun i a hi hcred ha hfold hmail => hi ?_
        refine hs.emails i hcred actor hmem a loaded ha hget (hmail.trans hrow.mail.symm) ?_
        rw [hmail, map_some, hfold]
      · rw [hset] at ha
        split_ifs at ha with hid
        · cases ha
          rw [hsame]
          exact hfolded actor hmem loaded hget
        · exact hfolded i (hcredentials ▸ hi) a ha
    | true =>
      simp only [hchanges, if_true] at h
      obtain ⟨⟨⟩, hunique, h⟩ := of_bind_ok h
      obtain ⟨hcredentials, hset⟩ := hwritten h
      obtain ⟨new, hnew⟩ : ∃ new, fields.email = some new := by
        cases hemail : fields.email with
        | none => simp [changesEmail, hemail] at hchanges
        | some e => exact ⟨e, rfl⟩
      have hvalid : Email new := hfields new hnew
      have hmail : (updatedRow unicode fields loaded).email = some new := by simp [updatedRow, hchanges, hnew]
      refine ⟨fun hs => ?_, fun hs hfolded hown i hi a ha => ?_⟩
      · obtain ⟨u, e, hrow⟩ := hrow hs
        have hnewrow : AccountRow (updatedRow unicode fields loaded) u new :=
          ⟨hrow.name, hrow.subject, hmail, hrow.validName, hvalid⟩
        refine hs.write hnewrow hset
          (fun i hi => .inr (hcredentials ▸ hi)) (hothername hs u e hrow) fun i a hi hcred ha hfold hsame => hi ?_
        have hlower : a.email.map lower = some (PyFold.casefold (strip (fields.email.getD ""))) := by
          rw [hsame, hnew, map_some, getD_some, hvalid.lowered, hvalid.stripped, hfold]
        exact (Option.some.inj (ensureUnique_ok hunique ha hlower)).symm
      · rw [hset] at ha
        split_ifs at ha with hid
        · cases ha
          rw [hmail, map_some, hown new hnew]
        · exact hfolded i (hcredentials ▸ hi) a ha

/-- the e-mails that an operation may set -/
def AccountOp.Sets (op : AccountOp) (email : String) : Prop :=
  match op with
  | .create _ r => normalizeEmail r.email = .ok email
  | .bootstrap _ r => normalizeEmail r.email = .ok email
  | .update _ fields => ∃ raw ∈ fields.email, normalizeEmail raw = .ok email

theorem Store.Kept.mono {p q : String → Prop} (h : s.Kept s' p) (hpq : ∀ e, p e → q e) : s.Kept s' q :=
  ⟨h.inv, fun hs hfolded hown => h.folded hs hfolded fun e he => hown e (hpq e he)⟩

theorem Store.Kept.perform (h : s.perform unicode op = .ok s') : s.Kept s' op.Sets := by
  cases op with
  | create fresh r =>
    obtain ⟨c, hc, h⟩ := of_bind_ok h
    obtain ⟨haccepted, hemail⟩ := create_accepted hc
    exact (Store.Kept.createAccount haccepted h).mono fun e he => he ▸ hemail
  | bootstrap fresh r =>
    obtain ⟨c, hc, h⟩ := of_bind_ok h
    obtain ⟨haccepted, hemail⟩ := bootstrap_accepted hc
    exact (Store.Kept.createAccount haccepted h).mono fun e he => he ▸ hemail
  | update actor fields =>
    obtain ⟨found, hfound, h⟩ := of_bind_ok h
    cases found with
    | none => cases h
    | some existing =>
      obtain ⟨fields', hfields, h⟩ := of_bind_ok h
      obtain ⟨accounts, -, h⟩ := of_bind_ok h
      obtain ⟨⟨⟩, -, h⟩ := of_bind_ok h
      refine (Store.Kept.updateAccount (fun e he => ?_) h).mono fun e he => normalizeFields_email hfields he
      obtain ⟨raw, -, hraw⟩ := normalizeFields_email hfields he
      exact normalizeEmail_ok hraw

theorem AccountOp.Folded.sets (h : op.Folded) (he : op.Sets e) : PyFold.casefold e = e := by
  cases op with
  | create fresh r => exact h e he
  | bootstrap fresh r => exact h e he
  | update actor fields =>
    obtain ⟨raw, hraw, he⟩ := he
    exact h raw hraw e he

theorem Store.run_kept (hs : s.Inv) (ops : List AccountOp) :
    (s.run unicode ops).Inv ∧ (s.FoldedEmails → (∀ op ∈ ops, op.Folded) → (s.run unicode ops).FoldedEmails) := by
  induction ops generalizing s with
  | nil => exact ⟨hs, fun h _ => h⟩
  | cons op ops ih =>
    have hstep : (performed s (s.perform unicode op)).Inv ∧
        (s.FoldedEmails → op.Folded → (performed s (s.perform unicode op)).FoldedEmails) := by
      cases h : s.perform unicode op with
      | error => exact ⟨hs, fun hf _ => hf⟩
      | ok s' =>
        have hkept := Store.Kept.perform h
        exact ⟨hkept.inv hs, fun hf hop => hkept.folded hs hf fun e he => hop.sets he⟩
    obtain ⟨hinv, hfolded⟩ := ih hstep.1
    exact ⟨hinv, fun hf hops => hfolded (hstep.2 hf (hops op (by simp))) fun o ho => hops o (by simp [ho])⟩

theorem Store.inv_of_no_credentials (h : s.credentials = []) : s.Inv ∧ s.FoldedEmails := by
  refine ⟨⟨?_, ?_, ?_⟩, ?_⟩ <;> simp [h, Store.FoldedEmails]

/-! ## Identification in the persisted store -/

theorem AccountRow.matched_iff (h : AccountRow row u e) (n : String) :
    (row.username.map lower = some n || row.subject.map lower = some n ||
      row.email.map lower = some n) = true ↔ PyFold.casefold u = n ∨ e = n := by
  simp only [h.name, h.subject, h.mail, map_some, h.validEmail.lowered, ← h.validName.fold_eq, Option.some.injEq,
    Bool.or_eq_true, decide_eq_true_eq]
  tauto

/-- an identifier matches an account of a row by the folding of the username or by the e-mail -/
theorem mem_matched {x : String} (hget : s.actors.get? i = some row) (hrow : AccountRow row u e) :
    i ∈ s.matched unicode x ↔ i ∈ s.credentials ∧
      (PyFold.casefold u = normalizeIdentifier unicode (some x) ∨ e = normalizeIdentifier unicode (some x)) := by
  have hne : PyFold.casefold u = normalizeIdentifier unicode (some x) ∨ e = normalizeIdentifier unicode (some x) →
      normalizeIdentifier unicode (some x) ≠ "" := by
    rintro (h | h)
    · exact h ▸ hrow.validName.fold_ne_empty
    · refine h ▸ fun hempty => ?_
      simpa [hempty] using hrow.validEmail.at'
  unfold Store.matched
  dsimp only
  split_ifs with hempty
  · exact ⟨fun h => (by cases h), fun h => absurd hempty (hne h.2)⟩
  · rw [mem_filter, hget, any_some]
    exact and_congr_right fun _ => hrow.matched_iff _

theorem hasAccount_row (hs : s.Inv) (h : s.HasAccount account) :
    ∃ row u e, account.id ∈ s.credentials ∧ s.actors.get? account.id = some row ∧ AccountRow row u e ∧
      account.username = u ∧ account.email = e ∧ s.getAccountById account.id true = .ok (some account) := by
  obtain ⟨row, haccount, hcredential⟩ := h
  obtain ⟨hmem, hget⟩ := account?_some haccount
  obtain ⟨row', u, e, hget', hrow⟩ := hs.rows account.id hmem
  obtain rfl := Option.some.inj (hget.symm.trans hget')
  have hfound : s.getAccountById account.id true = .ok (some account) := by
    simp only [Store.getAccountById, haccount, hcredential]
    rfl
  obtain ⟨username, husername, hfields⟩ := of_bind_ok hcredential
  have hname : username = u := by
    unfold coerceActorUsername at husername
    simp only [hrow.name, getD_some, hrow.validName.stripped, ne_eq, hrow.validName.ne, not_false_eq_true,
      if_true] at husername
    exact (Except.ok.inj husername).symm
  have haccount := Except.ok.inj hfields
  refine ⟨row, u, e, hmem, hget, hrow, ?_, ?_, hfound⟩
  · rw [← haccount, ← hname]
  · rw [← haccount, hrow.mail]
    rfl

theorem Store.login_eq (s : Store) (x : String) :
    s.login x = match (s.matched unicode x).head? with
      | none => .ok none
      | some id => s.getAccountById id true := by
  have hmatched : s.matched unicode (normalizeIdentifier unicode (some x)) = s.matched unicode x := by
    simp only [Store.matched, normalized_normalized]
  rw [Store.login, Store.getAccountByIdentifier, hmatched]

omit [PyFold] in
theorem getAccountById_id [PyText] {all : Bool} (h : s.getAccountById i all = .ok (some account)) : account.id = i := by
  unfold Store.getAccountById at h
  cases hrow : s.account? i with
  | none =>
    rw [hrow] at h
    cases h
  | some row =>
    rw [hrow] at h
    obtain ⟨found, hfound, h⟩ := of_bind_ok h
    obtain ⟨_, -, hfields⟩ := of_bind_ok hfound
    split_ifs at h
    · cases h
    · cases h
      rw [← Except.ok.inj hfields]

/-- two accounts with an identifier are one, while all e-mails are their own case foldings -/
theorem Store.Inv.one (hs : s.Inv) (hfolded : s.FoldedEmails) {x : String} {i j : ActorId}
    (hi : i ∈ s.matched unicode x) (hj : j ∈ s.matched unicode x) : i = j := by
  have hcred : ∀ k ∈ s.matched unicode x, k ∈ s.credentials := by
    intro k hk
    unfold Store.matched at hk
    dsimp only at hk
    split_ifs at hk
    · cases hk
    · exact (mem_filter.1 hk).1
  obtain ⟨a, u, e, ha, hrowa⟩ := hs.rows i (hcred i hi)
  obtain ⟨b, v, f, hb, hrowb⟩ := hs.rows j (hcred j hj)
  have he := hfolded i (hcred i hi) a ha
  have hf := hfolded j (hcred j hj) b hb
  rw [hrowa.mail, map_some, Option.some.injEq] at he
  rw [hrowb.mail, map_some, Option.some.injEq] at hf
  rcases ((mem_matched ha hrowa).1 hi).2 with hxi | hxi <;> rcases ((mem_matched hb hrowb).1 hj).2 with hxj | hxj
  · refine hs.usernames i (hcred i hi) j (hcred j hj) a b ha hb ?_
    rw [hrowa.name, hrowb.name, map_some, map_some, ← hrowa.validName.fold_eq, ← hrowb.validName.fold_eq,
      hxi, hxj]
  · exact absurd (hxi.trans (hxj.symm.trans hf.symm)) (hrowa.validName.fold_ne hrowb.validEmail)
  · exact absurd (hxj.trans (hxi.symm.trans he.symm)) (hrowb.validName.fold_ne hrowa.validEmail)
  · refine hs.emails i (hcred i hi) j (hcred j hj) a b ha hb ?_ (hfolded i (hcred i hi) a ha)
    rw [hrowa.mail, hrowb.mail, hxi, hxj]

/-- the accounts of the persisted store are told apart exactly while their e-mails are their own case foldings -/
theorem Store.Inv.identified_iff (hs : s.Inv) : s.Identified ↔ s.FoldedEmails := by
  refine ⟨fun h i hi a ha => ?_, fun hfolded => ⟨fun x i j hi hj => hs.one hfolded hi hj, fun account haccount x hx => ?_⟩⟩
  · obtain ⟨row, u, e, hget, hrow⟩ := hs.rows i hi
    obtain rfl := Option.some.inj (hget.symm.trans ha)
    obtain ⟨account, hcredential⟩ : ∃ account, credentialToAccount i row = .ok account := by
      have hname : coerceActorUsername row = .ok u := by
        simp [coerceActorUsername, hrow.name, hrow.validName.stripped, hrow.validName.ne]
      exact ⟨_, by rw [credentialToAccount, hname]; rfl⟩
    have hfields : account.id = i ∧ account.email = e := by
      obtain ⟨_, -, hfields⟩ := of_bind_ok hcredential
      rw [← Except.ok.inj hfields, hrow.mail]
      exact ⟨rfl, rfl⟩
    have haccount : s.HasAccount account := by
      refine ⟨row, ?_, ?_⟩
      · rw [hfields.1, Store.account?, if_pos hi, ha]
      · rwa [hfields.1]
    -- the account is found by its own e-mail, so its e-mail is what that is normalized to
    have hlogin := h.found account haccount e (.inr (by rw [hfields.2]; exact rfl))
    rw [Store.login_eq] at hlogin
    cases hhead : (s.matched unicode e).head? with
    | none =>
      rw [hhead] at hlogin
      cases hlogin
    | some j =>
      rw [hhead] at hlogin
      have hj : i ∈ s.matched unicode e := by
        rw [← hfields.1, getAccountById_id hlogin]
        exact mem_of_mem_head? hhead
      rw [hrow.mail, map_some, Option.some.injEq]
      rcases ((mem_matched ha hrow).1 hj).2 with hx | hx
      · rw [hrow.validEmail.normalized] at hx
        exact absurd hx (hrow.validName.fold_ne hrow.validEmail)
      · rw [hrow.validEmail.normalized] at hx
        exact hx.symm
  · obtain ⟨row, u, e, hmem, hget, hrow, hname, hmail, hfound⟩ := hasAccount_row hs haccount
    have he := hfolded account.id hmem row hget
    rw [hrow.mail, map_some, Option.some.injEq] at he
    have hmatched : account.id ∈ s.matched unicode x := by
      rw [mem_matched hget hrow, normalized_eq]
      refine ⟨hmem, hx.imp (fun hx => ?_) fun hx => ?_⟩
      · rw [hx, hname, hrow.validName.stripped]
      · rw [hx, hmail, hrow.validEmail.stripped, he]
    rw [Store.login_eq]
    cases hhead : (s.matched unicode x).head? with
    | none =>
      rw [head?_eq_none_iff] at hhead
      rw [hhead] at hmatched
      cases hmatched
    | some j =>
      rw [hs.one hfolded (mem_of_mem_head? hhead) hmatched]
      exact hfound

/-- **Login identifiers.** After any operations the accounts in memory are told apart. The persisted ones are told apart
when every e-mail that is set is its own case folding, and only while those of all accounts are. -/
theorem logins_identified (s : Store) (hs : s.credentials = []) (ops : List AccountOp) :
    (MemoryStore.run unicode Dict.empty ops).Identified ∧
      ((∀ op ∈ ops, op.Folded) → (s.run unicode ops).Identified) ∧
      ((s.run unicode ops).Identified ↔ (s.run unicode ops).FoldedEmails) := by
  obtain ⟨hinv, hnone⟩ := Store.inv_of_no_credentials hs
  obtain ⟨hrun, hfolded⟩ := Store.run_kept hinv ops
  exact ⟨(MemoryStore.inv_empty.run ops).identified, fun hops => hrun.identified_iff.2 (hfolded hnone hops),
    hrun.identified_iff⟩

end Identified

/-! ## A final sigma -/

namespace Greek

/-- the case folding of ASCII text and of a final sigma -/
def foldChar (c : Char) : Char := if c = 'ς' then 'σ' else c.toLower

def casefold (s : String) : String := String.ofList (s.toList.map foldChar)

theorem toLower_eq_iff {c d : Char} (h : 128 ≤ d.toNat ∨ d = '@') : c.toLower = d ↔ c = d := by
  by_cases hc : 65 ≤ c.toNat ∧ c.toNat ≤ 90
  · have hlower := Ascii.toNat_toLower c hc
    refine ⟨fun heq => ?_, fun heq => ?_⟩
    · rw [heq] at hlower
      rcases h with h | rfl
      · omega
      · have hat : '@'.toNat = 64 := rfl
        omega
    · subst heq
      rcases h with h | rfl
      · omega
      · exact absurd hc (by decide)
  · rw [Ascii.toLower_eq c hc]

theorem foldChar_toLower (c : Char) : foldChar c.toLower = foldChar c := by
  simp only [foldChar, toLower_eq_iff (d := 'ς') (.inl (by decide)), Ascii.toLower_toLower]

theorem foldChar_foldChar (c : Char) : foldChar (foldChar c) = foldChar c := by
  by_cases h : c = 'ς'
  · subst h
    decide
  · have hfold : foldChar c = c.toLower := if_neg h
    rw [hfold, foldChar_toLower, hfold]

theorem isSpace_foldChar (c : Char) : Ascii.isSpace (foldChar c) = Ascii.isSpace c := by
  unfold foldChar
  split_ifs with h
  · subst h
    decide
  · exact Ascii.isSpace_toLower c

theorem at_foldChar (c : Char) : foldChar c = '@' ↔ c = '@' := by
  unfold foldChar
  split_ifs with h
  · subst h
    decide
  · exact toLower_eq_iff (.inr rfl)

/-- the instance on ASCII text and final sigmas -/
scoped instance greek : PyFold where
  __ := Ascii.instPyText
  casefold := casefold
  casefold_casefold s := by
    simp only [casefold, String.toList_ofList, List.map_map]
    congr 2
    funext c
    exact foldChar_foldChar c
  casefold_lower s := by
    change casefold (Ascii.lower s) = casefold s
    simp only [casefold, Ascii.lower, String.toList_ofList, List.map_map]
    congr 2
    funext c
    exact foldChar_toLower c
  strip_casefold s := by
    change Ascii.strip (casefold s) = casefold (Ascii.strip s)
    simp only [casefold, Ascii.strip, String.toList_ofList, ← map_trim Ascii.isSpace Ascii.isSpace foldChar isSpace_foldChar]
  casefold_ascii s h := by
    simp only [casefold]
    congr 1
    refine map_congr_left fun c hc => if_neg fun heq => ?_
    exact absurd (heq ▸ h c hc) (by decide)
  casefold_ne_empty s h hempty := by
    have hlist := congrArg String.toList hempty
    simp only [casefold, String.toList_ofList, String.toList_empty, map_eq_nil_iff] at hlist
    exact h (String.toList_eq_nil_iff.1 hlist)
  at_casefold s := by
    simp only [casefold, String.toList_ofList, List.mem_map, at_foldChar, exists_eq_right]

end Greek

section Runs

open scoped Greek

def adaFirst : AccountOp := .bootstrap 1 ⟨"ada", "ada@example.org", "password"⟩

def bobNext : AccountOp := .create 2 ⟨"bob", "Bob@Example.org", "password", none, none, ["viewer"]⟩

theorem ada_and_bob : (Store.run unicode Store.empty [adaFirst, bobNext]).Identified :=
  (logins_identified Store.empty rfl [adaFirst, bobNext]).2.1 fun op hop => by
    rcases mem_cons.1 hop with rfl | hop
    · intro email hemail
      cases hemail
      decide +kernel
    · rw [mem_singleton.1 hop]
      intro email hemail
      cases hemail
      decide +kernel

/-- two accounts with the e-mail `νικος@example.gr` -/
def nikosTwice : List AccountOp :=
  [adaFirst, .create 2 ⟨"nikos", "νικος@example.gr", "password", none, none, ["viewer"]⟩,
    .create 3 ⟨"nikos2", "νικος@example.gr", "password", none, none, ["viewer"]⟩]

/-- the persisted store accepts the e-mail twice, and finds neither account by it; the one in memory accepts it once -/
theorem sigma_twice :
    ((Store.run unicode Store.empty nikosTwice).listAccounts.map fun l => l.map (·.email)) =
        .ok ["ada@example.org", "νικος@example.gr", "νικος@example.gr"] ∧
      (Store.run unicode Store.empty nikosTwice).login "νικος@example.gr" = .ok none ∧
      ¬ (Store.run unicode Store.empty nikosTwice).Identified ∧
      (MemoryStore.run unicode Dict.empty nikosTwice).values.map (·.email) = ["ada@example.org", "νικος@example.gr"] := by
  obtain ⟨hempty, -⟩ := Store.inv_of_no_credentials (s := Store.empty) rfl
  refine ⟨by decide +kernel, by decide +kernel, fun h => ?_, by decide +kernel⟩
  have hfolded := (Store.run_kept hempty nikosTwice).1.identified_iff.1 h
  obtain ⟨row, hrow, hmail⟩ : ∃ row, (Store.run unicode Store.empty nikosTwice).actors.get? 2 = some row ∧
      row.email.map PyFold.casefold ≠ row.email := ⟨_, rfl, by decide +kernel⟩
  exact hmail (hfolded 2 (by decide +kernel) row hrow)

end Runs

end Langbridge.Runtime.Accounts
