/-
Refreshing vector indexes beside searches (`runtime/services/semantic_vector_search_service.py`): a search first brings
the index records into line with its semantic model, and so does a refresh, which then goes through the indexes that are
due. Each of them works on copies of the records and saves copies back; the store may be used by others between any two
of its calls, and an operation may stop at any of them.

A save takes the fields that it does not set from its copy, however old that is.
-/
import Langbridge.Core.Dict

namespace Langbridge.Runtime.VectorRefresh

open Core List Dict Option

/-! ## Records -/

inductive Status where
  | pending
  | refreshing
  | ready
  | failed
deriving DecidableEq

/-- what the vector settings of a dimension come to -/
structure Config where
  vectorStoreTarget : String
  vectorConnectorName : Option String
  vectorConnectorId : Option String
  vectorIndexName : String
  refreshIntervalSeconds : Option ℤ
deriving DecidableEq

/-- what a refresh leaves of an index, with the settings it was made under -/
structure Outcome where
  config : Config
  refreshStatus : Status
  indexedValueCount : Option ℕ
  embeddingDimension : Option ℕ
  lastRefreshedAt : Option ℕ
  lastRefreshError : Option String
deriving DecidableEq

/-- dataset and dimension -/
abbrev Key := String × String

/-- `SemanticVectorIndexMetadata`, of the indexes of one semantic model -/
structure Record where
  id : ℕ
  key : Key
  outcome : Outcome
  lastRefreshStartedAt : Option ℕ
  updatedAt : ℕ
deriving DecidableEq

/-- the outcome of an index that has not been refreshed -/
def Outcome.pending (config : Config) : Outcome := ⟨config, .pending, none, none, none, none⟩

/-- the saves of the service, with the copies they are made from: `_build_index_metadata` for a record that is there or
not, and the three of `_refresh_dimension_index` -/
inductive Save where
  | sync (prior : Option Record) (key : Key) (config : Config) (now : ℕ)
  | begin (copy : Record) (now : ℕ)
  | ready (copy : Record) (count : ℕ) (dimension : Option ℕ) (now : ℕ)
  | failed (copy : Record) (error : String) (now : ℕ)

/-- `_build_index_metadata`; a new record has the id `fresh` -/
def buildIndexMetadata (fresh : ℕ) (prior : Option Record) (key : Key) (config : Config) (now : ℕ) : Record :=
  match prior with
  | some prior =>
    if prior.outcome.config ≠ config then
      { prior with key := key, outcome := .pending config, lastRefreshStartedAt := none, updatedAt := now }
    else { prior with key := key, updatedAt := now }
  | none => ⟨fresh, key, .pending config, none, now⟩

def Save.record (fresh : ℕ) : Save → Record
  | .sync prior key config now => buildIndexMetadata fresh prior key config now
  | .begin copy now =>
    { copy with
      outcome := { copy.outcome with refreshStatus := .refreshing, lastRefreshError := none }
      lastRefreshStartedAt := some now
      updatedAt := now }
  | .ready copy count dimension now =>
    { copy with
      outcome :=
        { copy.outcome with
          refreshStatus := .ready
          indexedValueCount := some count
          embeddingDimension := dimension
          lastRefreshedAt := some now
          lastRefreshError := none }
      updatedAt := now }
  | .failed copy error now =>
    { copy with
      outcome := { copy.outcome with refreshStatus := .failed, lastRefreshError := some error }
      updatedAt := now }

def shouldRefresh (now : ℕ) (r : Record) : Bool :=
  match r.outcome.lastRefreshedAt with
  | none => true
  | some last =>
    match r.outcome.config.refreshIntervalSeconds with
    | none => false
    | some seconds => if seconds ≤ 0 then false else (last : ℤ) + seconds ≤ now

/-- an index that `_list_ready_indexes` keeps -/
def isReady (r : Record) : Bool :=
  r.outcome.refreshStatus = .ready && r.outcome.lastRefreshedAt.isSome && 0 < r.outcome.indexedValueCount.getD 0

/-! ## Operations -/

/-- what an operation is given at a step: the time, and what fetching, embedding and storing the values came to -/
structure Input where
  now : ℕ
  values : Except String (ℕ × Option ℕ)

/-- an operation, from its next call of the store -/
inductive Program where
  | done
  | ask (k : Input → Program)
  | list (k : List Record → Program)
  | save (q : Save) (k : Record → Program)
  | delete (id : ℕ) (k : Program)
  | listReady

/-- the loop of `_sync_model_indexes` over the dimensions that have a vector index -/
def syncEach (existing : List Record) : List (Key × Config) → List Record → (List Record → Program) → Program
  | [], synced, k => k synced
  | (key, config) :: desired, synced, k =>
    let prior := existing.reverse.find? fun r => r.key = key
    .ask fun input => .save (.sync prior key config input.now) fun saved => syncEach existing desired (synced ++ [saved]) k

/-- the loop over the records of other dimensions -/
def deleteStale (desired : List (Key × Config)) : List Record → Program → Program
  | [], k => k
  | stale :: existing, k =>
    if (desired.map Prod.fst).contains stale.key then deleteStale desired existing k
    else .delete stale.id (deleteStale desired existing k)

def syncModelIndexes (desired : List (Key × Config)) (k : List Record → Program) : Program :=
  .list fun existing => syncEach existing desired [] fun synced => deleteStale desired existing (k synced)

/-- `search`, up to the indexes it searches -/
def search (desired : List (Key × Config)) : Program := syncModelIndexes desired fun _ => .listReady

def refreshDimensionIndex (index : Record) (k : Program) : Program :=
  .ask fun input => .save (.begin index input.now) fun savedState => .ask fun input =>
    match input.values with
    | .ok (count, dimension) => .save (.ready savedState count dimension input.now) fun _ => k
    | .error e => .save (.failed savedState e input.now) fun _ => k

def refreshEach (force : Bool) : List Record → Program
  | [] => .done
  | index :: synced => .ask fun input =>
    if !force && !shouldRefresh input.now index then refreshEach force synced
    else refreshDimensionIndex index (refreshEach force synced)

/-- `refresh_workspace`, for one semantic model -/
def refreshWorkspace (force : Bool) (desired : List (Key × Config)) : Program :=
  syncModelIndexes desired (refreshEach force)

/-! ## Runs -/

inductive Entry where
  | saved (id : ℕ) (q : Save)
  | deleted (id : ℕ)
  | served (records : List Record)

structure State where
  store : Dict ℕ Record
  nextId : ℕ
  threads : List Program
  log : List Entry

def init : State := ⟨.empty, 0, [], []⟩

/-- an operation begins, makes its next step, or stops -/
inductive Event where
  | search (desired : List (Key × Config))
  | refresh (force : Bool) (desired : List (Key × Config))
  | advance (i : ℕ) (input : Input)
  | abandon (i : ℕ)

def stepProgram (s : State) (input : Input) : Program → State × Program
  | .done => (s, .done)
  | .ask k => (s, k input)
  | .list k => (s, k s.store.values)
  | .save q k =>
    let r := q.record s.nextId
    ({ s with
        store := s.store.set r.id r
        nextId := max s.nextId (r.id + 1)
        log := s.log ++ [.saved r.id q] }, k r)
  | .delete id k => ({ s with store := s.store.erase id, log := s.log ++ [.deleted id] }, k)
  | .listReady => ({ s with log := s.log ++ [.served (s.store.values.filter isReady)] }, .done)

def step (s : State) : Event → State
  | .search desired => { s with threads := s.threads ++ [VectorRefresh.search desired] }
  | .refresh force desired => { s with threads := s.threads ++ [refreshWorkspace force desired] }
  | .advance i input =>
    match s.threads[i]? with
    | none => s
    | some p =>
      let next := stepProgram s input p
      { next.1 with threads := s.threads.set i next.2 }
  | .abandon i => { s with threads := s.threads.set i .done }

def run (s : State) (es : List Event) : State := es.foldl step s

/-! ## What the refreshes have left -/

def Outcome.after (o : Option Outcome) : Save → Option Outcome
  | .sync none _ config _ => some (.pending config)
  | .sync (some _) _ config _ => o.map fun o => if o.config ≠ config then .pending config else o
  | .begin _ _ => o.map fun o => { o with refreshStatus := .refreshing, lastRefreshError := none }
  | .ready _ count dimension now => o.map fun o =>
    { o with
      refreshStatus := .ready
      indexedValueCount := some count
      embeddingDimension := dimension
      lastRefreshedAt := some now
      lastRefreshError := none }
  | .failed _ error _ => o.map fun o => { o with refreshStatus := .failed, lastRefreshError := some error }

def Entry.effect (id : ℕ) (o : Option Outcome) : Entry → Option Outcome
  | .saved id' q => if id' = id then Outcome.after o q else o
  | .deleted id' => if id' = id then none else o
  | .served _ => o

/-- the outcome of an index, from what has happened to it -/
def outcomeOf (id : ℕ) (log : List Entry) : Option Outcome := log.foldl (Entry.effect id) none

/-- what a save that starts or fails a refresh takes from its copy -/
def Outcome.SameValues (o o' : Outcome) : Prop :=
  o.config = o'.config ∧ o.indexedValueCount = o'.indexedValueCount ∧
    o.embeddingDimension = o'.embeddingDimension ∧ o.lastRefreshedAt = o'.lastRefreshedAt

def Save.Fresh (store : Dict ℕ Record) : Save → Prop
  | .sync none _ _ _ => True
  | .sync (some prior) _ config _ => ∃ r ∈ store.get? prior.id, prior.outcome.config = r.outcome.config ∧
      (r.outcome.config = config → prior.outcome = r.outcome)
  | .begin copy _ => ∃ r ∈ store.get? copy.id, copy.outcome.SameValues r.outcome
  | .ready copy _ _ _ => ∃ r ∈ store.get? copy.id, copy.outcome.config = r.outcome.config
  | .failed copy _ _ => ∃ r ∈ store.get? copy.id, copy.outcome.SameValues r.outcome

def FreshStep (s : State) : Event → Prop
  | .advance i _ =>
    match s.threads[i]? with
    | some (.save q _) => q.Fresh s.store
    | _ => True
  | _ => True

/-- every save of a run is fresh -/
def FreshRun (s : State) : List Event → Prop
  | [] => True
  | e :: es => FreshStep s e ∧ FreshRun (step s e) es

theorem outcomeOf_append (id : ℕ) (log : List Entry) (e : Entry) :
    outcomeOf id (log ++ [e]) = Entry.effect id (outcomeOf id log) e := foldl_append

/-- **One save**: from a fresh copy it leaves what it leaves of the stored record. -/
theorem Save.Fresh.outcome {store : Dict ℕ Record} {q : Save} (h : q.Fresh store) (fresh : ℕ) :
    some (q.record fresh).outcome = Outcome.after ((store.get? (q.record fresh).id).map Record.outcome) q := by
  cases q with
  | sync prior key config now =>
    cases prior with
    | none => rfl
    | some prior =>
      obtain ⟨r, hr, hconfig, hsame⟩ := h
      have hid : (Save.record fresh (.sync (some prior) key config now)).id = prior.id := by
        simp only [Save.record, buildIndexMetadata]
        split_ifs <;> rfl
      rw [hid, hr]
      simp only [Save.record, buildIndexMetadata, Outcome.after, map_some, hconfig]
      by_cases hsettings : r.outcome.config = config
      · rw [if_neg (not_not.2 hsettings), if_neg (not_not.2 hsettings)]
        exact congrArg some (hsame hsettings)
      · rw [if_pos hsettings, if_pos hsettings]
  | begin copy now =>
    obtain ⟨r, hr, hconfig, hcount, hdimension, hlast⟩ := h
    change some _ = Outcome.after ((store.get? copy.id).map Record.outcome) _
    rw [hr]
    simp only [Save.record, Outcome.after, map_some, hconfig, hcount, hdimension, hlast]
  | ready copy count dimension now =>
    obtain ⟨r, hr, hconfig⟩ := h
    change some _ = Outcome.after ((store.get? copy.id).map Record.outcome) _
    rw [hr]
    simp only [Save.record, Outcome.after, map_some, hconfig]
  | failed copy error now =>
    obtain ⟨r, hr, hconfig, hcount, hdimension, hlast⟩ := h
    change some _ = Outcome.after ((store.get? copy.id).map Record.outcome) _
    rw [hr]
    simp only [Save.record, Outcome.after, map_some, hconfig, hcount, hdimension, hlast]

/-- what a run of fresh saves keeps -/
structure Inv (s : State) : Prop where
  kept : ∀ id, (s.store.get? id).map Record.outcome = outcomeOf id s.log
  ids : ∀ id r, s.store.get? id = some r → r.id = id ∧ id < s.nextId
  served : ∀ before records after, s.log = before ++ .served records :: after →
    ∀ r ∈ records, ∃ o, outcomeOf r.id before = some o ∧ o.refreshStatus = .ready ∧ r.outcome = o

theorem inv_init : Inv init where
  kept _ := rfl
  ids _ _ h := by cases h
  served before records after h := absurd h.symm (append_ne_nil_of_right_ne_nil _ (cons_ne_nil _ _))

variable {s : State}

/-- the indexes that are served are those of the log, and of the entry that is added -/
theorem served_append (h : Inv s) (e : Entry)
    (he : ∀ records, e = .served records → ∀ r ∈ records, ∃ o, outcomeOf r.id s.log = some o ∧
      o.refreshStatus = .ready ∧ r.outcome = o) :
    ∀ before records after, s.log ++ [e] = before ++ .served records :: after →
      ∀ r ∈ records, ∃ o, outcomeOf r.id before = some o ∧ o.refreshStatus = .ready ∧ r.outcome = o := by
  intro before records after hsplit
  rcases append_eq_append_iff.1 hsplit with ⟨rest, hbefore, hafter⟩ | ⟨rest, hlog, hafter⟩
  · cases rest with
    | nil =>
      rw [append_nil] at hbefore
      rw [hbefore]
      exact he records (List.cons.inj hafter).1
    | cons x rest =>
      have hnil := (List.cons.inj hafter).2
      exact absurd hnil.symm (append_ne_nil_of_right_ne_nil _ (cons_ne_nil _ _))
  · cases rest with
    | nil =>
      rw [append_nil] at hlog
      rw [← hlog]
      exact he records (List.cons.inj hafter).1.symm
    | cons x rest =>
      rw [cons_append, List.cons.injEq] at hafter
      rw [← hafter.1] at hlog
      exact h.served before records rest hlog

theorem Inv.save (h : Inv s) {q : Save} (hfresh : q.Fresh s.store) :
    Inv { s with
      store := s.store.set (q.record s.nextId).id (q.record s.nextId)
      nextId := max s.nextId ((q.record s.nextId).id + 1)
      log := s.log ++ [.saved (q.record s.nextId).id q] } where
  kept id := by
    rw [outcomeOf_append, Entry.effect, get?_set, ← h.kept id]
    by_cases hid : id = (q.record s.nextId).id
    · rw [if_pos hid, if_pos hid.symm, hid]
      exact hfresh.outcome s.nextId
    · rw [if_neg hid, if_neg (Ne.symm hid)]
  ids id r hr := by
    rw [get?_set] at hr
    by_cases hid : id = (q.record s.nextId).id
    · rw [if_pos hid] at hr
      cases hr
      refine ⟨hid.symm, lt_of_lt_of_le ?_ (le_max_right _ _)⟩
      rw [hid]
      exact Nat.lt_succ_self _
    · rw [if_neg hid] at hr
      exact ⟨(h.ids id r hr).1, lt_of_lt_of_le (h.ids id r hr).2 (le_max_left _ _)⟩
  served := served_append h _ fun _ he => by cases he

theorem Inv.delete (h : Inv s) (id : ℕ) :
    Inv { s with store := s.store.erase id, log := s.log ++ [.deleted id] } where
  kept id' := by
    rw [outcomeOf_append, Entry.effect, get?_erase, ← h.kept id']
    by_cases hid : id' = id
    · rw [if_pos hid, if_pos hid.symm]
      rfl
    · rw [if_neg hid, if_neg (Ne.symm hid)]
  ids id' r hr := by
    rw [get?_erase] at hr
    split_ifs at hr
    exact h.ids id' r hr
  served := served_append h _ fun _ he => by cases he

/-- the indexes that a search finds ready -/
theorem Inv.listReady (h : Inv s) :
    Inv { s with log := s.log ++ [.served (s.store.values.filter isReady)] } where
  kept id := by
    rw [outcomeOf_append]
    exact h.kept id
  ids := h.ids
  served := by
    apply served_append h
    intro records he r hr
    cases he
    obtain ⟨hmem, hready⟩ := mem_filter.1 hr
    obtain ⟨id, hid⟩ := (mem_values _ _).1 hmem
    have hkept := h.kept id
    rw [hid] at hkept
    unfold isReady at hready
    rw [Bool.and_eq_true, Bool.and_eq_true, decide_eq_true_eq] at hready
    rw [(h.ids id r hid).1]
    exact ⟨r.outcome, hkept.symm, hready.1.1, rfl⟩

theorem Inv.step (h : Inv s) {e : Event} (hfresh : FreshStep s e) : Inv (step s e) := by
  cases e with
  | search desired => exact ⟨h.kept, h.ids, h.served⟩
  | refresh force desired => exact ⟨h.kept, h.ids, h.served⟩
  | abandon i => exact ⟨h.kept, h.ids, h.served⟩
  | advance i input =>
    unfold FreshStep at hfresh
    cases hthread : s.threads[i]? with
    | none =>
      have hstay : VectorRefresh.step s (.advance i input) = s := by
        simp only [VectorRefresh.step, hthread]
      rw [hstay]
      exact h
    | some p =>
      simp only [VectorRefresh.step, hthread] at hfresh ⊢
      cases p with
      | done => exact ⟨h.kept, h.ids, h.served⟩
      | ask k => exact ⟨h.kept, h.ids, h.served⟩
      | list k => exact ⟨h.kept, h.ids, h.served⟩
      | save q k =>
        have hsave := h.save hfresh
        exact ⟨hsave.kept, hsave.ids, hsave.served⟩
      | delete id k =>
        have hdelete := h.delete id
        exact ⟨hdelete.kept, hdelete.ids, hdelete.served⟩
      | listReady =>
        have hready := h.listReady
        exact ⟨hready.kept, hready.ids, hready.served⟩

theorem Inv.run (h : Inv s) {es : List Event} (hfresh : FreshRun s es) : Inv (run s es) := by
  induction es generalizing s with
  | nil => exact h
  | cons e es ih => exact ih (h.step hfresh.1) hfresh.2

/-- **Outcomes are kept.** In a run of searches and refreshes each of whose saves is fresh, every stored record has the
outcome that the refreshes have left of its index, and an index is served only if that outcome is ready. -/
theorem outcomes_kept (es : List Event) (hfresh : FreshRun init es) :
    (∀ id, ((run init es).store.get? id).map Record.outcome = outcomeOf id (run init es).log) ∧
    ∀ before records after, (run init es).log = before ++ .served records :: after →
      ∀ r ∈ records, ∃ o, outcomeOf r.id before = some o ∧ o.refreshStatus = .ready ∧ r.outcome = o :=
  ⟨(inv_init.run hfresh).kept, (inv_init.run hfresh).served⟩

/-- the settings of a dimension without a refresh interval -/
def plainConfig : Config := ⟨"managed_faiss", none, none, "semantic_orders_status", none⟩

def orderStatus : List (Key × Config) := [(("orders", "status"), plainConfig)]

def ok (now count : ℕ) : Input := ⟨now, .ok (count, some 8)⟩

/-- a refresh and a search after it -/
theorem outcomes_kept_alone :
    let es : List Event := [.refresh false orderStatus] ++ List.replicate 8 (.advance 0 (ok 5 3)) ++
      [.search orderStatus] ++ List.replicate 4 (.advance 1 (ok 6 3))
    ((run init es).store.get? 0).map Record.outcome =
      some ⟨plainConfig, .ready, some 3, some 8, some 5, none⟩ := by
  intro es
  have hfresh : FreshRun init es :=
    ⟨trivial, trivial, trivial, trivial, trivial, trivial, ⟨_, rfl, rfl, rfl, rfl, rfl⟩, trivial, ⟨_, rfl, rfl⟩,
      trivial, trivial, trivial, ⟨_, rfl, rfl, fun _ => rfl⟩, trivial, trivial⟩
  rw [(outcomes_kept es hfresh).1 0]
  decide +kernel

/-- two refreshes of one index: the second completes, then the first fails and takes back when the index was refreshed -/
theorem outcome_overwritten :
    ¬∀ es : List Event, ∀ id, ((run init es).store.get? id).map Record.outcome = outcomeOf id (run init es).log := by
  intro hclaim
  have hlost := hclaim ([.refresh false orderStatus] ++ List.replicate 6 (.advance 0 (ok 1 3)) ++
    [.refresh false orderStatus] ++ List.replicate 8 (.advance 1 (ok 5 3)) ++
    List.replicate 2 (.advance 0 ⟨6, .error "timeout"⟩)) 0
  revert hlost
  decide +kernel

end Langbridge.Runtime.VectorRefresh
