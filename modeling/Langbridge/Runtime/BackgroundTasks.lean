/-
The background tasks of a runtime host (`runtime/hosting/background.py`) as a machine whose steps are the stretches
between two awaits. A handler runs under the lock of its name; `_active_tasks` holds the tasks that the manager has
created, but not the executions that the scheduler has begun.

`stop` waits for the tasks it has found in `_active_tasks`, then forgets the tasks and the locks. A handler that is
running may end at any time, and a task that has not begun may be cancelled at any time.
-/
import Langbridge.Core.Dict
import Langbridge.Core.Text

namespace Langbridge.Runtime.BackgroundTasks

open Core List Dict PyText Option

/-! ## The manager -/

inductive Kind where
  | default
  | custom
deriving DecidableEq

/-- what the manager reads of a `RuntimeBackgroundTaskDefinition` -/
structure Definition where
  name : String
  kind : Kind
  scheduled : Bool
  runOnStartup : Bool
  enabled : Bool
deriving DecidableEq

/-- an execution of a handler that has been created, holds a lock, or has ended -/
inductive Phase where
  | created
  | running (lock : ℕ)
  | done
deriving DecidableEq

/-- a task of the manager, or an execution by the scheduler (`job`) -/
structure Execution where
  name : String
  job : Bool
  phase : Phase
deriving DecidableEq

/-- `stops` are the calls of `stop` that wait, with the tasks they wait for -/
structure Manager where
  definitions : List Definition
  started : Bool
  activeTasks : Dict String ℕ
  taskLocks : Dict String ℕ
  executions : Dict ℕ Execution
  nextId : ℕ
  jobs : List String
  schedulerRunning : Bool
  stops : List (List ℕ)

def init : Manager := ⟨[], false, .empty, .empty, .empty, 0, [], false, []⟩

inductive Event where
  | register (d : Definition)
  | startTask (name : String)
  | start
  | stop
  | stopReturns (waited : List ℕ)
  | tick (name : String)
  | begins (id : ℕ)
  | ends (id : ℕ)
  | cancelled (id : ℕ)
deriving DecidableEq

/-- `task.done()` -/
def Manager.isDone (m : Manager) (id : ℕ) : Bool :=
  match m.executions.get? id with
  | some e => e.phase = .done
  | none => true

def Manager.setPhase (m : Manager) (id : ℕ) (e : Execution) (phase : Phase) : Manager :=
  { m with executions := m.executions.set id { e with phase := phase } }

/-- `asyncio.create_task` of a runner, or a coroutine of the scheduler -/
def Manager.create (m : Manager) (name : String) (job : Bool) : Manager :=
  { m with executions := m.executions.set m.nextId ⟨name, job, .created⟩, nextId := m.nextId + 1 }

/-- `start_task` and `_run_definition_as_task`; nothing where they raise -/
def Manager.runAsTask (m : Manager) (name : String) : Option Manager :=
  match m.activeTasks.get? name with
  | some current =>
    if m.isDone current then some { m.create name false with activeTasks := m.activeTasks.set name m.nextId } else none
  | none => some { m.create name false with activeTasks := m.activeTasks.set name m.nextId }

/-- `_schedule_definition` -/
def Manager.schedule (m : Manager) (name : String) : Manager :=
  { m with jobs := m.jobs.filter (· ≠ name) ++ [name] }

def Manager.listTasks (m : Manager) : List Definition :=
  m.definitions.filter (·.kind = .default) ++ m.definitions.filter (·.kind = .custom)

/-- the tasks run on startup, up to the first that raises -/
def Manager.runStartup (m : Manager) : List Definition → Manager
  | [] => m
  | d :: ds =>
    match m.runAsTask d.name with
    | some m' => m'.runStartup ds
    | none => m

/-- `start`, up to its `gather` -/
def Manager.start (m : Manager) : Manager :=
  if m.started then m
  else
    let enabled := m.listTasks.filter (·.enabled)
    let m := (enabled.filter (·.scheduled)).foldl (fun m d => m.schedule d.name) m
    { m with schedulerRunning := true, started := true }.runStartup (enabled.filter (·.runOnStartup))

/-- `stop` after its `gather` -/
def Manager.finishStop (m : Manager) : Manager :=
  let m := { m with activeTasks := .empty, taskLocks := .empty, started := false }
  if m.schedulerRunning then { m with jobs := [], schedulerRunning := false } else m

/-- the lock of a name: `self._task_locks.setdefault(name, asyncio.Lock())` -/
def Manager.lockOf (m : Manager) (name : String) : Manager × ℕ :=
  match m.taskLocks.get? name with
  | some lock => (m, lock)
  | none => ({ m with taskLocks := m.taskLocks.set name m.nextId, nextId := m.nextId + 1 }, m.nextId)

/-- `task_lock.locked()` -/
def Manager.locked (m : Manager) (lock : ℕ) : Bool := m.executions.values.any fun e => e.phase = .running lock

/-- what ends a runner, or an execution by the scheduler -/
def Manager.leave (m : Manager) (id : ℕ) (e : Execution) : Manager :=
  let m := m.setPhase id e .done
  if e.job then m else { m with activeTasks := m.activeTasks.erase e.name }

/-- `_execute_handler`, up to the handler -/
def Manager.executeHandler (m : Manager) (id : ℕ) (e : Execution) : Manager :=
  let (m, lock) := m.lockOf e.name
  if m.locked lock then m.leave id e else m.setPhase id e (.running lock)

/-- the end of `_register_definition`, when the definition is stored -/
def Manager.activate (m : Manager) (d : Definition) : Manager :=
  if m.started && d.enabled then
    let m := if d.scheduled then m.schedule d.name else m
    if d.runOnStartup then (m.runAsTask d.name).getD m else m
  else m

/-! ## One execution at a time -/

def Exclusive (m : Manager) : Prop :=
  ∀ id id' x x' l l', m.executions.get? id = some x → m.executions.get? id' = some x' → x.phase = .running l →
    x'.phase = .running l' → x.name = x'.name → id = id'

/-- every execution has ended, but for those listed -/
def AllDone (m : Manager) (except : List ℕ) : Prop :=
  ∀ id x, m.executions.get? id = some x → id ∉ except → x.phase = .done

instance (m : Manager) (except : List ℕ) : Decidable (AllDone m except) :=
  decidable_of_iff (∀ e ∈ m.executions.entries, e.1 ∉ except → e.2.phase = .done)
    ⟨fun h id x hx => h (id, x) ((get?_eq_some_iff _ _ _).1 hx),
      fun h e he => h e.1 e.2 ((get?_eq_some_iff _ _ _).2 he)⟩

/-- the tasks that a call of `stop` has waited for, when the event is its return -/
def waitedFor (m : Manager) : Event → Option (List ℕ)
  | .stop => if m.started ∧ m.activeTasks.values ≠ [] then none else some []
  | .stopReturns waited => some waited
  | _ => none

/-- a `stop` that returns finds every execution at its end but for those it has waited for -/
def Quiet (m : Manager) (e : Event) : Prop := ∀ waited ∈ waitedFor m e, AllDone m waited

instance (m : Manager) (e : Event) : Decidable (Quiet m e) :=
  inferInstanceAs (Decidable (∀ waited ∈ waitedFor m e, AllDone m waited))

structure Inv (m : Manager) : Prop where
  fresh : ∀ id x, m.executions.get? id = some x → id < m.nextId
  held : ∀ id x l, m.executions.get? id = some x → x.phase = .running l → m.taskLocks.get? x.name = some l
  exclusive : Exclusive m

theorem inv_init : Inv init where
  fresh _ _ h := by cases h
  held _ _ _ h := by cases h
  exclusive _ _ _ _ _ _ h := by cases h

variable {m m' : Manager}

/-- a state with the same executions and locks -/
theorem Inv.congr (h : Inv m) (hexecutions : m'.executions = m.executions) (hlocks : m'.taskLocks = m.taskLocks)
    (hnext : m.nextId ≤ m'.nextId) : Inv m' where
  fresh id x hx := by
    rw [hexecutions] at hx
    exact (h.fresh id x hx).trans_le hnext
  held id x l hx hl := by
    rw [hexecutions] at hx
    rw [hlocks]
    exact h.held id x l hx hl
  exclusive id id' x x' l l' hx hx' := by
    rw [hexecutions] at hx hx'
    exact h.exclusive id id' x x' l l' hx hx'

/-- an execution is created or ends -/
theorem Inv.set (h : Inv m) {id : ℕ} {e : Execution} (he : ∀ l, e.phase ≠ .running l) {next : ℕ} (hid : id < next)
    (hnext : m.nextId ≤ next) : Inv { m with executions := m.executions.set id e, nextId := next } where
  fresh id' x hx := by
    rw [get?_set] at hx
    by_cases heq : id' = id
    · rw [heq]
      exact hid
    · rw [if_neg heq] at hx
      exact (h.fresh id' x hx).trans_le hnext
  held id' x l hx hl := by
    rw [get?_set] at hx
    by_cases heq : id' = id
    · rw [if_pos heq] at hx
      cases hx
      exact absurd hl (he l)
    · rw [if_neg heq] at hx
      exact h.held id' x l hx hl
  exclusive id₁ id₂ x₁ x₂ l₁ l₂ h₁ h₂ hl₁ hl₂ := by
    rw [get?_set] at h₁ h₂
    by_cases heq₁ : id₁ = id
    · rw [if_pos heq₁] at h₁
      cases h₁
      exact absurd hl₁ (he l₁)
    · by_cases heq₂ : id₂ = id
      · rw [if_pos heq₂] at h₂
        cases h₂
        exact absurd hl₂ (he l₂)
      · rw [if_neg heq₁] at h₁
        rw [if_neg heq₂] at h₂
        exact h.exclusive id₁ id₂ x₁ x₂ l₁ l₂ h₁ h₂ hl₁ hl₂

theorem Inv.create (h : Inv m) (name : String) (job : Bool) : Inv (m.create name job) :=
  h.set (by simp) (Nat.lt_succ_self _) (Nat.le_succ _)

theorem Inv.runAsTask (h : Inv m) {name : String} (hm' : m.runAsTask name = some m') : Inv m' := by
  unfold Manager.runAsTask at hm'
  split at hm'
  · split_ifs at hm'
    cases hm'
    exact (h.create name false).congr rfl rfl le_rfl
  · cases hm'
    exact (h.create name false).congr rfl rfl le_rfl

theorem Inv.schedule (h : Inv m) (name : String) : Inv (m.schedule name) := h.congr rfl rfl le_rfl

theorem Inv.runStartup (h : Inv m) (ds : List Definition) : Inv (m.runStartup ds) := by
  induction ds generalizing m with
  | nil => exact h
  | cons d ds ih =>
    unfold Manager.runStartup
    split
    · rename_i hm'
      exact ih (h.runAsTask hm')
    · exact h

theorem Inv.foldl_schedule (h : Inv m) (ds : List Definition) :
    Inv (ds.foldl (fun m d => m.schedule d.name) m) := by
  induction ds generalizing m with
  | nil => exact h
  | cons d ds ih => exact ih (h.schedule d.name)

theorem Inv.start (h : Inv m) : Inv m.start := by
  unfold Manager.start
  split
  · exact h
  · apply Inv.runStartup
    exact (h.foldl_schedule _).congr rfl rfl le_rfl

theorem Inv.activate (h : Inv m) (d : Definition) : Inv (m.activate d) := by
  have hschedule : Inv (if d.scheduled then m.schedule d.name else m) := by
    split
    · exact h.schedule d.name
    · exact h
  unfold Manager.activate
  split
  · dsimp only
    split
    · cases hrun : (if d.scheduled then m.schedule d.name else m).runAsTask d.name with
      | none => exact hschedule
      | some m' => exact hschedule.runAsTask hrun
    · exact hschedule
  · exact h

/-- an execution ends -/
theorem Inv.leave (h : Inv m) {id : ℕ} {e : Execution} (he : m.executions.get? id = some e) (x : Execution) :
    Inv (m.leave id x) := by
  have hset : Inv (m.setPhase id x .done) := h.set (by simp) (h.fresh id e he) le_rfl
  unfold Manager.leave
  split
  · exact hset
  · exact hset.congr rfl rfl le_rfl

theorem lockOf_executions (name : String) : (m.lockOf name).1.executions = m.executions := by
  unfold Manager.lockOf
  split <;> rfl

theorem lockOf_taskLocks (name : String) : (m.lockOf name).1.taskLocks.get? name = some (m.lockOf name).2 := by
  unfold Manager.lockOf
  split
  · rename_i lock hlock
    exact hlock
  · exact get?_set_self _ _ _

theorem Inv.lockOf (h : Inv m) (name : String) : Inv (m.lockOf name).1 := by
  unfold Manager.lockOf
  split
  · exact h
  · rename_i hnone
    exact
      { fresh := fun id x hx => (h.fresh id x hx).trans (Nat.lt_succ_self _)
        held := by
          intro id x l hx hl
          have hlock := h.held id x l hx hl
          have hne : x.name ≠ name := by
            intro hname
            rw [hname, hnone] at hlock
            cases hlock
          exact (get?_set_of_ne _ _ hne).trans hlock
        exclusive := h.exclusive }

/-- a handler begins under the lock of its name, or is skipped -/
theorem Inv.executeHandler (h : Inv m) {id : ℕ} {e : Execution} (he : m.executions.get? id = some e) :
    Inv (m.executeHandler id e) := by
  have hlock := lockOf_taskLocks (m := m) e.name
  have hinv := h.lockOf e.name
  rw [← lockOf_executions (m := m) e.name] at he
  unfold Manager.executeHandler
  generalize m.lockOf e.name = found at hlock hinv he ⊢
  obtain ⟨m₁, lock⟩ := found
  dsimp only at hlock hinv he ⊢
  split
  · exact hinv.leave he e
  · rename_i hfree
    -- whoever runs under the name holds its lock, which is free
    have hnone : ∀ id' x l, m₁.executions.get? id' = some x → x.phase = .running l → x.name ≠ e.name := by
      intro id' x l hx hl hname
      have hheld := hinv.held id' x l hx hl
      rw [hname, hlock] at hheld
      cases hheld
      refine hfree (any_eq_true.2 ⟨x, (mem_values _ _).2 ⟨id', hx⟩, ?_⟩)
      exact decide_eq_true hl
    have hget : ∀ id' x, (m₁.setPhase id e (.running lock)).executions.get? id' = some x →
        id' = id ∧ x = { e with phase := .running lock } ∨ id' ≠ id ∧ m₁.executions.get? id' = some x := by
      intro id' x hx
      change (m₁.executions.set id _).get? id' = some x at hx
      rw [get?_set] at hx
      by_cases heq : id' = id
      · rw [if_pos heq] at hx
        exact .inl ⟨heq, (Option.some.inj hx).symm⟩
      · rw [if_neg heq] at hx
        exact .inr ⟨heq, hx⟩
    exact
      { fresh := by
          intro id' x hx
          rcases hget id' x hx with ⟨rfl, -⟩ | ⟨-, hx⟩
          · exact hinv.fresh id' e he
          · exact hinv.fresh id' x hx
        held := by
          intro id' x l hx hl
          rcases hget id' x hx with ⟨-, rfl⟩ | ⟨-, hx⟩
          · cases hl
            exact hlock
          · exact hinv.held id' x l hx hl
        exclusive := by
          intro id₁ id₂ x₁ x₂ l₁ l₂ h₁ h₂ hl₁ hl₂ hname
          rcases hget id₁ x₁ h₁ with ⟨rfl, rfl⟩ | ⟨-, h₁⟩
          · rcases hget id₂ x₂ h₂ with ⟨rfl, -⟩ | ⟨-, h₂⟩
            · rfl
            · exact absurd hname.symm (hnone id₂ x₂ l₂ h₂ hl₂)
          · rcases hget id₂ x₂ h₂ with ⟨-, rfl⟩ | ⟨-, h₂⟩
            · exact absurd hname (hnone id₁ x₁ l₁ h₁ hl₁)
            · exact hinv.exclusive id₁ id₂ x₁ x₂ l₁ l₂ h₁ h₂ hl₁ hl₂ hname }

theorem finishStop_executions : m.finishStop.executions = m.executions := by
  unfold Manager.finishStop
  dsimp only
  split <;> rfl

/-- `stop` forgets the locks when nothing is running -/
theorem Inv.finishStop (h : Inv m) (hdone : AllDone m []) : Inv m.finishStop := by
  have hnext : m.finishStop.nextId = m.nextId := by
    unfold Manager.finishStop
    dsimp only
    split <;> rfl
  have hnone : ∀ id x l, m.executions.get? id = some x → x.phase ≠ .running l := by
    intro id x l hx hl
    rw [hdone id x hx not_mem_nil] at hl
    cases hl
  exact
    { fresh := by
        rw [finishStop_executions, hnext]
        exact h.fresh
      held := by
        rw [finishStop_executions]
        exact fun id x l hx hl => absurd hl (hnone id x l hx)
      exclusive := by
        unfold Exclusive
        rw [finishStop_executions]
        exact h.exclusive }

/-- what a stop that returns has waited for has ended -/
theorem allDone_of_waited {waited : List ℕ} (hdone : AllDone m waited) (hwaited : waited.all m.isDone = true) :
    AllDone m [] := by
  intro id x hx _
  by_cases hid : id ∈ waited
  · have hphase := all_eq_true.1 hwaited id hid
    rw [Manager.isDone, hx] at hphase
    exact of_decide_eq_true hphase
  · exact hdone id x hx hid

/-! ## Runs -/

section Text

variable [PyText]

/-- `_register_definition`; nothing where it raises before it has stored the definition -/
def Manager.register (m : Manager) (d : Definition) : Option Manager :=
  let name := strip d.name
  if m.definitions.any (·.name = name) then none
  else
    let d := { d with name := name }
    some ({ m with definitions := m.definitions ++ [d] }.activate d)

/-- the next stretch of the manager; nothing where the event cannot happen or raises -/
def step (m : Manager) : Event → Option Manager
  | .register d => m.register d
  | .startTask name =>
    let name := strip name
    if name = "" then none else m.runAsTask name
  | .start => some m.start
  | .stop =>
    if !m.started then some m
    else
      let active := m.activeTasks.values
      if active = [] then some m.finishStop else some { m with stops := m.stops ++ [active] }
  | .stopReturns waited =>
    if waited ∈ m.stops ∧ waited.all m.isDone then
      some { m with stops := m.stops.erase waited }.finishStop
    else none
  | .tick name =>
    if m.schedulerRunning ∧ name ∈ m.jobs ∧ m.definitions.any (·.name = name) then some (m.create name true) else none
  | .begins id =>
    match m.executions.get? id with
    | some ⟨name, job, .created⟩ => some (m.executeHandler id ⟨name, job, .created⟩)
    | _ => none
  | .ends id =>
    match m.executions.get? id with
    | some ⟨name, job, .running lock⟩ => some (m.leave id ⟨name, job, .running lock⟩)
    | _ => none
  | .cancelled id =>
    match m.executions.get? id with
    | some ⟨name, job, .created⟩ => some (m.setPhase id ⟨name, job, .created⟩ .done)
    | _ => none

def run (m : Manager) : List Event → Option Manager
  | [] => some m
  | e :: es => (step m e).bind fun m' => run m' es

/-- every `stop` of a run finds it so -/
def QuietRun (m : Manager) : List Event → Prop
  | [] => True
  | e :: es => Quiet m e ∧ ∀ m' ∈ step m e, QuietRun m' es

instance decidableQuietRun (m : Manager) : ∀ es : List Event, Decidable (QuietRun m es)
  | [] => .isTrue trivial
  | e :: es =>
    match h : step m e with
    | none => decidable_of_iff (Quiet m e) (by simp [QuietRun, h])
    | some m' =>
      have := decidableQuietRun m' es
      decidable_of_iff (Quiet m e ∧ QuietRun m' es) (by simp [QuietRun, h])

theorem Inv.step (h : Inv m) {e : Event} (hquiet : Quiet m e) (hm' : step m e = some m') : Inv m' := by
  cases e with
  | register d =>
    unfold BackgroundTasks.step Manager.register at hm'
    dsimp only at hm'
    split_ifs at hm'
    cases hm'
    have hstored : Inv { m with
        definitions := m.definitions ++ [{ d with name := strip d.name }] } := h.congr rfl rfl le_rfl
    exact hstored.activate _
  | startTask name =>
    unfold BackgroundTasks.step at hm'
    dsimp only at hm'
    split_ifs at hm'
    exact h.runAsTask hm'
  | start =>
    cases hm'
    exact h.start
  | stop =>
    unfold BackgroundTasks.step at hm'
    dsimp only at hm'
    split_ifs at hm' with hstarted hactive
    · cases hm'
      exact h
    · cases hm'
      refine h.finishStop (hquiet [] ?_)
      unfold waitedFor
      rw [if_neg fun hboth => hboth.2 hactive]
      rfl
    · cases hm'
      exact h.congr rfl rfl le_rfl
  | stopReturns waited =>
    unfold BackgroundTasks.step at hm'
    dsimp only at hm'
    split_ifs at hm' with hready
    cases hm'
    have hdone : AllDone m [] := allDone_of_waited (hquiet waited rfl) hready.2
    have hfewer : Inv { m with stops := m.stops.erase waited } := h.congr rfl rfl le_rfl
    exact hfewer.finishStop hdone
  | tick name =>
    unfold BackgroundTasks.step at hm'
    dsimp only at hm'
    split_ifs at hm'
    cases hm'
    exact h.create name true
  | begins id =>
    unfold BackgroundTasks.step at hm'
    dsimp only at hm'
    split at hm'
    · rename_i name job hid
      cases hm'
      exact h.executeHandler hid
    · cases hm'
  | ends id =>
    unfold BackgroundTasks.step at hm'
    dsimp only at hm'
    split at hm'
    · rename_i name job lock hid
      cases hm'
      exact h.leave hid _
    · cases hm'
  | cancelled id =>
    unfold BackgroundTasks.step at hm'
    dsimp only at hm'
    split at hm'
    · rename_i name job hid
      cases hm'
      exact h.set (by simp) (h.fresh id _ hid) le_rfl
    · cases hm'

/-- **Nothing is running when `stop` returns**, if nothing but what it has waited for is running before. -/
theorem allDone_of_returns {e : Event} {waited : List ℕ} (hreturns : waited ∈ waitedFor m e)
    (hm' : step m e = some m') : AllDone m' [] ↔ AllDone m waited := by
  cases e with
  | stop =>
    have hwaits : ¬(m.started = true ∧ m.activeTasks.values ≠ []) := by
      intro hwaits
      rw [waitedFor, if_pos hwaits] at hreturns
      cases hreturns
    rw [waitedFor, if_neg hwaits] at hreturns
    cases hreturns
    unfold BackgroundTasks.step at hm'
    dsimp only at hm'
    split_ifs at hm' with hstarted hactive
    · cases hm'
      rfl
    · cases hm'
      unfold AllDone
      rw [finishStop_executions]
    · refine absurd ⟨?_, hactive⟩ hwaits
      simpa using hstarted
  | stopReturns waited' =>
    cases hreturns
    unfold BackgroundTasks.step at hm'
    dsimp only at hm'
    split_ifs at hm' with hready
    cases hm'
    have hsame : AllDone ({ m with stops := m.stops.erase waited }.finishStop) [] ↔ AllDone m [] := by
      unfold AllDone
      rw [finishStop_executions]
    rw [hsame]
    constructor
    · exact fun hdone id x hx _ => hdone id x hx not_mem_nil
    · exact fun hdone => allDone_of_waited hdone hready.2
  | register d => cases hreturns
  | startTask name => cases hreturns
  | start => cases hreturns
  | tick name => cases hreturns
  | begins id => cases hreturns
  | ends id => cases hreturns
  | cancelled id => cases hreturns

theorem run_append (m : Manager) (es es' : List Event) :
    run m (es ++ es') = (run m es).bind fun m' => run m' es' := by
  induction es generalizing m with
  | nil => rfl
  | cons e es ih =>
    rw [cons_append, run, run, bind_assoc]
    exact congrArg _ (funext ih)

theorem Inv.run (h : Inv m) {es : List Event} (hquiet : QuietRun m es) (hm' : run m es = some m') : Inv m' := by
  induction es generalizing m with
  | nil =>
    cases hm'
    exact h
  | cons e es ih =>
    obtain ⟨m₁, hstep, hrest⟩ := bind_eq_some_iff.1 hm'
    exact ih (h.step hquiet.1 hstep) (hquiet.2 m₁ hstep) hrest

theorem QuietRun.after {es later : List Event} (h : QuietRun m (es ++ later)) (hm' : run m es = some m') :
    QuietRun m' later := by
  induction es generalizing m with
  | nil =>
    cases hm'
    exact h
  | cons e es ih =>
    obtain ⟨m₁, hstep, hrest⟩ := bind_eq_some_iff.1 hm'
    exact ih (h.2 m₁ hstep) hrest

/-- nothing is running whenever a `stop` of the run returns -/
def StopsClean (es : List Event) : Prop :=
  ∀ before e after m m' waited, es = before ++ e :: after → run init before = some m → waited ∈ waitedFor m e →
    step m e = some m' → AllDone m' []

end Text

section Ascii

open scoped Ascii

/-- a task that the scheduler runs -/
def syncOrders : Definition := ⟨"sync-orders", .custom, true, false, true⟩

end Ascii

end Langbridge.Runtime.BackgroundTasks
