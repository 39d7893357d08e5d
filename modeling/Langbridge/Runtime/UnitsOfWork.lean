/-
Units of work and the repository proxies (`runtime/persistence/uow.py`, `sql_runtime.py`). The current unit of work is
one context variable for all controllers; a task starts with the value its creator has, and keeps it when the block is
left.
-/
import Langbridge.Core.Dict
import Langbridge.Core.Machine

namespace Langbridge.Runtime.UnitsOfWork

open Core List

/-! ## State -/

/-- the session of a unit of work: open, being closed after the context variable was reset, or closed and its bindings
gone -/
inductive Phase where
  | active
  | closing
  | closed
  deriving DecidableEq

/-- `_ConfiguredRuntimeUnitOfWork` -/
structure UnitOfWork (C : Type) where
  controller : C
  phase : Phase
  deriving DecidableEq

/-- `_RuntimeSessionRepositoryProxy` -/
structure RepositoryProxy (C : Type) where
  controller : C
  repositoryAttr : String
  syncMethods : List String
  writeMethods : List String

/-- what is asked of a proxy: its `_session`, or a method of its repository -/
inductive Access where
  | session
  | method (name : String)

structure ProxyCall (C : Type) where
  proxy : RepositoryProxy C
  access : Access

/-- a method that a task awaits, on the session of a unit of work which may be its own -/
structure RunningCall (C : Type) where
  call : ProxyCall C
  unit : ℕ
  owned : Bool

/-- a task: the `_CONFIGURED_RUNTIME_UOW` of its context, the blocks it has entered with what their tokens restore, the
blocks around its code, which its creator may have entered, and what it awaits; the innermost block is first -/
structure Task (C : Type) where
  current : Option ℕ
  blocks : List (ℕ × Option ℕ)
  scope : List ℕ
  call : Option (RunningCall C)

structure RuntimeState (C : Type) where
  units : List (UnitOfWork C)
  tasks : Dict ℕ (Task C)

/-- what a call does: it takes a session, opens its own, is refused (`RuntimeError`), has the empty session, or finds no
repository (`KeyError`) -/
inductive Choice where
  | on (u : ℕ)
  | own
  | refused
  | nullSession
  | missing

/-- what is seen of the calls; `innermost` is the innermost active unit of work of the call's controller -/
inductive Event (C : Type) where
  | chose (call : ProxyCall C) (innermost : Option ℕ) (choice : Choice)
  | touched (call : ProxyCall C) (unit : UnitOfWork C)
  | returned (call : ProxyCall C) (owned committed : Bool)

inductive Action (C : Type) where
  | spawn (n m : ℕ)
  | enter (n : ℕ) (controller : C)
  | leave (n : ℕ)
  | close (u : ℕ)
  | begin (n : ℕ) (call : ProxyCall C)
  | touch (n : ℕ)
  | finish (n : ℕ) (ok : Bool)

/-- the proxies of `build_sql_runtime_resources` -/
def sqlProxies {C : Type} (controller : C) : List (RepositoryProxy C) :=
  [⟨controller, "dataset_repository", ["add"], ["save", "delete"]⟩,
    ⟨controller, "dataset_column_repository", ["add"], ["delete_for_dataset"]⟩,
    ⟨controller, "dataset_policy_repository", ["add"], ["save"]⟩,
    ⟨controller, "connector_repository", [], []⟩,
    ⟨controller, "semantic_model_repository", [], []⟩,
    ⟨controller, "semantic_vector_index_repository", [], ["save", "delete_for_workspace", "delete"]⟩,
    ⟨controller, "connector_sync_state_repository", ["add"], ["save"]⟩,
    ⟨controller, "dataset_revision_repository", ["add"], []⟩,
    ⟨controller, "lineage_edge_repository", ["add"], ["delete_for_target", "delete_for_node"]⟩,
    ⟨controller, "agent_repository", [], []⟩,
    ⟨controller, "llm_repository", [], []⟩,
    ⟨controller, "thread_repository", ["add"], ["save", "delete"]⟩,
    ⟨controller, "thread_message_repository", ["add"], ["delete"]⟩,
    ⟨controller, "conversation_memory_repository", ["add", "create_item"], ["touch_items"]⟩]

/-- the methods of the repositories that change the database -/
def changes (name : String) : Bool :=
  name ∈ ["add", "save", "delete", "create_item", "touch_items", "delete_for_dataset", "delete_for_workspace",
    "delete_for_target", "delete_for_node"]

namespace ProxyCall

variable {C : Type} (call : ProxyCall C)

/-- a call outside every unit of work -/
def outside : Choice :=
  match call.access with
  | .session => .nullSession
  | .method name => if name ∈ call.proxy.syncMethods then .refused else .own

def writes : Bool :=
  match call.access with
  | .session => false
  | .method name => changes name

/-- the call is committed on a session of its own -/
def commits : Bool :=
  match call.access with
  | .session => false
  | .method name => name ∈ call.proxy.writeMethods

end ProxyCall

section Runs

variable {C : Type} [DecidableEq C]

/-! ## Steps -/

/-- `current_uow` and the proxy's choice, which does not ask for the controller of the unit of work -/
def choose (units : List (UnitOfWork C)) (current : Option ℕ) (call : ProxyCall C) : Choice :=
  match current with
  | some u =>
    match units[u]? with
    | some unit => if unit.phase = .closed then .missing else .on u
    | none => .missing
  | none => call.outside

/-- the innermost active unit of work of a controller in the blocks around some code -/
def innermost (units : List (UnitOfWork C)) (scope : List ℕ) (controller : C) : Option ℕ :=
  scope.find? fun u => units[u]? = some ⟨controller, .active⟩

namespace RuntimeState

variable (s : RuntimeState C)

/-- `__aenter__` -/
def enter (n : ℕ) (task : Task C) (controller : C) (call : Option (RunningCall C)) : RuntimeState C :=
  let u := s.units.length
  ⟨s.units ++ [⟨controller, .active⟩],
    s.tasks.set n ⟨some u, (u, task.current) :: task.blocks, u :: task.scope, call⟩⟩

/-- `__aexit__` up to closing the session -/
def leave (n : ℕ) (task : Task C) : RuntimeState C :=
  match task.blocks with
  | [] => { s with tasks := s.tasks.set n { task with call := none } }
  | (u, old) :: blocks =>
    ⟨s.units.modify u fun unit => { unit with phase := .closing }, s.tasks.set n ⟨old, blocks, task.scope.tail, none⟩⟩

/-- a step of a task that awaits no call -/
def idle (n : ℕ) (f : Task C → RuntimeState C × List (Event C)) : RuntimeState C × List (Event C) :=
  match s.tasks.get? n with
  | some task => if task.call.isNone then f task else (s, [])
  | none => (s, [])

/-- a step of a call that a task awaits -/
def running (n : ℕ) (f : Task C → RunningCall C → RuntimeState C × List (Event C)) : RuntimeState C × List (Event C) :=
  match s.tasks.get? n with
  | some task =>
    match task.call with
    | some r => f task r
    | none => (s, [])
  | none => (s, [])

def begun (n : ℕ) (task : Task C) (call : ProxyCall C) : Choice → RuntimeState C
  | .on u =>
    match call.access with
    | .session => s
    | .method name =>
      if name ∈ call.proxy.syncMethods then s
      else { s with tasks := s.tasks.set n { task with call := some ⟨call, u, false⟩ } }
  | .own => s.enter n task call.proxy.controller (some ⟨call, s.units.length, true⟩)
  | _ => s

def act : Action C → RuntimeState C × List (Event C)
  | .spawn n m => s.idle n fun task =>
      if s.tasks.get? m = none then ({ s with tasks := s.tasks.set m ⟨task.current, [], task.scope, none⟩ }, [])
      else (s, [])
  | .enter n controller => s.idle n fun task => (s.enter n task controller none, [])
  | .leave n => s.idle n fun task => (s.leave n task, [])
  | .close u =>
    (⟨s.units.modify u fun unit => if unit.phase = .closing then { unit with phase := .closed } else unit, s.tasks⟩, [])
  | .begin n call => s.idle n fun task =>
      let choice := choose s.units task.current call
      (s.begun n task call choice, [.chose call (innermost s.units task.scope call.proxy.controller) choice])
  | .touch n => s.running n fun _ r => (s, (s.units[r.unit]?.map (Event.touched r.call)).toList)
  | .finish n ok => s.running n fun task r =>
      (if r.owned then s.leave n task else { s with tasks := s.tasks.set n { task with call := none } },
        if ok then [.returned r.call r.owned r.call.commits] else [])

end RuntimeState

/-- the tasks of a process, one action at a time -/
def process : Machine (RuntimeState C) (Action C) (Event C) where
  step s a := (some (s.act a).1, (s.act a).2)

/-! ## What should be seen -/

/-- a call takes the innermost active unit of work of its controller, or else acts as outside one; it touches an open
session of its controller, and what it writes on its own is committed -/
def Proper : Event C → Prop
  | .chose _ (some u) choice => choice = .on u
  | .chose call none choice => choice = call.outside
  | .touched call unit => unit = ⟨call.proxy.controller, .active⟩
  | .returned call owned committed => owned = true → call.writes = true → committed = true

/-- the innermost block around the code of a call is an active one of its controller; outside every block, a method that
writes is one of the proxy's write methods -/
def BlockAllows (units : List (UnitOfWork C)) (scope : List ℕ) (call : ProxyCall C) : Prop :=
  match scope with
  | u :: _ => units[u]? = some ⟨call.proxy.controller, .active⟩
  | [] => call.outside = .own → call.writes = true → call.commits = true

/-- a call is made where the block around it allows it, and a block is left when no call of another task is on it -/
def Allowed (s : RuntimeState C) : Action C → Prop
  | .begin n call => ∀ task, s.tasks.get? n = some task → BlockAllows s.units task.scope call
  | .leave n => ∀ task u old blocks, s.tasks.get? n = some task → task.blocks = (u, old) :: blocks →
      ∀ m other r, s.tasks.get? m = some other → m ≠ n → other.call = some r → r.unit ≠ u
  | _ => True

/-! ## The blocks of a task -/

/-- the blocks a task has entered are the innermost around its code, and their tokens restore the block around them -/
def BlocksOk : List (ℕ × Option ℕ) → List ℕ → Prop
  | [], _ => True
  | (u, old) :: blocks, scope => ∃ outer, scope = u :: outer ∧ old = outer.head? ∧ BlocksOk blocks outer

structure TaskOk (units : List (UnitOfWork C)) (task : Task C) : Prop where
  current : task.current = task.scope.head?
  blocks : BlocksOk task.blocks task.scope
  bound : ∀ u ∈ task.scope, u < units.length
  running : ∀ r, task.call = some r → task.scope.head? = some r.unit ∧
    units[r.unit]? = some ⟨r.call.proxy.controller, .active⟩
  owned : ∀ r, task.call = some r → r.owned = true →
    (∃ old blocks, task.blocks = (r.unit, old) :: blocks) ∧ (r.call.writes = true → r.call.commits = true)

structure Inv (s : RuntimeState C) : Prop where
  tasks : ∀ n task, s.tasks.get? n = some task → TaskOk s.units task
  /-- a unit of work that a call has opened is its own -/
  owned : ∀ n m task other r, s.tasks.get? n = some task → s.tasks.get? m = some other → m ≠ n → task.call = some r →
    r.owned = true → r.unit ∉ other.scope

omit [DecidableEq C] in
/-- a task whose scope and units stay as they are -/
theorem TaskOk.mono {units units' : List (UnitOfWork C)} {task : Task C} (h : TaskOk units task)
    (hlen : units.length ≤ units'.length)
    (hunits : ∀ r, task.call = some r → units[r.unit]? = some ⟨r.call.proxy.controller, .active⟩ →
      units'[r.unit]? = some ⟨r.call.proxy.controller, .active⟩) : TaskOk units' task :=
  ⟨h.current, h.blocks, fun u hu => (h.bound u hu).trans_le hlen,
    fun r hr => ⟨(h.running r hr).1, hunits r hr (h.running r hr).2⟩, h.owned⟩

omit [DecidableEq C] in
/-- one task changes, and the units of work of the calls of the others stay active -/
theorem Inv.set {s : RuntimeState C} (h : Inv s) {units : List (UnitOfWork C)} {n : ℕ} {task : Task C}
    (hlen : s.units.length ≤ units.length) (hok : TaskOk units task)
    (hunits : ∀ m other r, s.tasks.get? m = some other → m ≠ n → other.call = some r →
      s.units[r.unit]? = some ⟨r.call.proxy.controller, .active⟩ →
      units[r.unit]? = some ⟨r.call.proxy.controller, .active⟩)
    (hscope : ∀ m other r, s.tasks.get? m = some other → m ≠ n → other.call = some r → r.owned = true →
      r.unit ∉ task.scope)
    (hown : ∀ m other r, s.tasks.get? m = some other → m ≠ n → task.call = some r → r.owned = true →
      r.unit ∉ other.scope) : Inv ⟨units, s.tasks.set n task⟩ := by
  constructor
  · intro m other hm
    rw [Dict.get?_set] at hm
    split_ifs at hm with hmn
    · exact Option.some.inj hm ▸ hok
    · exact (h.tasks m other hm).mono hlen fun r hr => hunits m other r hm hmn hr
  · intro m k one other r hm hk hne hr hr'
    rw [Dict.get?_set] at hm hk
    split_ifs at hm hk with hmn hkn hkn
    · exact absurd (hkn.trans hmn.symm) hne
    · cases hm
      exact hown k other r hk hkn hr hr'
    · cases hk
      exact hscope m one r hm hmn hr hr'
    · exact h.owned m k one other r hm hk hne hr hr'

/-! ## Steps keep the invariant -/

section Steps

variable {s : RuntimeState C} {n : ℕ} {task : Task C}

omit [DecidableEq C] in
theorem Inv.enter (h : Inv s) (htask : s.tasks.get? n = some task) (controller : C) (call : Option (RunningCall C))
    (hcall : ∀ r, call = some r → r.unit = s.units.length ∧ r.call.proxy.controller = controller ∧
      (r.call.writes = true → r.call.commits = true)) : Inv (s.enter n task controller call) := by
  have hok := h.tasks n task htask
  have hnew : (s.units ++ [UnitOfWork.mk controller .active])[s.units.length]? = some ⟨controller, .active⟩ := by simp
  refine h.set (by simp) ⟨rfl, ⟨task.scope, rfl, hok.current, hok.blocks⟩, ?_, ?_, ?_⟩ ?_ ?_ ?_
  · intro u hu
    rw [length_append, length_singleton]
    rcases mem_cons.1 hu with rfl | hu
    · exact Nat.lt_succ_self _
    · exact Nat.lt_succ_of_lt (hok.bound u hu)
  · intro r hr
    obtain ⟨hunit, hcontroller, -⟩ := hcall r hr
    rw [hunit, hcontroller]
    exact ⟨rfl, hnew⟩
  · intro r hr _
    obtain ⟨hunit, -, hcommits⟩ := hcall r hr
    rw [hunit]
    exact ⟨⟨_, _, rfl⟩, hcommits⟩
  · intro m other r _ _ _ hactive
    rw [List.getElem?_append_left (List.getElem?_eq_some_iff.1 hactive).1]
    exact hactive
  · intro m other r hm hmn hr howned hmem
    rcases mem_cons.1 hmem with hunit | hmem
    · have hlt := (List.getElem?_eq_some_iff.1 ((h.tasks m other hm).running r hr).2).1
      omega
    · exact h.owned m n other task r hm htask hmn.symm hr howned hmem
  · intro m other r hm _ hr _ hmem
    have hlt := (h.tasks m other hm).bound _ hmem
    have hunit := (hcall r hr).1
    omega

omit [DecidableEq C] in
theorem Inv.leave (h : Inv s) (htask : s.tasks.get? n = some task)
    (hothers : ∀ u old blocks, task.blocks = (u, old) :: blocks → ∀ m other r, s.tasks.get? m = some other → m ≠ n →
      other.call = some r → r.unit ≠ u) : Inv (s.leave n task) := by
  have hok := h.tasks n task htask
  have hscope : ∀ m other r, s.tasks.get? m = some other → m ≠ n → other.call = some r → r.owned = true →
      r.unit ∉ task.scope := fun m other r hm hmn => h.owned m n other task r hm htask hmn.symm
  cases hblocks : task.blocks with
  | nil =>
    rw [RuntimeState.leave, hblocks]
    refine h.set le_rfl ⟨hok.current, trivial, hok.bound, ?_, ?_⟩ (fun _ _ _ _ _ _ h => h) hscope ?_
    all_goals
      intros
      contradiction
  | cons block blocks =>
    obtain ⟨u, old⟩ := block
    rw [RuntimeState.leave, hblocks]
    have hb := hok.blocks
    rw [hblocks] at hb
    obtain ⟨outer, houter, hold, hrest⟩ := hb
    refine h.set (by simp) ⟨?_, ?_, ?_, ?_, ?_⟩ ?_ ?_ ?_
    · rw [houter]
      exact hold
    · rw [houter]
      exact hrest
    · intro v hv
      rw [length_modify]
      exact hok.bound v (mem_of_mem_tail hv)
    · intro r hr
      cases hr
    · intro r hr
      cases hr
    · intro m other r hm hmn hr hactive
      rw [getElem?_modify_ne _ _ (hothers u old blocks hblocks m other r hm hmn hr).symm]
      exact hactive
    · exact fun m other r hm hmn hr howned hmem => hscope m other r hm hmn hr howned (mem_of_mem_tail hmem)
    · intro m other r _ _ hr
      cases hr

/-- **The choice of a call** is right exactly if the innermost block around it, if any, is an active one of its
controller. -/
theorem chose_proper_iff {units : List (UnitOfWork C)} (h : TaskOk units task) (call : ProxyCall C) :
    Proper (.chose call (innermost units task.scope call.proxy.controller) (choose units task.current call)) ↔
      ∀ u, task.scope.head? = some u → units[u]? = some ⟨call.proxy.controller, .active⟩ := by
  have hout : ∀ choice, call.outside = choice → choice ≠ .missing ∧ ∀ u, choice ≠ .on u := by
    rintro choice rfl
    rw [ProxyCall.outside]
    split
    · exact ⟨Choice.noConfusion, fun _ => Choice.noConfusion⟩
    · split_ifs <;> exact ⟨Choice.noConfusion, fun _ => Choice.noConfusion⟩
  rw [h.current]
  cases hscope : task.scope with
  | nil =>
    refine iff_of_true ?_ (fun u hu => by cases hu)
    rfl
  | cons u outer =>
    have hlt : u < units.length := h.bound u (by rw [hscope]; exact mem_cons_self)
    rw [head?_cons]
    constructor
    · rintro hproper v hv
      cases hv
      cases hfind : innermost units (u :: outer) call.proxy.controller with
      | none =>
        rw [hfind] at hproper
        have hchoice : choose units (some u) call = call.outside := hproper
        rw [choose, getElem?_eq_getElem hlt] at hchoice
        simp only at hchoice
        split_ifs at hchoice
        · exact absurd rfl (hout _ hchoice.symm).1
        · exact absurd rfl ((hout _ hchoice.symm).2 u)
      | some v =>
        rw [hfind] at hproper
        have hchoice : choose units (some u) call = .on v := hproper
        rw [choose, getElem?_eq_getElem hlt] at hchoice
        simp only at hchoice
        split_ifs at hchoice
        obtain rfl := Choice.on.inj hchoice
        have hactive := find?_some hfind
        exact of_decide_eq_true hactive
    · intro hactive
      have hunit := hactive u rfl
      have hfind : innermost units (u :: outer) call.proxy.controller = some u := by
        rw [innermost, find?_cons_of_pos (by exact decide_eq_true hunit)]
      rw [hfind, choose, hunit]
      rfl

omit [DecidableEq C] in
theorem Inv.begun (h : Inv s) (htask : s.tasks.get? n = some task) (call : ProxyCall C)
    (hallows : BlockAllows s.units task.scope call) : Inv (s.begun n task call (choose s.units task.current call)) := by
  have hok := h.tasks n task htask
  cases hscope : task.scope with
  | nil =>
    have hchoose : choose s.units task.current call = call.outside := by
      rw [hok.current, hscope]
      rfl
    rw [hscope] at hallows
    rw [hchoose]
    cases hout : call.outside with
    | own => exact h.enter htask _ _ fun r hr => Option.some.inj hr ▸ ⟨rfl, rfl, hallows hout⟩
    | on u =>
      rw [ProxyCall.outside] at hout
      split at hout
      · cases hout
      · split_ifs at hout
    | refused => exact h
    | nullSession => exact h
    | missing => exact h
  | cons u outer =>
    rw [hscope] at hallows
    have hunit : s.units[u]? = some ⟨call.proxy.controller, .active⟩ := hallows
    have hchoose : choose s.units task.current call = .on u := by
      rw [hok.current, hscope, head?_cons, choose, hunit]
      rfl
    have hhead : task.scope.head? = some u := by rw [hscope, head?_cons]
    rw [hchoose, RuntimeState.begun]
    split
    · exact h
    · split_ifs
      · exact h
      · refine h.set le_rfl ⟨hok.current, hok.blocks, hok.bound, ?_, ?_⟩ (fun _ _ _ _ _ _ h => h) ?_ ?_
        · rintro r hr
          cases hr
          exact ⟨hhead, hunit⟩
        · rintro r hr howned
          cases hr
          cases howned
        · exact fun m other r hm hmn => h.owned m n other task r hm htask hmn.symm
        · rintro m other r - - hr howned
          cases hr
          cases howned

omit [DecidableEq C] in
theorem idle_cases (f : Task C → RuntimeState C × List (Event C)) :
    s.idle n f = (s, []) ∨ ∃ task, s.tasks.get? n = some task ∧ task.call = none ∧ s.idle n f = f task := by
  rw [RuntimeState.idle]
  cases htask : s.tasks.get? n with
  | none => exact .inl rfl
  | some task =>
    cases hcall : task.call with
    | none => exact .inr ⟨task, rfl, hcall, by simp [hcall]⟩
    | some r => exact .inl (by simp [hcall])

omit [DecidableEq C] in
theorem running_cases (f : Task C → RunningCall C → RuntimeState C × List (Event C)) :
    s.running n f = (s, []) ∨
      ∃ task r, s.tasks.get? n = some task ∧ task.call = some r ∧ s.running n f = f task r := by
  rw [RuntimeState.running]
  cases htask : s.tasks.get? n with
  | none => exact .inl rfl
  | some task =>
    cases hcall : task.call with
    | none => exact .inl (by simp [hcall])
    | some r => exact .inr ⟨task, r, rfl, hcall, by simp [hcall]⟩

/-- **One step.** What is allowed keeps the invariant. -/
theorem act_inv (h : Inv s) (a : Action C) (hallowed : Allowed s a) : Inv (s.act a).1 := by
  cases a with
  | spawn n m =>
    rw [RuntimeState.act]
    rcases idle_cases (s := s) (n := n) _ with heq | ⟨task, htask, hidle, heq⟩
    · rw [heq]
      exact h
    · rw [heq]
      have hok := h.tasks n task htask
      split_ifs with hm
      · refine h.set le_rfl ⟨hok.current, trivial, hok.bound, ?_, ?_⟩ (fun _ _ _ _ _ _ h => h) ?_ ?_
        · intro r hr
          cases hr
        · intro r hr
          cases hr
        · intro k other r hk _ hr howned
          refine h.owned k n other task r hk htask ?_ hr howned
          rintro rfl
          rw [htask] at hk
          rw [← Option.some.inj hk, hidle] at hr
          cases hr
        · intro k other r _ _ hr
          cases hr
      · exact h
  | enter n controller =>
    rw [RuntimeState.act]
    rcases idle_cases (s := s) (n := n) _ with heq | ⟨task, htask, -, heq⟩
    · rw [heq]
      exact h
    · rw [heq]
      exact h.enter htask controller none fun r hr => by cases hr
  | leave n =>
    rw [RuntimeState.act]
    rcases idle_cases (s := s) (n := n) _ with heq | ⟨task, htask, -, heq⟩
    · rw [heq]
      exact h
    · rw [heq]
      exact h.leave htask fun u old blocks hblocks => hallowed task u old blocks htask hblocks
  | close u =>
    change Inv ⟨s.units.modify u _, s.tasks⟩
    refine ⟨fun m task hm => (h.tasks m task hm).mono (by simp) fun r _ hactive => ?_, h.owned⟩
    by_cases hu : u = r.unit
    · subst hu
      rw [getElem?_modify_eq, hactive]
      rfl
    · rw [getElem?_modify_ne _ _ hu]
      exact hactive
  | begin n call =>
    rw [RuntimeState.act]
    rcases idle_cases (s := s) (n := n) _ with heq | ⟨task, htask, -, heq⟩
    · rw [heq]
      exact h
    · rw [heq]
      exact h.begun htask call (hallowed task htask)
  | touch n =>
    rw [RuntimeState.act]
    rcases running_cases (s := s) (n := n) _ with heq | ⟨task, r, -, -, heq⟩ <;>
    · rw [heq]
      exact h
  | finish n ok =>
    rw [RuntimeState.act]
    rcases running_cases (s := s) (n := n) _ with heq | ⟨task, r, htask, hr, heq⟩
    · rw [heq]
      exact h
    · rw [heq]
      have hok := h.tasks n task htask
      dsimp only
      split_ifs with howned
      -- nobody else has the unit of work that the call has opened
      · refine h.leave htask fun u old blocks hblocks m other r' hm hmn hr' => ?_
        obtain ⟨old', blocks', hblocks'⟩ := (hok.owned r hr howned).1
        rw [hblocks] at hblocks'
        obtain rfl : u = r.unit := (Prod.mk.inj (List.cons.inj hblocks').1).1
        intro hunit
        refine h.owned n m task other r htask hm hmn hr howned ?_
        rw [← hunit]
        exact mem_of_mem_head? (((h.tasks m other hm).running r' hr').1)
      · refine h.set le_rfl ⟨hok.current, hok.blocks, hok.bound, ?_, ?_⟩ (fun _ _ _ _ _ _ h => h) ?_ ?_
        · intro r' hr'
          cases hr'
        · intro r' hr'
          cases hr'
        · exact fun m other r' hm hmn => h.owned m n other task r' hm htask hmn.symm
        · intro m other r' _ _ hr'
          cases hr'

/-- what is seen of an allowed step is proper -/
theorem act_proper (h : Inv s) (a : Action C) (hallowed : Allowed s a) : ∀ e ∈ (s.act a).2, Proper e := by
  have hskip : ∀ e ∈ (s, ([] : List (Event C))).2, Proper e := fun e he => by cases he
  cases a with
  | begin n call =>
    rw [RuntimeState.act]
    rcases idle_cases (s := s) (n := n) _ with heq | ⟨task, htask, -, heq⟩
    · rw [heq]
      exact hskip
    · rw [heq]
      intro e he
      obtain rfl := mem_singleton.1 he
      refine (chose_proper_iff (h.tasks n task htask) call).2 fun u hu => ?_
      have hallows := hallowed task htask
      cases hscope : task.scope with
      | nil =>
        rw [hscope] at hu
        cases hu
      | cons v outer =>
        rw [hscope] at hu hallows
        cases hu
        exact hallows
  | touch n =>
    rw [RuntimeState.act]
    rcases running_cases (s := s) (n := n) _ with heq | ⟨task, r, htask, hr, heq⟩
    · rw [heq]
      exact hskip
    · rw [heq]
      intro e he
      have hunit := ((h.tasks n task htask).running r hr).2
      rw [hunit] at he
      obtain rfl := mem_singleton.1 he
      rfl
  | finish n ok =>
    rw [RuntimeState.act]
    rcases running_cases (s := s) (n := n) _ with heq | ⟨task, r, htask, hr, heq⟩
    · rw [heq]
      exact hskip
    · rw [heq]
      intro e he
      simp only at he
      split_ifs at he
      · obtain rfl := mem_singleton.1 he
        exact fun howned => ((h.tasks n task htask).owned r hr howned).2
      · cases he
  | close u => exact hskip
  | spawn n m =>
    rw [RuntimeState.act]
    rcases idle_cases (s := s) (n := n) _ with heq | ⟨task, -, -, heq⟩
    · rw [heq]
      exact hskip
    · rw [heq]
      split_ifs <;> exact hskip
  | enter n controller =>
    rw [RuntimeState.act]
    rcases idle_cases (s := s) (n := n) _ with heq | ⟨task, -, -, heq⟩ <;>
    · rw [heq]
      exact hskip
  | leave n =>
    rw [RuntimeState.act]
    rcases idle_cases (s := s) (n := n) _ with heq | ⟨task, -, -, heq⟩ <;>
    · rw [heq]
      exact hskip

end Steps

/-! ## Runs -/

/-- a process before it has entered a unit of work -/
structure Initial (s : RuntimeState C) : Prop where
  units : s.units = []
  tasks : ∀ n task, s.tasks.get? n = some task → task = ⟨none, [], [], none⟩

omit [DecidableEq C] in
theorem Initial.inv {s : RuntimeState C} (h : Initial s) : Inv s := by
  constructor
  · intro n task hn
    obtain rfl := h.tasks n task hn
    refine ⟨rfl, trivial, fun u hu => (not_mem_nil hu).elim, ?_, ?_⟩
    all_goals
      intro r hr
      cases hr
  · intro n m task other r hn _ _ hr
    obtain rfl := h.tasks n task hn
    cases hr

/-- **Proxy calls.** In every run that calls a proxy only where the innermost block around the code is an active one of
the proxy's controller, or where there is none, and that leaves no block with a call on it, every call runs on the
session that it should. -/
theorem calls_stand {s s' : RuntimeState C} {acts : List (Action C)} {out : List (Event C)} (h : Initial s)
    (hallowed : process.Along Allowed s acts) (hrun : process.run s acts = (some s', out)) : ∀ e ∈ out, Proper e := by
  have hout : ∀ e ∈ (process.run s acts).2, Proper e :=
    hallowed.run_out (P := Inv) (fun s a s' h hallowed hstep => Option.some.inj hstep ▸ act_inv h a hallowed)
      (fun s a h hallowed => act_proper h a hallowed) h.inv
  rwa [hrun] at hout

end Runs

/-! ## Two runtimes -/

section Nested

/-- one task, outside every unit of work -/
def oneTask : RuntimeState ℕ := ⟨[], Dict.ofList [(0, ⟨none, [], [], none⟩)]⟩

theorem oneTask_initial : Initial oneTask := by
  refine ⟨rfl, fun n task hn => ?_⟩
  rw [oneTask, Dict.ofList, foldl_cons, foldl_nil, Dict.get?_set] at hn
  split_ifs at hn
  · exact (Option.some.inj hn).symm
  · cases hn

/-- `save` on the dataset repository of a controller -/
def saveDataset (controller : ℕ) : ProxyCall ℕ :=
  ⟨(sqlProxies controller).head (by simp [sqlProxies]), .method "save"⟩

/-- a dataset is saved in a unit of work of its own, and then in one that the task has entered -/
def twoSaves : List (Action ℕ) :=
  [.begin 0 (saveDataset 0), .touch 0, .finish 0 true, .enter 0 0, .begin 0 (saveDataset 0), .touch 0, .finish 0 true]

theorem twoSaves_stand : (process.run oneTask twoSaves).2.length = 6 ∧
    ∀ e ∈ (process.run oneTask twoSaves).2, Proper e := by
  obtain ⟨s', hrun⟩ : ∃ s', process.run oneTask twoSaves = (some s', (process.run oneTask twoSaves).2) := ⟨_, rfl⟩
  refine ⟨rfl, calls_stand oneTask_initial ?_ hrun⟩
  refine ⟨fun task htask => ?_, fun s₁ h₁ => ⟨trivial, fun s₂ h₂ => ⟨trivial, fun s₃ h₃ => ⟨trivial, fun s₄ h₄ =>
    ⟨fun task htask => ?_, fun s₅ h₅ => ⟨trivial, fun s₆ h₆ => ⟨trivial, fun s₇ h₇ => trivial⟩⟩⟩⟩⟩⟩⟩
  · cases htask
    exact fun _ _ => rfl
  · cases h₁
    cases h₂
    cases h₃
    cases h₄
    cases htask
    rfl

/-- **Two runtimes, nested**: in a unit of work of the runtime 1 inside one of the runtime 0, a dataset of the runtime 0
is saved on the session of the runtime 1. -/
theorem nested_runtimes : ∃ s' call, process.run oneTask
      [.enter 0 0, .enter 0 1, .begin 0 (saveDataset 0), .touch 0, .finish 0 true] =
        (some s', [.chose (saveDataset 0) (some 0) (.on 1), .touched (saveDataset 0) ⟨1, .active⟩, call]) ∧
      ¬ Proper (.touched (saveDataset 0) ⟨1, .active⟩) := by
  refine ⟨_, _, rfl, fun h => ?_⟩
  have hcontroller := congrArg UnitOfWork.controller h
  exact absurd hcontroller (by decide)

end Nested

end Langbridge.Runtime.UnitsOfWork
