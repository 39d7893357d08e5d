/-
How the runs of the scheduler end (`Scheduler.lean`), over every order in which attempts end.

`gather` does not cancel the other stages of a batch when one fails: they stay in flight after the run has raised.

Main results: `scheduler_runs`, `quiet_after_raise`, `at_most_parallel`, `runs_agree`.
-/
import Langbridge.Federation.SchedulerInvariant

namespace Langbridge.Federation.Scheduler

open Core List Dict Option

variable {parallelism : ℕ} {outcome : Outcomes} {stages : List Stage} {s s' : State}

/-! ## The end of a run -/

structure Ends (s : State) : Prop where
  busy : s.phase = .running → s.failure = none → s.flight ≠ [] ∨ s.results ≠ []
  returned : s.phase = .returned → s.remaining.entries = [] ∧ s.flight = []
  unresolved : ∀ text, s.phase = .raised (.unresolved text) → s.remaining.entries ≠ [] ∧ ready s = [] ∧ s.flight = []
  failed : ∀ stageId, s.phase = .raised (.stage stageId) → s.failure = some stageId

variable {t : Task}

theorem Ends.endAttempt (h : Ends s) (ht : t ∈ s.flight) : Ends (endAttempt outcome s t) := by
  have hbusy : s.flight ≠ [] := ne_nil_of_mem ht
  unfold Scheduler.endAttempt
  split
  · exact
      { busy := fun _ _ => .inr (append_ne_nil_of_right_ne_nil _ (cons_ne_nil _ _))
        returned := fun hphase => absurd (h.returned hphase).2 hbusy
        unresolved := fun text hphase => absurd (h.unresolved text hphase).2.2 hbusy
        failed := h.failed }
  split
  · exact
      { busy := fun _ hfailure => absurd hfailure (some_ne_none _)
        returned := fun hphase => absurd (h.returned hphase).2 hbusy
        unresolved := fun text hphase => absurd (h.unresolved text hphase).2.2 hbusy
        failed := by
          intro stageId hphase
          change some (s.failure.getD t.stageId) = some stageId
          rw [h.failed stageId hphase, getD_some] }
  · exact
      { busy := fun _ _ => .inl fun hflight => hbusy (map_eq_nil_iff.1 hflight)
        returned := fun hphase => absurd (h.returned hphase).2 hbusy
        unresolved := fun text hphase => absurd (h.unresolved text hphase).2.2 hbusy
        failed := h.failed }

/-- a batch is begun -/
theorem ends_begin (hphase : s.phase = .running) {batch : List Stage} (hbatch : batch ≠ [])
    (batches : List (List Stage)) : Ends (begin { s with batches := batches } batch) where
  busy _ _ := .inl fun hflight => hbatch (map_eq_nil_iff.1 hflight)
  returned hreturned := absurd (hphase.symm.trans hreturned) (by decide)
  unresolved _ hraised := absurd (hphase.symm.trans hraised) (by simp)
  failed _ hraised := absurd (hphase.symm.trans hraised) (by simp)

theorem ends_nextRound (hphase : s.phase = .running) (hflight : s.flight = []) : Ends (nextRound parallelism s) := by
  unfold nextRound
  split
  · rename_i hremaining
    exact
      { busy := fun h => by cases h
        returned := fun _ => ⟨hremaining, hflight⟩
        unresolved := fun _ h => by cases h
        failed := fun _ h => by cases h }
  · rename_i hremaining
    have hflatten := flatten_chunk (max 1 parallelism) (le_max_left _ _) (ready s)
    have hfilled := ne_nil_of_mem_chunk (max 1 parallelism) (le_max_left _ _) (ready s)
    split
    · rename_i hchunk
      rw [hchunk] at hflatten
      exact
        { busy := fun h => by cases h
          returned := fun h => by cases h
          unresolved := fun _ _ => ⟨hremaining, hflatten.symm, hflight⟩
          failed := fun _ h => by cases h }
    · rename_i batch batches hchunk
      rw [hchunk] at hfilled
      exact ends_begin hphase (hfilled batch mem_cons_self) batches

theorem ends_nextBatch (hphase : s.phase = .running) (hflight : s.flight = []) (hfilled : ∀ b ∈ s.batches, b ≠ []) :
    Ends (nextBatch parallelism s) := by
  unfold nextBatch
  split
  · exact ends_nextRound hphase hflight
  · rename_i batch batches hbatches
    rw [hbatches] at hfilled
    exact ends_begin hphase (hfilled batch mem_cons_self) batches

variable {e : Event}

theorem Ends.step (h : Ends s) (hinv : Inv outcome stages s)
    (hstep : step parallelism outcome s e = some s') : Ends s' := by
  rcases step_cases hstep with ⟨t, ht, rfl⟩ | ⟨stageId, -, hfailure, rfl⟩ | ⟨hphase, -, hflight, rfl⟩
  · exact h.endAttempt ht
  · exact
      { busy := fun hrunning => by cases hrunning
        returned := fun hreturned => by cases hreturned
        unresolved := fun _ hraised => by cases hraised
        failed := fun id hraised => by
          cases hraised
          exact hfailure }
  · exact ends_nextBatch hphase hflight hinv.filled

variable {es : List Event}

/-- a run keeps what each of its steps keeps -/
theorem run_induction {P : State → Prop} (hP : ∀ s e s', P s → step parallelism outcome s e = some s' → P s') (hs : P s) (hrun : run parallelism outcome s es = some s') : P s' := by
  induction es generalizing s with
  | nil =>
    cases hrun
    exact hs
  | cons e es ih =>
    obtain ⟨s₁, hstep, hrest⟩ := bind_eq_some_iff.1 hrun
    exact ih (hP s e s₁ hs hstep) hrest

theorem run_append (s : State) (es es' : List Event) :
    run parallelism outcome s (es ++ es') = (run parallelism outcome s es).bind fun s' => run parallelism outcome s' es' := by
  induction es generalizing s with
  | nil => rfl
  | cons e es ih =>
    rw [cons_append, run, run, bind_assoc]
    exact congrArg _ (funext ih)

theorem run_inv (hrun : run parallelism outcome (start parallelism stages) es = some s) :
    Inv outcome stages s ∧ Ends s := by
  apply run_induction (P := fun s => Inv outcome stages s ∧ Ends s) _ ⟨inv_start stages, ends_nextRound rfl rfl⟩ hrun
  intro s e s' hs hstep
  exact ⟨hs.1.step hstep, hs.2.step hs.1 hstep⟩

/-- no cycle, no unknown dependency, and every stage succeeds within its attempts -/
def Runnable (outcome : Outcomes) (stages : List Stage) : Prop :=
  Acyclic (dependencies stages) ∧
  (∀ id st, (planned stages).get? id = some st → ∀ d ∈ st.dependencies, ∃ st', (planned stages).get? d = some st') ∧
  ∀ id st, (planned stages).get? id = some st → Succeeds outcome st

theorem runnable_of_returned (h : Inv outcome stages s) (hremaining : s.remaining.entries = []) :
    Runnable outcome stages := by
  have hcompleted : ∀ id st, (planned stages).get? id = some st → id ∈ s.completed := by
    intro id st hst
    rcases h.covered id st hst with hid | hleft
    · exact hid
    · rw [Dict.get?, hremaining] at hleft
      cases hleft
  refine ⟨acyclic_of_dependsFirst _ h.order h.once fun id hid => ?_, fun id st hst d hd => ?_, fun id st hst => ?_⟩
  · cases hst : (planned stages).get? id with
    | none =>
      rw [dependencies, hst] at hid
      exact absurd rfl hid
    | some st => exact hcompleted id st hst
  · have hdeps : d ∈ dependencies stages id := by
      rw [dependencies, hst]
      exact hd
    obtain ⟨before, after, hsplit⟩ := append_of_mem (hcompleted id st hst)
    have hbefore := h.order before id after hsplit d hdeps
    obtain ⟨st', hst', -⟩ := h.done d (by
      rw [hsplit]
      exact mem_append_left _ hbefore)
    exact ⟨st', hst'⟩
  · obtain ⟨st', hst', hsucceeds⟩ := h.done id (hcompleted id st hst)
    rw [hst] at hst'
    cases hst'
    exact hsucceeds

/-- something is ready as long as something is left -/
theorem ready_ne_nil (h : Inv outcome stages s) (hrunnable : Runnable outcome stages)
    (hremaining : s.remaining.entries ≠ []) : ready s ≠ [] := by
  obtain ⟨hacyclic, hknown, -⟩ := hrunnable
  have hkeys : s.remaining.keys ≠ [] := fun hnil => hremaining (map_eq_nil_iff.1 hnil)
  obtain ⟨id, hid, hdeps⟩ := exists_ready (dependencies stages) hacyclic s.remaining.keys hkeys
  obtain ⟨st, hst⟩ := (mem_keys_iff _ _).1 hid
  have hplanned := h.left id st hst
  rw [dependencies, hplanned] at hdeps
  have hready : st ∈ ready s := by
    refine mem_ready.2 ⟨(mem_values _ _).2 ⟨id, hst⟩, fun d hd => ?_⟩
    obtain ⟨st', hst'⟩ := hknown id st hplanned d hd
    rcases h.covered d st' hst' with hcompleted | hleft
    · exact hcompleted
    · exact absurd ((mem_keys_iff _ _).2 ⟨st', hleft⟩) (hdeps d hd)
  exact ne_nil_of_mem hready

theorem returned_iff_runnable (h : Inv outcome stages s) (hends : Ends s) (hphase : s.phase ≠ .running) :
    s.phase = .returned ↔ Runnable outcome stages := by
  constructor
  · exact fun hreturned => runnable_of_returned h (hends.returned hreturned).1
  · intro hrunnable
    cases hp : s.phase with
    | running => exact absurd hp hphase
    | returned => rfl
    | raised e =>
      cases e with
      | unresolved text =>
        obtain ⟨hremaining, hready, -⟩ := hends.unresolved text hp
        exact absurd hready (ready_ne_nil h hrunnable hremaining)
      | stage stageId =>
        obtain ⟨st, hst, hfails⟩ := h.failed stageId (hends.failed stageId hp)
        exact absurd (hrunnable.2.2 _ st hst) hfails

/-! ## The length of a run -/

def isStart : Entry → Bool
  | .started _ _ => true
  | _ => false

def ended : Phase → ℕ
  | .running => 0
  | _ => 1

def spent (s : State) : ℕ := s.log.countP isStart + s.completed.length + ended s.phase

theorem spent_begin (batch : List Stage) (batches : List (List Stage)) :
    spent (begin { s with batches := batches } batch) = spent s + batch.length := by
  have hcount : (batch.map fun st => Entry.started st.stageId 1).countP isStart = batch.length := by
    rw [countP_map]
    exact countP_eq_length.2 fun _ _ => rfl
  unfold spent begin
  simp only [countP_append, hcount]
  omega

theorem spent_nextRound (hphase : s.phase = .running) (hflight : s.flight = []) :
    spent s + (nextRound parallelism s).flight.length ≤ spent (nextRound parallelism s) := by
  unfold nextRound
  split
  · simp only [spent, hflight, length_nil, hphase, ended]
    omega
  split
  · simp only [spent, hflight, length_nil, hphase, ended, countP_append]
    omega
  · rw [spent_begin]
    exact (congrArg (spent s + ·) (length_map _)).le

theorem spent_nextBatch (hphase : s.phase = .running) (hflight : s.flight = []) :
    spent s + (nextBatch parallelism s).flight.length ≤ spent (nextBatch parallelism s) := by
  unfold nextBatch
  split
  · exact spent_nextRound hphase hflight
  · rw [spent_begin]
    exact (congrArg (spent s + ·) (length_map _)).le

theorem spent_collect : spent (collect s) = spent s + s.results.length := by
  have hcount : (s.results.map fun t => Entry.completed t.stageId).countP isStart = 0 := by
    rw [countP_map]
    exact countP_eq_zero.2 fun _ _ => Bool.false_ne_true
  simp only [spent, collect, countP_append, hcount, length_append, length_map]
  omega

theorem spent_endAttempt (h : Inv outcome stages s) (ht : t ∈ s.flight) :
    spent s + (endAttempt outcome s t).flight.length + 1 ≤ spent (endAttempt outcome s t) + s.flight.length := by
  have hlength : s.flight.length = (others s t).length + 1 := (h.flight_perm ht).length_eq
  unfold endAttempt
  split
  · simp only [spent, succeed, countP_append, hlength]
    omega
  split
  · simp only [spent, giveUp, hlength]
    omega
  · simp only [spent, retry, countP_append, length_map, countP_singleton, isStart, if_true]
    omega

theorem spent_step (h : Inv outcome stages s) (hends : Ends s) (hstep : step parallelism outcome s e = some s') :
    spent s + s'.flight.length + 1 ≤ spent s' + s.flight.length := by
  rcases step_cases hstep with ⟨t, ht, rfl⟩ | ⟨stageId, hphase, -, rfl⟩ | ⟨hphase, hfailure, hflight, rfl⟩
  · exact spent_endAttempt h ht
  · simp only [spent, hphase, ended, countP_append]
    omega
  · have hresults : 1 ≤ s.results.length := by
      rcases hends.busy hphase hfailure with hne | hne
      · exact absurd hflight hne
      · exact length_pos_of_ne_nil hne
    have hnext : spent (collect s) + (nextBatch parallelism (collect s)).flight.length ≤
        spent (nextBatch parallelism (collect s)) := spent_nextBatch hphase hflight
    rw [spent_collect] at hnext
    omega

theorem length_le_spent (h : Inv outcome stages s) (hends : Ends s) (hrun : run parallelism outcome s es = some s') :
    spent s + s'.flight.length + es.length ≤ spent s' + s.flight.length := by
  induction es generalizing s with
  | nil =>
    cases hrun
    exact le_rfl
  | cons e es ih =>
    obtain ⟨s₁, hstep, hrest⟩ := bind_eq_some_iff.1 hrun
    have hone := spent_step h hends hstep
    have hmore := ih (h.step hstep) (hends.step h hstep) hrest
    rw [length_cons]
    omega

/-- starts are counted stage by stage -/
theorem countP_isStart_le (ids : List String) (log : List Entry) (hids : ∀ id, id ∉ ids → starts id log = 0) :
    log.countP isStart ≤ (ids.map fun id => starts id log).sum := by
  induction log with
  | nil => exact Nat.zero_le _
  | cons e log ih =>
    have hcons : ∀ id, starts id (e :: log) = starts id log + starts id [e] := by
      intro id
      rw [add_comm]
      exact starts_append id [e] log
    have hsum : (ids.map fun id => starts id (e :: log)).sum =
        (ids.map fun id => starts id log).sum + (ids.map fun id => starts id [e]).sum := by
      rw [← sum_map_add]
      simp only [hcons]
    have hrest := ih fun id hid => by
      have hzero := hids id hid
      rw [hcons] at hzero
      omega
    cases e with
    | started id a =>
      have hone : starts id [Entry.started id a] = 1 := by
        simp [starts]
      have hmem : id ∈ ids := by
        by_contra hid
        have hzero := hids id hid
        rw [hcons, hone] at hzero
        omega
      have hle := single_le_sum (l := ids.map fun id' => starts id' [Entry.started id a])
        (fun _ _ => Nat.zero_le _) _ (mem_map_of_mem hmem)
      rw [countP_cons_of_pos rfl]
      omega
    | wrote _ =>
      rw [countP_cons_of_neg (by simp [isStart])]
      omega
    | completed _ =>
      rw [countP_cons_of_neg (by simp [isStart])]
      omega
    | raised =>
      rw [countP_cons_of_neg (by simp [isStart])]
      omega

/-- the attempts of all stages, their completions and the end of the run -/
def longest (stages : List Stage) : ℕ :=
  ((planned stages).keys.map (attemptsOf stages)).sum + (planned stages).keys.length + 1

theorem spent_le (h : Inv outcome stages s) : spent s ≤ longest stages := by
  have hstarts : s.log.countP isStart ≤ ((planned stages).keys.map (attemptsOf stages)).sum := by
    apply (countP_isStart_le (planned stages).keys s.log fun id hid => ?_).trans
    · exact sum_le_sum fun id _ => h.startsLe id
    · have hle := h.startsLe id
      have hnone : (planned stages).get? id = none := by
        cases hst : (planned stages).get? id with
        | none => rfl
        | some st => exact absurd ((mem_keys_iff _ _).2 ⟨st, hst⟩) hid
      rw [attemptsOf, hnone] at hle
      exact Nat.le_zero.1 hle
  have hcompleted : s.completed.length ≤ (planned stages).keys.length := by
    apply (h.once.subperm fun id hid => ?_).length_le
    obtain ⟨st, hst, -⟩ := h.done id hid
    exact (mem_keys_iff _ _).2 ⟨st, hst⟩
  have hended : ended s.phase ≤ 1 := by
    cases s.phase <;> simp [ended]
  unfold spent longest
  omega

theorem length_le_longest (hrun : run parallelism outcome (start parallelism stages) es = some s) :
    es.length ≤ longest stages := by
  have hinv : Inv outcome stages (start parallelism stages) := inv_start stages
  have hspent := length_le_spent hinv (ends_nextRound rfl rfl) hrun
  have hstart : spent (initial stages) + (start parallelism stages).flight.length ≤ spent (start parallelism stages) :=
    spent_nextRound rfl rfl
  have hlongest := spent_le (run_inv hrun).1
  omega

/-- a running state has a next step -/
theorem exists_step (hphase : s.phase = .running) : ∃ e s', step parallelism outcome s e = some s' := by
  cases hflight : s.flight with
  | nil =>
    refine ⟨.resume, ?_⟩
    rw [step, if_pos hphase, resume]
    cases s.failure with
    | none => exact ⟨_, if_pos hflight⟩
    | some stageId => exact ⟨_, rfl⟩
  | cons t flight =>
    refine ⟨.attemptEnds t.stageId, endAttempt outcome s t, ?_⟩
    simp [step, hflight]

/-- **Runs of the scheduler.** In every state that a run reaches, whatever attempts fail and in whatever order they end:
a stage was started only after the completion of its dependencies, was completed at most once and was started at most
`max(1, retry_limit + 1)` times; a run goes on until it has returned or raised, in a bounded number of events, and it
has returned if and only if the graph has no cycle and no unknown dependency and every stage succeeds within its
attempts. -/
theorem scheduler_runs (parallelism : ℕ) (outcome : Outcomes) (stages : List Stage) (es : List Event) (s : State)
    (hrun : run parallelism outcome (start parallelism stages) es = some s) :
    DependsFirst (needs stages) s.log ∧ (completions s.log).Nodup ∧
      (∀ id, starts id s.log ≤ attemptsOf stages id) ∧
      (s.phase = .running → ∃ e s', step parallelism outcome s e = some s') ∧
      es.length ≤ longest stages ∧
      (s.phase ≠ .running →
        (s.phase = .returned ↔ Runnable outcome stages) ∧ (¬Runnable outcome stages ↔ ∃ e, s.phase = .raised e)) := by
  obtain ⟨hinv, hends⟩ := run_inv hrun
  have honce := hinv.once
  rw [hinv.logged] at honce
  refine ⟨hinv.timely, honce, hinv.startsLe, exists_step, length_le_longest hrun, fun hphase => ?_⟩
  have hiff := returned_iff_runnable hinv hends hphase
  rw [← hiff]
  cases hp : s.phase with
  | running => exact absurd hp hphase
  | returned => simp
  | raised e => simp

/-- a stage and one that needs it, the first of which succeeds at its second attempt -/
theorem scheduler_runs_pair :
    let pair : List Stage := [⟨"join", ["scan"], 0⟩, ⟨"scan", [], 2⟩]
    let outcome : Outcomes := fun id a => id = "join" || a = 2
    let es : List Event := [.attemptEnds "scan", .attemptEnds "scan", .resume, .attemptEnds "join", .resume]
    ∃ s, run 2 outcome (start 2 pair) es = some s ∧ s.phase = .returned ∧ starts "scan" s.log = 2 ∧
      Runnable outcome pair := by
  intro pair outcome es
  have hrun : (run 2 outcome (start 2 pair) es).any (fun s => s.phase = .returned ∧ starts "scan" s.log = 2) = true := by
    decide +kernel
  obtain ⟨s, hs, hboth⟩ := (any_eq_true _ _).1 hrun
  obtain ⟨hphase, hstarts⟩ := of_decide_eq_true hboth
  obtain ⟨-, -, -, -, -, hend⟩ := scheduler_runs 2 outcome pair es s hs
  have hnot : s.phase ≠ .running := by
    rw [hphase]
    decide
  exact ⟨s, hs, hphase, hstarts, (hend hnot).1.1 hphase⟩

/-- a stage without retries, even with a negative limit, is attempted once -/
theorem one_attempt_negative_limit :
    ¬∀ (parallelism : ℕ) (outcome : Outcomes) (stages : List Stage) (es : List Event) (s : State),
      run parallelism outcome (start parallelism stages) es = some s →
      ∀ st ∈ stages, (starts st.stageId s.log : ℤ) ≤ st.retryLimit + 1 := by
  intro hclaim
  have hone := hclaim 1 (fun _ _ => true) [⟨"scan", [], -1⟩] [] _ rfl _ mem_cons_self
  exact absurd hone (by decide)

/-! ## After the run has raised -/

/-- nothing is in flight once the run has raised, and nothing has happened since -/
def Quiet (s : State) : Prop :=
  ∀ e, s.phase = .raised e → s.flight = [] ∧ ∀ before after, s.log = before ++ .raised :: after → after = []

/-- in a batch of which nothing has ended yet, no stage fails for good beside another -/
def Careful (outcome : Outcomes) (s : State) : Prop :=
  s.failure = none → s.results = [] → s.flight.length ≤ 1 ∨ ∀ t ∈ s.flight, Succeeds outcome t.stage

/-- every state of a run -/
def Along (parallelism : ℕ) (outcome : Outcomes) (P : State → Prop) (s : State) : List Event → Prop
  | [] => P s
  | e :: es => P s ∧ ∀ s', step parallelism outcome s e = some s' → Along parallelism outcome P s' es

theorem Along.head {P : State → Prop} (h : Along parallelism outcome P s es) : P s := by
  cases es with
  | nil => exact h
  | cons e es => exact h.1

/-- the stages of the current batch -/
def current (s : State) : List Task := s.flight ++ s.results

/-- what a run keeps as long as no stage fails for good beside another -/
structure Calm (outcome : Outcomes) (s : State) : Prop where
  sound : s.failure = none → (current s).length ≤ 1 ∨ ∀ t ∈ current s, Succeeds outcome t.stage
  alone : s.failure ≠ none → s.flight = []
  silent : (∀ e, s.phase ≠ .raised e) → .raised ∉ s.log
  last : ∀ e, s.phase = .raised e → s.flight = [] ∧ ∃ before, s.log = before ++ [.raised] ∧ .raised ∉ before

theorem Calm.quiet (h : Calm outcome s) : Quiet s := by
  intro e hphase
  obtain ⟨hflight, before, hlog, hbefore⟩ := h.last e hphase
  refine ⟨hflight, fun before' after hsplit => ?_⟩
  rw [hlog] at hsplit
  rcases append_eq_append_iff.1 hsplit with ⟨rest, hstart, hend⟩ | ⟨rest, hstart, hend⟩
  · cases rest with
    | nil => exact (List.cons.inj hend).2.symm
    | cons x rest =>
      rw [cons_append, List.cons.injEq] at hend
      exact absurd hend.2.symm (append_ne_nil_of_right_ne_nil _ (cons_ne_nil _ _))
  · cases rest with
    | nil => exact (List.cons.inj hend).2
    | cons x rest =>
      rw [cons_append, List.cons.injEq] at hend
      exact absurd (hstart ▸ mem_append_right _ (hend.1 ▸ mem_cons_self)) hbefore

theorem Calm.endAttempt (h : Calm outcome s) (hinv : Inv outcome stages s) (ht : t ∈ s.flight) :
    Calm outcome (endAttempt outcome s t) := by
  have hbusy : s.flight ≠ [] := ne_nil_of_mem ht
  have hnone : s.failure = none := by
    by_contra hfailure
    exact hbusy (h.alone hfailure)
  have hphase : ∀ e, s.phase ≠ .raised e := fun e he => hbusy (h.last e he).1
  have hperm := hinv.flight_perm ht
  unfold Scheduler.endAttempt
  split
  · have hcurrent : (current (succeed s t)).Perm (current s) := by
      change (others s t ++ (s.results ++ [t])).Perm (s.flight ++ s.results)
      rw [← append_assoc]
      exact (perm_append_singleton _ _).trans (hperm.symm.append_right s.results)
    exact
      { sound := by
          intro _
          rw [hcurrent.length_eq]
          exact (h.sound hnone).imp_right fun hall t' ht' => hall t' (hcurrent.subset ht')
        alone := fun hfailure => absurd hnone hfailure
        silent := by
          intro _ hmem
          rcases mem_append.1 hmem with hmem | hmem
          · exact h.silent hphase hmem
          · cases mem_singleton.1 hmem
        last := fun e he => absurd he (hphase e) }
  rename_i hfail
  split
  · exact
      { sound := fun hfailure => absurd hfailure (some_ne_none _)
        alone := by
          intro _
          rcases h.sound hnone with hone | hall
          · have hlength := hperm.length_eq
            rw [length_cons] at hlength
            rw [current, length_append] at hone
            apply eq_nil_of_length_eq_zero
            change (others s t).length = 0
            omega
          · -- a stage that succeeds within its attempts does not fail at the last of them
            obtain ⟨a, hpos, hmax, hok⟩ := hall t (mem_append_left _ ht)
            obtain ⟨-, -, hbefore⟩ := hinv.tries t ht
            rcases Nat.lt_or_ge a t.attempt with ha | ha
            · have hno : outcome t.stage.stageId a = false := hbefore a hpos ha
              rw [hno] at hok
              exact absurd hok Bool.false_ne_true
            · obtain rfl : a = t.attempt := by omega
              exact absurd hok hfail
        silent := fun hnot => h.silent hnot
        last := fun e he => absurd he (hphase e) }
  · have hstages : (retry s t).flight.map Task.stage = s.flight.map Task.stage := hinv.retry_stages ht
    have hlength : (current (retry s t)).length = (current s).length := by
      rw [current, current, length_append, length_append]
      exact congrArg (· + s.results.length) (length_map _)
    exact
      { sound := by
          intro _
          rw [hlength]
          refine (h.sound hnone).imp_right fun hall t' ht' => ?_
          rcases mem_append.1 ht' with ht' | ht'
          · have hmem : t'.stage ∈ s.flight.map Task.stage := hstages ▸ mem_map_of_mem ht'
            obtain ⟨t₀, ht₀, hstage⟩ := mem_map.1 hmem
            rw [← hstage]
            exact hall t₀ (mem_append_left _ ht₀)
          · exact hall t' (mem_append_right _ ht')
        alone := fun hfailure => absurd hnone hfailure
        silent := by
          intro _ hmem
          rcases mem_append.1 hmem with hmem | hmem
          · exact h.silent hphase hmem
          · cases mem_singleton.1 hmem
        last := fun e he => absurd he (hphase e) }

/-- the log of a round that goes on -/
theorem calm_nextBatch (hcareful : Careful outcome (nextBatch parallelism s)) (hphase : s.phase = .running)
    (hflight : s.flight = []) (hresults : s.results = []) (hfailure : s.failure = none) (hlog : .raised ∉ s.log) :
    Calm outcome (nextBatch parallelism s) := by
  have hbegin : ∀ (batch : List Stage) (batches : List (List Stage)),
      Careful outcome (begin { s with batches := batches } batch) →
      Calm outcome (begin { s with batches := batches } batch) := by
    intro batch batches hcareful
    exact
      { sound := by
          intro hnone
          change ((batch.map fun st => (⟨st, 1⟩ : Task)) ++ []).length ≤ 1 ∨ _
          rw [append_nil]
          refine (hcareful hnone rfl).imp_right fun hall t ht => hall t ?_
          exact (mem_append.1 ht).resolve_right not_mem_nil
        alone := fun hsome => absurd hfailure hsome
        silent := by
          intro _ hmem
          rcases mem_append.1 hmem with hmem | hmem
          · exact hlog hmem
          · obtain ⟨st, -, hst⟩ := mem_map.1 hmem
            cases hst
        last := fun e he => by
          rw [hphase] at he
          cases he }
  have hempty : current s = [] := by
    rw [current, hflight, hresults]
    rfl
  have hnothing : ∀ s' : State, current s' = current s →
      (current s').length ≤ 1 ∨ ∀ t ∈ current s', Succeeds outcome t.stage := by
    intro s' hs'
    rw [hs', hempty]
    exact .inl (Nat.zero_le _)
  revert hcareful
  unfold nextBatch
  split
  · unfold nextRound
    split
    · intro _
      exact
        { sound := fun _ => hnothing _ rfl
          alone := fun _ => hflight
          silent := fun _ => hlog
          last := fun e he => by cases he }
    split
    · intro _
      exact
        { sound := fun _ => hnothing _ rfl
          alone := fun _ => hflight
          silent := fun hnot => absurd rfl (hnot _)
          last := fun _ _ => ⟨hflight, s.log, rfl, hlog⟩ }
    · exact hbegin _ _
  · exact hbegin _ _

theorem Calm.step (h : Calm outcome s) (hinv : Inv outcome stages s)
    (hstep : step parallelism outcome s e = some s') (hcareful : Careful outcome s') : Calm outcome s' := by
  rcases step_cases hstep with ⟨t, ht, rfl⟩ | ⟨stageId, hphase, hfailure, rfl⟩ | ⟨hphase, hfailure, hflight, rfl⟩
  · exact h.endAttempt hinv ht
  · have hflight : s.flight = [] := h.alone (by
      rw [hfailure]
      exact some_ne_none _)
    have hlog : .raised ∉ s.log := h.silent fun e he => by
      rw [hphase] at he
      cases he
    exact
      { sound := fun hnone => absurd (hfailure.symm.trans hnone) (some_ne_none _)
        alone := fun _ => hflight
        silent := fun hnot => absurd rfl (hnot _)
        last := fun _ _ => ⟨hflight, s.log, rfl, hlog⟩ }
  · have hlog : .raised ∉ s.log := h.silent fun e he => by
      rw [hphase] at he
      cases he
    refine calm_nextBatch hcareful hphase hflight rfl hfailure fun hmem => ?_
    rcases mem_append.1 hmem with hmem | hmem
    · exact hlog hmem
    · obtain ⟨t, -, ht⟩ := mem_map.1 hmem
      cases ht

theorem calm_of_along (h : Calm outcome s) (hinv : Inv outcome stages s)
    (halong : Along parallelism outcome (Careful outcome) s es) (hrun : run parallelism outcome s es = some s') :
    Calm outcome s' := by
  induction es generalizing s with
  | nil =>
    cases hrun
    exact h
  | cons e es ih =>
    obtain ⟨s₁, hstep, hrest⟩ := bind_eq_some_iff.1 hrun
    have hnext := halong.2 s₁ hstep
    exact ih (h.step hinv hstep hnext.head) (hinv.step hstep) hnext hrest

theorem calm_start (hcareful : Careful outcome (start parallelism stages)) :
    Calm outcome (start parallelism stages) :=
  calm_nextBatch (s := initial stages) hcareful rfl rfl rfl rfl not_mem_nil

theorem step_attemptEnds (h : Inv outcome stages s) (ht : t ∈ s.flight) :
    step parallelism outcome s (.attemptEnds t.stageId) = some (endAttempt outcome s t) := by
  cases hfound : s.flight.find? fun t' => t'.stageId = t.stageId with
  | none => exact absurd (decide_eq_true rfl) (find?_eq_none.1 hfound t ht)
  | some t' =>
    have hmatch := find?_some hfound
    rw [decide_eq_true_eq] at hmatch
    rw [step, hfound, h.eq_of_stageId ht (mem_of_find?_eq_some hfound) hmatch]
    rfl

/-- a stage that does not succeed is tried until its attempts are used up -/
theorem exists_run_giveUp (n : ℕ) (h : Inv outcome stages s) (ht : t ∈ s.flight)
    (hfails : ¬Succeeds outcome t.stage) (hn : t.stage.maxAttempts ≤ t.attempt + n) :
    ∃ es s', run parallelism outcome s es = some s' ∧ s'.phase = s.phase ∧ s'.failure ≠ none ∧
      s.flight.length = s'.flight.length + 1 := by
  induction n generalizing s t with
  | zero =>
    obtain ⟨hpos, hle, -⟩ := h.tries t ht
    have hfail : ¬outcome t.stageId t.attempt = true := fun hok => hfails ⟨t.attempt, hpos, hle, hok⟩
    have hgive : endAttempt outcome s t = giveUp s t := by
      rw [endAttempt, if_neg hfail, if_pos (by omega)]
    refine ⟨[.attemptEnds t.stageId], giveUp s t, ?_, rfl, some_ne_none _, (h.flight_perm ht).length_eq⟩
    rw [run, step_attemptEnds h ht, hgive]
    rfl
  | succ n ih =>
    obtain ⟨hpos, hle, -⟩ := h.tries t ht
    have hfail : ¬outcome t.stageId t.attempt = true := fun hok => hfails ⟨t.attempt, hpos, hle, hok⟩
    rcases Nat.lt_or_ge t.attempt t.stage.maxAttempts with hmore | hlast
    · have hretry : endAttempt outcome s t = retry s t := by
        rw [endAttempt, if_neg hfail, if_neg (by omega)]
      have hmem : (⟨t.stage, t.attempt + 1⟩ : Task) ∈ (retry s t).flight :=
        mem_map.2 ⟨t, ht, if_pos rfl⟩
      have hnext : Inv outcome stages (retry s t) := h.retry ht (Bool.eq_false_iff.2 hfail) hmore
      obtain ⟨es, s', hrun, hphase, hfailure, hlength⟩ := ih hnext hmem hfails (by
        change t.stage.maxAttempts ≤ t.attempt + 1 + n
        omega)
      refine ⟨.attemptEnds t.stageId :: es, s', ?_, hphase, hfailure, ?_⟩
      · rw [run, step_attemptEnds h ht, hretry]
        exact hrun
      · rw [← hlength]
        exact (length_map _).symm
    · exact ih h ht hfails (by omega)

/-- where a stage of a batch fails for good beside another, the run can raise while the other is in flight -/
theorem exists_run_loud (h : Inv outcome stages s) (hends : Ends s) (hcareless : ¬Careful outcome s) :
    ∃ es s', run parallelism outcome s es = some s' ∧ ¬Quiet s' := by
  unfold Careful at hcareless
  push Not at hcareless
  obtain ⟨hfailure, -, hmany, t, ht, hfails⟩ := hcareless
  have hphase : s.phase = .running := by
    cases hp : s.phase with
    | running => rfl
    | returned => exact absurd (hends.returned hp).2 (ne_nil_of_mem ht)
    | raised e =>
      cases e with
      | unresolved text => exact absurd (hends.unresolved text hp).2.2 (ne_nil_of_mem ht)
      | stage stageId => exact absurd ((hends.failed stageId hp).symm.trans hfailure) (some_ne_none _)
  obtain ⟨es, s', hrun, hphase', hfailure', hlength⟩ : ∃ es s', run parallelism outcome s es = some s' ∧
      s'.phase = s.phase ∧ s'.failure ≠ none ∧ s.flight.length = s'.flight.length + 1 :=
    exists_run_giveUp t.stage.maxAttempts h ht hfails (by omega)
  obtain ⟨stageId, hstageId⟩ := ne_none_iff_exists'.1 hfailure'
  let raised : State :=
    { s' with failure := some stageId, phase := .raised (.stage stageId), log := s'.log ++ [.raised] }
  have hstep : step parallelism outcome s' .resume = some raised := by
    rw [step, if_pos (hphase'.trans hphase), resume, hstageId]
  refine ⟨es ++ [.resume], raised, ?_, fun hquiet => ?_⟩
  · rw [run_append, hrun]
    change (step parallelism outcome s' .resume).bind some = some raised
    rw [hstep]
    rfl
  · have hflight : s'.flight = [] := (hquiet _ rfl).1
    rw [hflight, length_nil] at hlength
    omega

/-- **A quiet end.** In a run in which no stage of a batch fails for good beside another, nothing is in flight once the
run has raised, and nothing has happened since. From a state where one does, the run can raise with a stage in
flight. -/
theorem quiet_after_raise (parallelism : ℕ) (outcome : Outcomes) (stages : List Stage) (es : List Event) (s : State)
    (hrun : run parallelism outcome (start parallelism stages) es = some s) :
    (Along parallelism outcome (Careful outcome) (start parallelism stages) es → Quiet s) ∧
      (¬Careful outcome s → ∃ more s', run parallelism outcome s more = some s' ∧ ¬Quiet s') := by
  obtain ⟨hinv, hends⟩ := run_inv hrun
  constructor
  · intro halong
    exact (calm_of_along (calm_start halong.head) (inv_start stages) halong hrun).quiet
  · exact exists_run_loud hinv hends

/-- a stage that fails, alone in its batch -/
theorem quiet_after_raise_alone :
    let alone : List Stage := [⟨"scan", [], 0⟩]
    ∃ s e, run 4 (fun _ _ => false) (start 4 alone) [.attemptEnds "scan", .resume] = some s ∧ s.phase = .raised e ∧
      s.flight = [] := by
  intro alone
  have hfew : ∀ s : State, s.flight.length ≤ 1 → Careful (fun _ _ => false) s := fun s hs _ _ => .inl hs
  have hquiet := (quiet_after_raise 4 (fun _ _ => false) alone [.attemptEnds "scan", .resume] _ rfl).1
    ⟨hfew _ (by decide), fun s' hs' => by
      cases hs'
      refine ⟨hfew _ (by decide), fun s' hs' => ?_⟩
      cases hs'
      exact hfew _ (by decide)⟩
  exact ⟨_, _, rfl, rfl, (hquiet _ rfl).1⟩

/-- of two stages of a batch one fails for good, the run raises, and the other writes its artifact then -/
theorem artifact_after_raise :
    ¬∀ (parallelism : ℕ) (outcome : Outcomes) (stages : List Stage) (es : List Event) (s : State),
      run parallelism outcome (start parallelism stages) es = some s → Quiet s := by
  intro hclaim
  have hquiet := hclaim 2 (fun id _ => id = "scan_b") [⟨"scan_a", [], 0⟩, ⟨"scan_b", [], 0⟩]
    [.attemptEnds "scan_a", .resume, .attemptEnds "scan_b"] _ rfl _ rfl
  have hafter := hquiet.2 [.started "scan_a" 1, .started "scan_b" 1] [.wrote "scan_b"] rfl
  exact absurd hafter (cons_ne_nil _ _)

/-! ## The width of a run -/

/-- the batches of a round, and what is left of the current one -/
structure Narrow (parallelism : ℕ) (s : State) : Prop where
  current : (current s).length ≤ max 1 parallelism
  batches : ∀ b ∈ s.batches, b.length ≤ max 1 parallelism

theorem length_of_mem_chunkUpTo {α : Type} (size n : ℕ) (items : List α) :
    ∀ batch ∈ chunkUpTo size n items, batch.length ≤ size := by
  induction n generalizing items with
  | zero => exact fun _ h => by cases h
  | succ n ih =>
    intro batch h
    cases items with
    | nil => cases h
    | cons a items =>
      rcases mem_cons.1 h with rfl | h
      · exact length_take_le _ _
      · exact ih _ batch h

theorem narrow_begin {batch : List Stage} {batches : List (List Stage)}
    (h : ∀ b ∈ batch :: batches, b.length ≤ max 1 parallelism) :
    Narrow parallelism (begin { s with batches := batches } batch) where
  current := by
    simpa [Scheduler.current, begin] using h batch mem_cons_self
  batches b hb := h b (mem_cons_of_mem _ hb)

theorem Narrow.nextBatch (h : Narrow parallelism s) : Narrow parallelism (nextBatch parallelism s) := by
  unfold Scheduler.nextBatch
  split
  · unfold nextRound
    have hchunks := length_of_mem_chunkUpTo (max 1 parallelism) (ready s).length (ready s)
    split
    · exact ⟨h.current, h.batches⟩
    · split
      · exact ⟨h.current, h.batches⟩
      · rename_i hchunk
        rw [← chunk, hchunk] at hchunks
        exact narrow_begin hchunks
  · rename_i hbatches
    exact narrow_begin (hbatches ▸ h.batches)

theorem Narrow.step (h : Narrow parallelism s) (hinv : Inv outcome stages s) {e : Event}
    (hstep : step parallelism outcome s e = some s') : Narrow parallelism s' := by
  have hcurrent := h.current
  rw [Scheduler.current, length_append] at hcurrent
  rcases step_cases hstep with ⟨t, ht, rfl⟩ | ⟨stageId, -, -, rfl⟩ | ⟨-, -, hflight, rfl⟩
  · -- an attempt that ends takes its stage out of flight, into the results or away
    have hlength := (hinv.flight_perm ht).length_eq
    rw [length_cons] at hlength
    refine ⟨?_, ?_⟩
    · unfold endAttempt
      split_ifs <;> simp only [Scheduler.current, succeed, giveUp, retry, length_append, length_map, length_singleton] <;>
        omega
    · unfold endAttempt
      split_ifs <;> exact h.batches
  · exact ⟨h.current, h.batches⟩
  · refine Narrow.nextBatch ⟨?_, h.batches⟩
    simp [Scheduler.current, collect, hflight]

/-- **The width of a run.** At most so many stages are in flight as the parallelism allows, and one where it is less. -/
theorem at_most_parallel (parallelism : ℕ) (outcome : Outcomes) (stages : List Stage) (es : List Event) (s : State)
    (hrun : run parallelism outcome (start parallelism stages) es = some s) : s.flight.length ≤ max 1 parallelism := by
  have hstart : Narrow parallelism (start parallelism stages) := by
    refine Narrow.nextBatch (s := initial stages) ⟨Nat.zero_le _, fun _ h => ?_⟩
    cases h
  have hnarrow := run_induction (P := fun s => Inv outcome stages s ∧ Narrow parallelism s)
    (fun _ _ _ h hstep => ⟨h.1.step hstep, h.2.step h.1 hstep⟩) ⟨inv_start stages, hstart⟩ hrun
  exact (sublist_append_left _ _).length_le.trans hnarrow.2.current

def scans : List Stage := [⟨"scan_a", [], 0⟩, ⟨"scan_b", [], 0⟩]

/-- of two scans, one is in flight -/
theorem at_most_parallel_one : ∃ s, run 0 (fun _ _ => true) (start 0 scans) [] = some s ∧ s.flight.length ≤ 1 :=
  ⟨_, rfl, at_most_parallel 0 (fun _ _ => true) scans [] _ rfl⟩

/-! ## Any order -/

theorem completed_of_returned (hinv : Inv outcome stages s) (hends : Ends s) (hphase : s.phase = .returned) (id : String) :
    id ∈ s.completed ↔ ∃ st, (planned stages).get? id = some st := by
  constructor
  · intro hid
    obtain ⟨st, hst, -⟩ := hinv.done id hid
    exact ⟨st, hst⟩
  · rintro ⟨st, hst⟩
    refine (hinv.covered id st hst).resolve_right fun hleft => ?_
    rw [Dict.get?, (hends.returned hphase).1] at hleft
    cases hleft

/-- **Any order.** Runs of one plan that have ended, whatever their parallelism and in whatever order their attempts
ended, have returned alike, and have then completed the same stages. -/
theorem runs_agree (outcome : Outcomes) (stages : List Stage) (parallelism parallelism' : ℕ) (es es' : List Event)
    (s s' : State) (hrun : run parallelism outcome (start parallelism stages) es = some s)
    (hrun' : run parallelism' outcome (start parallelism' stages) es' = some s') (hended : s.phase ≠ .running)
    (hended' : s'.phase ≠ .running) :
    (s.phase = .returned ↔ s'.phase = .returned) ∧
      (s.phase = .returned → (completions s.log).Perm (completions s'.log)) := by
  obtain ⟨hinv, hends⟩ := run_inv hrun
  obtain ⟨hinv', hends'⟩ := run_inv hrun'
  have hiff : s.phase = .returned ↔ s'.phase = .returned := by
    rw [returned_iff_runnable hinv hends hended, returned_iff_runnable hinv' hends' hended']
  refine ⟨hiff, fun hphase => ?_⟩
  rw [← hinv.logged, ← hinv'.logged, perm_ext_iff_of_nodup hinv.once hinv'.once]
  intro id
  rw [completed_of_returned hinv hends hphase, completed_of_returned hinv' hends' (hiff.1 hphase)]

/-- two scans, one after the other and both at once -/
theorem runs_agree_scans :
    let es : List Event := [.attemptEnds "scan_a", .resume, .attemptEnds "scan_b", .resume]
    let es' : List Event := [.attemptEnds "scan_b", .attemptEnds "scan_a", .resume]
    ∃ s s', run 1 (fun _ _ => true) (start 1 scans) es = some s ∧ run 2 (fun _ _ => true) (start 2 scans) es' = some s' ∧
      (completions s.log).Perm (completions s'.log) :=
  ⟨_, _, rfl, rfl, (runs_agree (fun _ _ => true) scans 1 2 [.attemptEnds "scan_a", .resume, .attemptEnds "scan_b", .resume]
    [.attemptEnds "scan_b", .attemptEnds "scan_a", .resume] _ _ rfl rfl (by decide) (by decide)).2 rfl⟩

end Langbridge.Federation.Scheduler
