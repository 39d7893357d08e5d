/-
Running the stages of a plan (`federation/executor/scheduler.py`): the stages whose dependencies are completed run in
batches, each of them with a number of attempts, and the loop goes on when a batch is done or one of its stages has
failed for good. Which attempt ends next is an event, so that a run is a list of events; whether an attempt succeeds is
a parameter (`Outcomes`).

`gather` does not cancel the other stages of a batch when one fails: they stay in flight after the run has raised.
-/
import Langbridge.Core.Dict

namespace Langbridge.Federation.Scheduler

open Core List

/-- what the scheduler reads of a `StageDefinition` -/
structure Stage where
  stageId : String
  dependencies : List String
  retryLimit : ℤ
deriving DecidableEq

/-- `max(1, stage.retry_limit + 1)` -/
def Stage.maxAttempts (stage : Stage) : ℕ := (max 1 (stage.retryLimit + 1)).toNat

/-- whether an attempt of a stage succeeds -/
abbrev Outcomes := String → ℕ → Bool

/-- a stage in flight, and the attempt it makes -/
structure Task where
  stage : Stage
  attempt : ℕ
deriving DecidableEq

def Task.stageId (t : Task) : String := t.stage.stageId

/-- what `run` raises -/
inductive SchedulerError where
  | unresolved (text : String)
  | stage (stageId : String)
deriving DecidableEq

/-- `wrote` is the artifact and the manifest of a stage -/
inductive Entry where
  | started (stageId : String) (attempt : ℕ)
  | wrote (stageId : String)
  | completed (stageId : String)
  | raised
deriving DecidableEq

inductive Phase where
  | running
  | returned
  | raised (e : SchedulerError)
deriving DecidableEq

/-- the variables of `run`, the tasks of the current batch that are in flight, those that have succeeded with their
attempts, and the first that has failed for good; the log is in the order of time -/
structure State where
  remaining : Dict String Stage
  completed : List String
  attempts : Dict String ℕ
  batches : List (List Stage)
  flight : List Task
  results : List Task
  failure : Option String
  phase : Phase
  log : List Entry

/-- an attempt ends, or `run` resumes after `gather` -/
inductive Event where
  | attemptEnds (stageId : String)
  | resume
deriving DecidableEq

/-! ## The loop -/

/-- `_chunk`, with as many turns as there are items -/
def chunkUpTo {α : Type} (size : ℕ) : ℕ → List α → List (List α)
  | 0, _ => []
  | _ + 1, [] => []
  | n + 1, a :: items => (a :: items).take size :: chunkUpTo size n ((a :: items).drop size)

def chunk {α : Type} (size : ℕ) (items : List α) : List (List α) := chunkUpTo size items.length items

def ready (s : State) : List Stage := s.remaining.values.filter fun st => st.dependencies.all (s.completed.contains ·)

/-- `asyncio.create_task` for each stage of a batch -/
def begin (s : State) (batch : List Stage) : State :=
  { s with
    flight := batch.map fun st => ⟨st, 1⟩
    results := []
    log := s.log ++ batch.map fun st => .started st.stageId 1 }

def unresolvedText (s : State) : String :=
  "Stage DAG contains unresolved dependencies: " ++ ", ".intercalate (s.remaining.keys.insertionSort (· ≤ ·))

variable (parallelism : ℕ)

/-- a turn of `while remaining` -/
def nextRound (s : State) : State :=
  if s.remaining.entries = [] then { s with phase := .returned }
  else
    match chunk (max 1 parallelism) (ready s) with
    | [] => { s with phase := .raised (.unresolved (unresolvedText s)), log := s.log ++ [.raised] }
    | batch :: batches => begin { s with batches := batches } batch

def nextBatch (s : State) : State :=
  match s.batches with
  | [] => nextRound parallelism s
  | batch :: batches => begin { s with batches := batches } batch

/-- `artifacts`, `metrics`, `completed` and `remaining` after a batch -/
def collect (s : State) : State :=
  { s with
    remaining := (s.results.map Task.stageId).foldl Dict.erase s.remaining
    completed := s.completed ++ s.results.map Task.stageId
    attempts := s.results.foldl (fun d t => d.set t.stageId t.attempt) s.attempts
    results := []
    log := s.log ++ s.results.map fun t => .completed t.stageId }

/-- the stages of a plan under their ids; a later stage replaces an earlier one of the same id -/
def planned (stages : List Stage) : Dict String Stage := Dict.ofList (stages.map fun st => (st.stageId, st))

/-- the state before the loop -/
def initial (stages : List Stage) : State where
  remaining := planned stages
  completed := []
  attempts := .empty
  batches := []
  flight := []
  results := []
  failure := none
  phase := .running
  log := []

def start (stages : List Stage) : State := nextRound parallelism (initial stages)

variable (outcome : Outcomes)

def others (s : State) (t : Task) : List Task := s.flight.filter fun t' => t'.stageId ≠ t.stageId

/-- the attempt of `t` succeeds -/
def succeed (s : State) (t : Task) : State :=
  { s with flight := others s t, results := s.results ++ [t], log := s.log ++ [.wrote t.stageId] }

/-- the last attempt of `t` fails -/
def giveUp (s : State) (t : Task) : State :=
  { s with flight := others s t, failure := some (s.failure.getD t.stageId) }

/-- an attempt of `t` fails that is not its last one -/
def retry (s : State) (t : Task) : State :=
  { s with
    flight := s.flight.map fun t' => if t'.stageId = t.stageId then ⟨t.stage, t.attempt + 1⟩ else t'
    log := s.log ++ [.started t.stageId (t.attempt + 1)] }

/-- the end of an attempt (`_execute_with_retry`) -/
def endAttempt (s : State) (t : Task) : State :=
  if outcome t.stageId t.attempt then succeed s t
  else if t.stage.maxAttempts ≤ t.attempt then giveUp s t
  else retry s t

/-- what `gather` gives to `run` -/
def resume (s : State) : Option State :=
  match s.failure with
  | some stageId => some { s with phase := .raised (.stage stageId), log := s.log ++ [.raised] }
  | none => if s.flight = [] then some (nextBatch parallelism (collect s)) else none

def step (s : State) : Event → Option State
  | .attemptEnds stageId =>
    (s.flight.find? fun t => t.stageId = stageId).map (endAttempt outcome s)
  | .resume => if s.phase = .running then resume parallelism s else none

def run (s : State) : List Event → Option State
  | [] => some s
  | e :: es => (step parallelism outcome s e).bind fun s' => run s' es

/-! ## Batches -/

theorem flatten_chunkUpTo {α : Type} (size n : ℕ) (hsize : 1 ≤ size) (items : List α) (hn : items.length ≤ n) :
    (chunkUpTo size n items).flatten = items := by
  induction n generalizing items with
  | zero =>
    rw [length_eq_zero_iff.1 (Nat.le_zero.1 hn)]
    rfl
  | succ n ih =>
    cases items with
    | nil => rfl
    | cons a items =>
      rw [chunkUpTo, flatten_cons, ih, take_append_drop]
      rw [length_drop]
      omega

theorem flatten_chunk {α : Type} (size : ℕ) (hsize : 1 ≤ size) (items : List α) :
    (chunk size items).flatten = items := flatten_chunkUpTo size _ hsize items le_rfl

theorem ne_nil_of_mem_chunk {α : Type} (size : ℕ) (hsize : 1 ≤ size) (items : List α) :
    ∀ batch ∈ chunk size items, batch ≠ [] := by
  suffices h : ∀ n (items : List α), ∀ batch ∈ chunkUpTo size n items, batch ≠ [] from h _ items
  intro n
  induction n with
  | zero => exact fun _ _ h => absurd h not_mem_nil
  | succ n ih =>
    intro items batch hbatch
    cases items with
    | nil => exact absurd hbatch not_mem_nil
    | cons a items =>
      rcases mem_cons.1 hbatch with rfl | hbatch
      · obtain ⟨k, hk⟩ := Nat.exists_eq_add_of_le' hsize
        rw [hk, take_succ_cons]
        exact cons_ne_nil _ _
      · exact ih _ batch hbatch

/-! ## Steps -/

variable {parallelism : ℕ} {outcome : Outcomes} {s : State}

/-- what a step can do -/
theorem step_cases {e : Event} {s' : State} (h : step parallelism outcome s e = some s') :
    (∃ t ∈ s.flight, s' = endAttempt outcome s t) ∨
    (∃ stageId, s.phase = .running ∧ s.failure = some stageId ∧
      s' = { s with phase := .raised (.stage stageId), log := s.log ++ [.raised] }) ∨
    (s.phase = .running ∧ s.failure = none ∧ s.flight = [] ∧ s' = nextBatch parallelism (collect s)) := by
  cases e with
  | attemptEnds stageId =>
    obtain ⟨t, ht, hs'⟩ := Option.map_eq_some_iff.1 h
    exact .inl ⟨t, mem_of_find?_eq_some ht, hs'.symm⟩
  | resume =>
    right
    rw [step] at h
    split at h
    · rename_i hphase
      unfold resume at h
      split at h
      · rename_i stageId hfailure
        exact .inl ⟨stageId, hphase, hfailure, (Option.some.inj h).symm⟩
      · rename_i hfailure
        split at h
        · rename_i hflight
          exact .inr ⟨hphase, hfailure, hflight, (Option.some.inj h).symm⟩
        · cases h
    · cases h

end Langbridge.Federation.Scheduler
