/-
What every run of the stages of a plan keeps: `Inv`, with one lemma for each thing that a step does (`Scheduler.lean`).
-/
import Langbridge.Core.Dependencies
import Langbridge.Federation.Scheduler

namespace Langbridge.Federation.Scheduler

open Core List Dict

/-! ## What every run keeps -/

variable (outcome : Outcomes) (stages : List Stage)

def dependencies (stageId : String) : List String := ((planned stages).get? stageId).elim [] Stage.dependencies

/-- how many attempts a plan gives to a stage -/
def attemptsOf (stageId : String) : ℕ := ((planned stages).get? stageId).elim 0 Stage.maxAttempts

def Succeeds (st : Stage) : Prop := ∃ a, 1 ≤ a ∧ a ≤ st.maxAttempts ∧ outcome st.stageId a = true

/-- how often a stage was started -/
def starts (stageId : String) (log : List Entry) : ℕ :=
  log.countP fun
    | .started id _ => id = stageId
    | _ => false

/-- the stages completed, in their order -/
def completions (log : List Entry) : List String :=
  log.filterMap fun
    | .completed id => some id
    | _ => none

def needs : Entry → List Entry
  | .started id _ => (dependencies stages id).map .completed
  | _ => []

def openStages (s : State) : List Stage := s.flight.map Task.stage ++ s.results.map Task.stage ++ s.batches.flatten

structure Inv (s : State) : Prop where
  /-- the stages of a round are what is left of the plan, once each, with their dependencies completed -/
  opened : ∀ st ∈ openStages s, s.remaining.get? st.stageId = some st
  fulfilled : ∀ st ∈ openStages s, ∀ d ∈ st.dependencies, d ∈ s.completed
  apart : ((openStages s).map Stage.stageId).Nodup
  filled : ∀ batch ∈ s.batches, batch ≠ []
  /-- every stage of the plan is completed or left -/
  left : ∀ id st, s.remaining.get? id = some st → (planned stages).get? id = some st
  covered : ∀ id st, (planned stages).get? id = some st → id ∈ s.completed ∨ s.remaining.get? id = some st
  gone : ∀ id ∈ s.completed, s.remaining.get? id = none
  /-- a completed stage has succeeded, after its dependencies -/
  done : ∀ id ∈ s.completed, ∃ st, (planned stages).get? id = some st ∧ Succeeds outcome st
  once : s.completed.Nodup
  order : DependsFirst (dependencies stages) s.completed
  /-- the attempts before the current one have failed -/
  tries : ∀ t ∈ s.flight, 1 ≤ t.attempt ∧ t.attempt ≤ t.stage.maxAttempts ∧
    ∀ a, 1 ≤ a → a < t.attempt → outcome t.stageId a = false
  succeeded : ∀ t ∈ s.results, Succeeds outcome t.stage
  failed : ∀ id ∈ s.failure, ∃ st, (planned stages).get? id = some st ∧ ¬Succeeds outcome st
  /-- the log agrees with the variables -/
  logged : s.completed = completions s.log
  timely : DependsFirst (needs stages) s.log
  startsFlight : ∀ t ∈ s.flight, starts t.stageId s.log = t.attempt
  startsLe : ∀ id, starts id s.log ≤ attemptsOf stages id
  startsFresh : s.failure = none → ∀ id, id ∉ s.completed → id ∉ s.flight.map Task.stageId →
    id ∉ s.results.map Task.stageId → starts id s.log = 0

theorem one_le_maxAttempts (st : Stage) : 1 ≤ st.maxAttempts := by
  unfold Stage.maxAttempts
  omega

theorem inv_initial : Inv outcome stages (initial stages) where
  opened _ h := absurd h not_mem_nil
  fulfilled _ h := absurd h not_mem_nil
  apart := nodup_nil
  filled _ h := absurd h not_mem_nil
  left _ _ h := h
  covered _ _ h := .inr h
  gone _ h := absurd h not_mem_nil
  done _ h := absurd h not_mem_nil
  once := nodup_nil
  order := dependsFirst_nil _
  tries _ h := absurd h not_mem_nil
  succeeded _ h := absurd h not_mem_nil
  failed id h := absurd h (Option.not_mem_none id)
  logged := rfl
  timely := dependsFirst_nil _
  startsFlight _ h := absurd h not_mem_nil
  startsLe _ := Nat.zero_le _
  startsFresh _ _ _ _ _ := rfl

variable {outcome stages} {s : State}

theorem mem_completions {id : String} {log : List Entry} : id ∈ completions log ↔ .completed id ∈ log := by
  unfold completions
  rw [mem_filterMap]
  constructor
  · rintro ⟨e, he, hid⟩
    cases e <;> cases hid
    exact he
  · exact fun h => ⟨_, h, rfl⟩

variable {st : Stage}

theorem Inv.dependencies_eq (h : Inv outcome stages s) (hst : st ∈ openStages s) :
    dependencies stages st.stageId = st.dependencies := by
  rw [dependencies, h.left _ _ (h.opened st hst)]
  rfl

theorem Inv.timely_append (h : Inv outcome stages s) (more : List Entry)
    (hmore : ∀ e ∈ more, ∀ id a, e = .started id a → ∀ d ∈ dependencies stages id, d ∈ s.completed) :
    DependsFirst (needs stages) (s.log ++ more) := by
  apply h.timely.append
  intro e he d hd
  cases e with
  | started id a =>
    obtain ⟨d', hd', rfl⟩ := mem_map.1 hd
    have hcompleted := hmore _ he id a rfl d' hd'
    rw [h.logged] at hcompleted
    exact mem_completions.1 hcompleted
  | wrote _ => exact absurd hd not_mem_nil
  | completed _ => exact absurd hd not_mem_nil
  | raised => exact absurd hd not_mem_nil

theorem starts_append (id : String) (log more : List Entry) : starts id (log ++ more) = starts id log + starts id more :=
  countP_append

theorem starts_batch (id : String) (batch : List Stage) :
    starts id (batch.map fun st => .started st.stageId 1) = (batch.map Stage.stageId).count id := by
  unfold starts
  rw [countP_map, List.count, countP_map]
  rfl

theorem completions_append (log more : List Entry) : completions (log ++ more) = completions log ++ completions more :=
  filterMap_append

theorem completions_batch (batch : List Stage) :
    completions (batch.map fun st => .started st.stageId 1) = [] := by
  unfold completions
  rw [filterMap_map]
  exact filterMap_eq_nil_iff.2 fun _ _ => rfl

theorem Inv.begun (h : Inv outcome stages s) (hflight : s.flight = []) (hresults : s.results = [])
    (hfailure : s.failure = none) (batch : List Stage) (batches : List (List Stage))
    (hopened : ∀ st ∈ batch ++ batches.flatten, s.remaining.get? st.stageId = some st)
    (hfulfilled : ∀ st ∈ batch ++ batches.flatten, ∀ d ∈ st.dependencies, d ∈ s.completed)
    (hapart : ((batch ++ batches.flatten).map Stage.stageId).Nodup) (hfilled : ∀ b ∈ batches, b ≠ []) :
    Inv outcome stages (begin { s with batches := batches } batch) := by
  have hopen : openStages (begin { s with batches := batches } batch) = batch ++ batches.flatten := by
    simp [openStages, begin, Function.comp_def]
  have hfresh : ∀ id, id ∉ s.completed → starts id s.log = 0 := fun id hid =>
    h.startsFresh hfailure id hid (by rw [hflight]; exact not_mem_nil) (by rw [hresults]; exact not_mem_nil)
  have hout : ∀ st ∈ batch, st.stageId ∉ s.completed := by
    intro st hst hcompleted
    have hleft := hopened st (mem_append_left _ hst)
    rw [h.gone _ hcompleted] at hleft
    cases hleft
  have hcount : ∀ id, (batch.map Stage.stageId).count id ≤ 1 := by
    intro id
    rw [map_append] at hapart
    exact nodup_iff_count_le_one.1 hapart.of_append_left id
  have hstarts : ∀ id, starts id (begin { s with batches := batches } batch).log =
      starts id s.log + (batch.map Stage.stageId).count id := by
    intro id
    rw [← starts_batch, ← starts_append]
    rfl
  exact
    { opened := by rw [hopen]; exact hopened
      fulfilled := by rw [hopen]; exact hfulfilled
      apart := by rw [hopen]; exact hapart
      filled := hfilled
      left := h.left
      covered := h.covered
      gone := h.gone
      done := h.done
      once := h.once
      order := h.order
      tries := by
        intro t ht
        obtain ⟨st, -, rfl⟩ := mem_map.1 ht
        exact ⟨le_rfl, one_le_maxAttempts st, fun a h1 (h2 : a < 1) => absurd h1 (by omega)⟩
      succeeded := fun t ht => absurd ht not_mem_nil
      failed := h.failed
      logged := by
        change s.completed = completions (s.log ++ _)
        rw [completions_append, completions_batch, append_nil, h.logged]
      timely := by
        apply h.timely_append
        intro e he id a hentry d hd
        obtain ⟨st, hst, rfl⟩ := mem_map.1 he
        cases hentry
        rw [dependencies, h.left _ _ (hopened st (mem_append_left _ hst))] at hd
        exact hfulfilled st (mem_append_left _ hst) d hd
      startsFlight := by
        intro t ht
        obtain ⟨st, hst, rfl⟩ := mem_map.1 ht
        have hone : (batch.map Stage.stageId).count st.stageId = 1 :=
          le_antisymm (hcount _) (count_pos_iff.2 (mem_map_of_mem hst))
        rw [hstarts]
        change starts st.stageId s.log + (batch.map Stage.stageId).count st.stageId = 1
        rw [hfresh _ (hout st hst), hone]
      startsLe := by
        intro id
        rw [hstarts]
        by_cases hid : id ∈ batch.map Stage.stageId
        · obtain ⟨st, hst, rfl⟩ := mem_map.1 hid
          have hone := hcount st.stageId
          have hpos := one_le_maxAttempts st
          rw [hfresh _ (hout st hst), attemptsOf, h.left _ _ (hopened st (mem_append_left _ hst)), Option.elim]
          omega
        · rw [count_eq_zero_of_not_mem hid]
          exact h.startsLe id
      startsFresh := by
        intro _ id hcompleted hid _
        have hid' : id ∉ batch.map Stage.stageId := by
          intro hmem
          obtain ⟨st, hst, rfl⟩ := mem_map.1 hmem
          exact hid (mem_map.2 ⟨⟨st, 1⟩, mem_map_of_mem hst, rfl⟩)
        rw [hstarts, count_eq_zero_of_not_mem hid', hfresh id hcompleted] }

/-! ## The end of an attempt -/

theorem Inv.flight_nodup (h : Inv outcome stages s) : (s.flight.map Task.stageId).Nodup := by
  have hopen := h.apart
  rw [openStages, map_append, map_append, List.map_map] at hopen
  exact hopen.of_append_left.of_append_left

variable {t t' : Task}

theorem Inv.eq_of_stageId (h : Inv outcome stages s) (ht : t ∈ s.flight) (ht' : t' ∈ s.flight)
    (hid : t'.stageId = t.stageId) : t' = t := inj_on_of_nodup_map h.flight_nodup ht' ht hid

theorem Inv.open_of_flight (ht : t ∈ s.flight) : t.stage ∈ openStages s :=
  mem_append_left _ (mem_append_left _ (mem_map_of_mem ht))

theorem Inv.planned_of_flight (h : Inv outcome stages s) (ht : t ∈ s.flight) :
    (planned stages).get? t.stageId = some t.stage := h.left _ _ (h.opened _ (Inv.open_of_flight ht))

theorem mem_others : t' ∈ others s t ↔ t' ∈ s.flight ∧ t'.stageId ≠ t.stageId := by
  rw [others, mem_filter, decide_eq_true_eq]

theorem Inv.flight_perm (h : Inv outcome stages s) (ht : t ∈ s.flight) : s.flight.Perm (t :: others s t) := by
  have hnodup := h.flight_nodup
  obtain ⟨before, after, hsplit⟩ := append_of_mem ht
  have hothers : others s t = before ++ after := by
    rw [others, hsplit, filter_append, filter_cons_of_neg (by simp)]
    rw [hsplit, map_append, map_cons, nodup_append] at hnodup
    obtain ⟨-, hafter, hdisjoint⟩ := hnodup
    congr 1
    · refine filter_eq_self.2 fun t' ht' => decide_eq_true fun hid => ?_
      exact hdisjoint _ (mem_map_of_mem ht') _ mem_cons_self hid
    · refine filter_eq_self.2 fun t' ht' => decide_eq_true fun hid => ?_
      exact (nodup_cons.1 hafter).1 (hid ▸ mem_map_of_mem ht')
  rw [hothers, hsplit]
  exact perm_middle

theorem Inv.succeed (h : Inv outcome stages s) (ht : t ∈ s.flight)
    (hok : outcome t.stageId t.attempt = true) : Inv outcome stages (succeed s t) := by
  obtain ⟨hpos, hle, -⟩ := h.tries t ht
  have hmove : (others s t ++ (s.results ++ [t])).Perm (s.flight ++ s.results) := by
    rw [← append_assoc]
    exact (perm_append_singleton _ _).trans ((h.flight_perm ht).symm.append_right s.results)
  have hperm : (openStages (Scheduler.succeed s t)).Perm (openStages s) := by
    apply Perm.append_right
    rw [← map_append, ← map_append]
    exact hmove.map _
  have hstarts : ∀ id, starts id (s.log ++ [.wrote t.stageId]) = starts id s.log := fun id => by
    rw [starts_append]
    rfl
  exact
    { opened := fun st hst => h.opened st (hperm.subset hst)
      fulfilled := fun st hst => h.fulfilled st (hperm.subset hst)
      apart := (hperm.map _).nodup_iff.2 h.apart
      filled := h.filled
      left := h.left
      covered := h.covered
      gone := h.gone
      done := h.done
      once := h.once
      order := h.order
      tries := fun t' ht' => h.tries t' (mem_others.1 ht').1
      succeeded := by
        intro t' ht'
        rcases mem_append.1 ht' with ht' | ht'
        · exact h.succeeded t' ht'
        · obtain rfl := mem_singleton.1 ht'
          exact ⟨t'.attempt, hpos, hle, hok⟩
      failed := h.failed
      logged := by
        change s.completed = completions (s.log ++ _)
        rw [completions_append, h.logged]
        exact (append_nil _).symm
      timely := h.timely_append _ fun e he id a hentry => by
        obtain rfl := mem_singleton.1 he
        cases hentry
      startsFlight := fun t' ht' => (hstarts _).trans (h.startsFlight t' (mem_others.1 ht').1)
      startsLe := fun id => (hstarts id).le.trans (h.startsLe id)
      startsFresh := by
        intro hfailure id hcompleted hflight hresults
        have hresults' : id ∉ (s.results ++ [t]).map Task.stageId := hresults
        rw [map_append, mem_append, not_or] at hresults'
        apply (hstarts id).trans
        refine h.startsFresh hfailure id hcompleted (fun hmem => ?_) hresults'.1
        obtain ⟨t', ht', rfl⟩ := mem_map.1 hmem
        by_cases hid : t'.stageId = t.stageId
        · exact hresults'.2 (mem_singleton.2 hid)
        · exact hflight (mem_map_of_mem (mem_others.2 ⟨ht', hid⟩)) }

theorem Inv.giveUp (h : Inv outcome stages s) (ht : t ∈ s.flight)
    (hfail : outcome t.stageId t.attempt = false) (hlast : t.stage.maxAttempts ≤ t.attempt) :
    Inv outcome stages (giveUp s t) := by
  obtain ⟨-, -, hbefore⟩ := h.tries t ht
  have hopen : (openStages (Scheduler.giveUp s t)).Sublist (openStages s) := by
    apply Sublist.append_right
    apply Sublist.append_right
    exact filter_sublist.map _
  have hnever : ¬Succeeds outcome t.stage := by
    rintro ⟨a, hpos, hle, hok⟩
    rcases Nat.lt_or_ge a t.attempt with ha | ha
    · exact absurd hok (by rw [show t.stage.stageId = t.stageId from rfl, hbefore a hpos ha]; decide)
    · obtain rfl : a = t.attempt := by omega
      exact absurd hok (by rw [show t.stage.stageId = t.stageId from rfl, hfail]; decide)
  exact
    { opened := fun st hst => h.opened st (hopen.subset hst)
      fulfilled := fun st hst => h.fulfilled st (hopen.subset hst)
      apart := h.apart.sublist (hopen.map _)
      filled := h.filled
      left := h.left
      covered := h.covered
      gone := h.gone
      done := h.done
      once := h.once
      order := h.order
      tries := fun t' ht' => h.tries t' (mem_others.1 ht').1
      succeeded := h.succeeded
      failed := by
        intro id hid
        have hid' : s.failure.getD t.stageId = id := Option.some.inj hid
        cases hfailure : s.failure with
        | none =>
          rw [hfailure, Option.getD_none] at hid'
          exact ⟨t.stage, hid' ▸ h.planned_of_flight ht, hnever⟩
        | some first =>
          rw [hfailure, Option.getD_some] at hid'
          exact h.failed id (hfailure.trans (congrArg some hid'))
      logged := h.logged
      timely := h.timely
      startsFlight := fun t' ht' => h.startsFlight t' (mem_others.1 ht').1
      startsLe := h.startsLe
      startsFresh := fun hnone => absurd hnone (Option.some_ne_none _) }

/-- `t` before its next attempt -/
def again (t t' : Task) : Task := if t'.stageId = t.stageId then ⟨t.stage, t.attempt + 1⟩ else t'

theorem Inv.again_cases (h : Inv outcome stages s) (ht : t ∈ s.flight) (ht' : t' ∈ s.flight) :
    again t t' = ⟨t.stage, t.attempt + 1⟩ ∧ t' = t ∨ again t t' = t' ∧ t'.stageId ≠ t.stageId := by
  by_cases hid : t'.stageId = t.stageId
  · exact .inl ⟨if_pos hid, h.eq_of_stageId ht ht' hid⟩
  · exact .inr ⟨if_neg hid, hid⟩

theorem Inv.retry_stages (h : Inv outcome stages s) (ht : t ∈ s.flight) :
    (retry s t).flight.map Task.stage = s.flight.map Task.stage := by
  change (s.flight.map (again t)).map Task.stage = _
  rw [List.map_map]
  apply map_congr_left
  intro t' ht'
  rw [Function.comp_apply]
  rcases h.again_cases ht ht' with ⟨heq, rfl⟩ | ⟨heq, -⟩ <;> rw [heq]

theorem Inv.retry (h : Inv outcome stages s) (ht : t ∈ s.flight)
    (hfail : outcome t.stageId t.attempt = false) (hmore : t.attempt < t.stage.maxAttempts) :
    Inv outcome stages (retry s t) := by
  obtain ⟨-, -, hbefore⟩ := h.tries t ht
  have hstage := h.retry_stages ht
  have hopen : openStages (Scheduler.retry s t) = openStages s := by
    rw [openStages, hstage]
    rfl
  have hids : (Scheduler.retry s t).flight.map Task.stageId = s.flight.map Task.stageId := by
    have hstageId := congrArg (List.map Stage.stageId) hstage
    rwa [List.map_map, List.map_map] at hstageId
  have hstarts : ∀ id, starts id (Scheduler.retry s t).log = starts id s.log + if t.stageId = id then 1 else 0 := by
    intro id
    change starts id (s.log ++ [.started t.stageId (t.attempt + 1)]) = _
    rw [starts_append, starts, starts, countP_singleton]
    simp only [decide_eq_true_eq]
  exact
    { opened := by rw [hopen]; exact h.opened
      fulfilled := by rw [hopen]; exact h.fulfilled
      apart := by rw [hopen]; exact h.apart
      filled := h.filled
      left := h.left
      covered := h.covered
      gone := h.gone
      done := h.done
      once := h.once
      order := h.order
      tries := by
        intro t' ht'
        obtain ⟨t₀, ht₀, rfl⟩ := mem_map.1 ht'
        rcases h.again_cases ht ht₀ with ⟨heq, -⟩ | ⟨heq, -⟩
        · change 1 ≤ (again t t₀).attempt ∧ (again t t₀).attempt ≤ (again t t₀).stage.maxAttempts ∧
            ∀ a, 1 ≤ a → a < (again t t₀).attempt → outcome (again t t₀).stageId a = false
          rw [heq]
          refine ⟨Nat.le_add_left _ _, hmore, fun a hpos ha => ?_⟩
          rcases Nat.lt_or_ge a t.attempt with hlt | hge
          · exact hbefore a hpos hlt
          · obtain rfl : a = t.attempt := by
              change a < t.attempt + 1 at ha
              omega
            exact hfail
        · change 1 ≤ (again t t₀).attempt ∧ (again t t₀).attempt ≤ (again t t₀).stage.maxAttempts ∧
            ∀ a, 1 ≤ a → a < (again t t₀).attempt → outcome (again t t₀).stageId a = false
          rw [heq]
          exact h.tries t₀ ht₀
      succeeded := h.succeeded
      failed := h.failed
      logged := by
        change s.completed = completions (s.log ++ _)
        rw [completions_append, h.logged]
        exact (append_nil _).symm
      timely := by
        apply h.timely_append
        intro e he id a hentry d hd
        obtain rfl := mem_singleton.1 he
        cases hentry
        have hopened := Inv.open_of_flight ht
        change d ∈ dependencies stages t.stage.stageId at hd
        rw [h.dependencies_eq hopened] at hd
        exact h.fulfilled _ hopened d hd
      startsFlight := by
        intro t' ht'
        obtain ⟨t₀, ht₀, rfl⟩ := mem_map.1 ht'
        rw [hstarts]
        change starts (again t t₀).stageId s.log + (if t.stageId = (again t t₀).stageId then 1 else 0) = (again t t₀).attempt
        rcases h.again_cases ht ht₀ with ⟨heq, rfl⟩ | ⟨heq, hid⟩
        · rw [heq]
          change starts t₀.stageId s.log + (if t₀.stageId = t₀.stageId then 1 else 0) = t₀.attempt + 1
          rw [if_pos rfl, h.startsFlight _ ht₀]
        · rw [heq, if_neg (Ne.symm hid), Nat.add_zero, h.startsFlight _ ht₀]
      startsLe := by
        intro id
        rw [hstarts]
        by_cases hid : t.stageId = id
        · rw [if_pos hid, ← hid, h.startsFlight t ht, attemptsOf, h.planned_of_flight ht]
          exact hmore
        · rw [if_neg hid]
          exact h.startsLe id
      startsFresh := by
        intro hfailure id hcompleted hflight hresults
        rw [hids] at hflight
        have hid : t.stageId ≠ id := fun hid => hflight (hid ▸ mem_map_of_mem ht)
        rw [hstarts, if_neg hid]
        exact h.startsFresh hfailure id hcompleted hflight hresults }

theorem Inv.endAttempt (h : Inv outcome stages s) (ht : t ∈ s.flight) :
    Inv outcome stages (endAttempt outcome s t) := by
  rw [Scheduler.endAttempt]
  by_cases hok : outcome t.stageId t.attempt = true
  · rw [if_pos hok]
    exact h.succeed ht hok
  · have hfail : outcome t.stageId t.attempt = false := Bool.eq_false_iff.2 hok
    rw [if_neg hok]
    by_cases hlast : t.stage.maxAttempts ≤ t.attempt
    · rw [if_pos hlast]
      exact h.giveUp ht hfail hlast
    · rw [if_neg hlast]
      exact h.retry ht hfail (by omega)

/-! ## The next batch -/

theorem get?_foldl_erase {β : Type} (ids : List String) (d : Dict String β) (k : String) :
    (ids.foldl Dict.erase d).get? k = if k ∈ ids then none else d.get? k := by
  induction ids generalizing d with
  | nil => simp
  | cons id ids ih =>
    rw [foldl_cons, ih, get?_erase]
    by_cases hk : k ∈ ids
    · rw [if_pos hk, if_pos (mem_cons_of_mem _ hk)]
    · rw [if_neg hk]
      simp only [mem_cons, hk, or_false]

theorem completions_completed (results : List Task) :
    completions (results.map fun t => .completed t.stageId) = results.map Task.stageId := by
  unfold completions
  rw [filterMap_map]
  exact congrFun (filterMap_eq_map (f := Task.stageId)) results

theorem Inv.collect (h : Inv outcome stages s) (hflight : s.flight = []) (hfailure : s.failure = none) :
    Inv outcome stages (collect s) := by
  have hopen : openStages s = s.results.map Task.stage ++ s.batches.flatten := by
    rw [openStages, hflight]
    rfl
  have hnext : openStages (Scheduler.collect s) = s.batches.flatten := by
    change List.map Task.stage s.flight ++ [] ++ s.batches.flatten = _
    rw [hflight]
    rfl
  have hlater : ∀ st ∈ s.batches.flatten, st ∈ openStages s := by
    intro st hst
    exact mem_append_right _ hst
  have hresult : ∀ t ∈ s.results, t.stage ∈ openStages s := by
    intro t ht
    rw [hopen]
    exact mem_append_left _ (mem_map_of_mem ht)
  have hapart : (s.results.map Task.stageId).Nodup ∧
      ∀ st ∈ s.batches.flatten, st.stageId ∉ s.results.map Task.stageId := by
    have hnodup := h.apart
    rw [hopen, map_append, List.map_map, nodup_append] at hnodup
    obtain ⟨hresults, -, hdisjoint⟩ := hnodup
    exact ⟨hresults, fun st hst hmem => hdisjoint _ hmem _ (mem_map_of_mem hst) rfl⟩
  have hremaining : ∀ id, (Scheduler.collect s).remaining.get? id =
      if id ∈ s.results.map Task.stageId then none else s.remaining.get? id := get?_foldl_erase _ _
  have hstarts : ∀ id, starts id (Scheduler.collect s).log = starts id s.log := by
    intro id
    change starts id (s.log ++ s.results.map fun t => .completed t.stageId) = _
    rw [starts_append]
    apply add_eq_left.2
    apply countP_eq_zero.2
    intro e he
    obtain ⟨t, -, rfl⟩ := mem_map.1 he
    exact Bool.false_ne_true
  exact
    { opened := by
        rw [hnext]
        intro st hst
        rw [hremaining, if_neg (hapart.2 st hst)]
        exact h.opened st (hlater st hst)
      fulfilled := by
        rw [hnext]
        exact fun st hst d hd => mem_append_left _ (h.fulfilled st (hlater st hst) d hd)
      apart := by
        rw [hnext]
        have hnodup := h.apart
        rw [hopen, map_append] at hnodup
        exact hnodup.of_append_right
      filled := h.filled
      left := by
        intro id st hst
        rw [hremaining] at hst
        by_cases hid : id ∈ s.results.map Task.stageId
        · rw [if_pos hid] at hst
          cases hst
        · rw [if_neg hid] at hst
          exact h.left id st hst
      covered := by
        intro id st hst
        rw [hremaining]
        by_cases hid : id ∈ s.results.map Task.stageId
        · exact .inl (mem_append_right _ hid)
        · rw [if_neg hid]
          exact (h.covered id st hst).imp_left (mem_append_left _)
      gone := by
        intro id hid
        rw [hremaining]
        rcases mem_append.1 hid with hcompleted | hresults
        · rw [h.gone id hcompleted, ite_self]
        · rw [if_pos hresults]
      done := by
        intro id hid
        rcases mem_append.1 hid with hcompleted | hresults
        · exact h.done id hcompleted
        · obtain ⟨t, ht, rfl⟩ := mem_map.1 hresults
          exact ⟨t.stage, h.left _ _ (h.opened _ (hresult t ht)), h.succeeded t ht⟩
      once := by
        refine nodup_append.2 ⟨h.once, hapart.1, fun id hid id' hid' heq => ?_⟩
        obtain ⟨t, ht, rfl⟩ := mem_map.1 hid'
        have hleft := h.opened _ (hresult t ht)
        rw [show t.stage.stageId = id from heq.symm, h.gone id hid] at hleft
        cases hleft
      order := by
        apply h.order.append
        intro id hid d hd
        obtain ⟨t, ht, rfl⟩ := mem_map.1 hid
        change d ∈ dependencies stages t.stage.stageId at hd
        rw [h.dependencies_eq (hresult t ht)] at hd
        exact h.fulfilled _ (hresult t ht) d hd
      tries := h.tries
      succeeded := fun t ht => absurd ht not_mem_nil
      failed := h.failed
      logged := by
        change s.completed ++ s.results.map Task.stageId = completions (s.log ++ s.results.map fun t => .completed t.stageId)
        rw [completions_append, completions_completed, h.logged]
      timely := by
        apply h.timely_append
        intro e he id a hentry
        obtain ⟨t, -, rfl⟩ := mem_map.1 he
        cases hentry
      startsFlight := fun t ht => (hstarts _).trans (h.startsFlight t ht)
      startsLe := fun id => (hstarts id).le.trans (h.startsLe id)
      startsFresh := by
        intro _ id hcompleted hid _
        have hcompleted' : id ∉ s.completed ++ s.results.map Task.stageId := hcompleted
        rw [mem_append, not_or] at hcompleted'
        rw [hstarts]
        exact h.startsFresh hfailure id hcompleted'.1 hid hcompleted'.2 }

/-- `run` returns or raises -/
theorem Inv.left_loop (h : Inv outcome stages s) (phase : Phase) (more : List Entry) (hmore : ∀ e ∈ more, e = .raised) :
    Inv outcome stages { s with phase := phase, log := s.log ++ more } := by
  have hstarts : ∀ id, starts id (s.log ++ more) = starts id s.log := by
    intro id
    rw [starts_append]
    apply add_eq_left.2
    apply countP_eq_zero.2
    intro e he
    rw [hmore e he]
    exact Bool.false_ne_true
  exact
    { h with
      logged := by
        rw [completions_append, h.logged]
        apply (append_nil _).symm.trans
        apply congrArg
        apply Eq.symm
        apply filterMap_eq_nil_iff.2
        intro e he
        rw [hmore e he]
      timely := by
        apply h.timely_append
        intro e he id a hentry
        rw [hmore e he] at hentry
        cases hentry
      startsFlight := fun t ht => (hstarts _).trans (h.startsFlight t ht)
      startsLe := fun id => (hstarts id).le.trans (h.startsLe id)
      startsFresh := fun hfailure id hcompleted hflight hresults =>
        (hstarts id).trans (h.startsFresh hfailure id hcompleted hflight hresults) }

/-- a stage of a plan stands under its id -/
theorem stageId_of_planned {id : String} (h : (planned stages).get? id = some st) : st.stageId = id := by
  have hset : ∀ (l : List Stage) (d : Dict String Stage), (∀ id st, d.get? id = some st → st.stageId = id) →
      ∀ id st, ((l.map fun st => (st.stageId, st)).foldl (fun d e => d.set e.1 e.2) d).get? id = some st →
        st.stageId = id := by
    intro l
    induction l with
    | nil => exact fun d hd => hd
    | cons st₀ l ih =>
      intro d hd
      apply ih
      intro id st hst
      rw [get?_set] at hst
      by_cases hid : id = st₀.stageId
      · rw [if_pos hid] at hst
        cases hst
        exact hid.symm
      · rw [if_neg hid] at hst
        exact hd id st hst
  exact hset stages .empty (fun id st h => absurd h (by simp)) id st h

theorem Inv.get?_of_mem_values (h : Inv outcome stages s) (hst : st ∈ s.remaining.values) :
    s.remaining.get? st.stageId = some st := by
  obtain ⟨id, hid⟩ := (mem_values _ _).1 hst
  rw [stageId_of_planned (h.left id st hid)]
  exact hid

theorem Inv.nodup_values (h : Inv outcome stages s) : (s.remaining.values.map Stage.stageId).Nodup := by
  have hkeys : s.remaining.values.map Stage.stageId = s.remaining.keys := by
    rw [Dict.values, Dict.keys, List.map_map]
    apply map_congr_left
    intro e he
    exact stageId_of_planned (h.left e.1 e.2 ((get?_eq_some_iff _ _ _).2 he))
  rw [hkeys]
  exact s.remaining.keys_nodup

theorem mem_ready : st ∈ ready s ↔ st ∈ s.remaining.values ∧ ∀ d ∈ st.dependencies, d ∈ s.completed := by
  rw [ready, mem_filter, all_eq_true]
  simp only [contains_iff_mem]

variable {parallelism : ℕ}

theorem Inv.nextRound (h : Inv outcome stages s) (hflight : s.flight = []) (hresults : s.results = [])
    (hfailure : s.failure = none) : Inv outcome stages (nextRound parallelism s) := by
  unfold Scheduler.nextRound
  split
  · have hleave := h.left_loop .returned [] (fun e he => absurd he not_mem_nil)
    rwa [append_nil] at hleave
  · have hflatten := flatten_chunk (max 1 parallelism) (le_max_left _ _) (ready s)
    have hfilled := ne_nil_of_mem_chunk (max 1 parallelism) (le_max_left _ _) (ready s)
    split
    · exact h.left_loop _ _ fun e he => mem_singleton.1 he
    · rename_i batch batches hchunk
      rw [hchunk] at hflatten hfilled
      rw [flatten_cons] at hflatten
      apply h.begun hflight hresults hfailure
      · rw [hflatten]
        exact fun st hst => h.get?_of_mem_values (mem_ready.1 hst).1
      · rw [hflatten]
        exact fun st hst => (mem_ready.1 hst).2
      · rw [hflatten]
        exact h.nodup_values.sublist (filter_sublist.map _)
      · exact fun b hb => hfilled b (mem_cons_of_mem _ hb)

theorem Inv.nextBatch (h : Inv outcome stages s) (hflight : s.flight = []) (hresults : s.results = [])
    (hfailure : s.failure = none) : Inv outcome stages (nextBatch parallelism s) := by
  have hopen : openStages s = s.batches.flatten := by
    rw [openStages, hflight, hresults]
    rfl
  unfold Scheduler.nextBatch
  split
  · exact h.nextRound hflight hresults hfailure
  · rename_i batch batches hbatches
    have hflatten : batch ++ batches.flatten = openStages s := by
      rw [hopen, hbatches, flatten_cons]
    have hfilled := h.filled
    rw [hbatches] at hfilled
    apply h.begun hflight hresults hfailure
    · rw [hflatten]
      exact h.opened
    · rw [hflatten]
      exact h.fulfilled
    · rw [hflatten]
      exact h.apart
    · exact fun b hb => hfilled b (mem_cons_of_mem _ hb)

theorem inv_start (stages : List Stage) : Inv outcome stages (start parallelism stages) :=
  (inv_initial outcome stages).nextRound rfl rfl rfl

theorem Inv.step (h : Inv outcome stages s) {e : Event} {s' : State} (hstep : step parallelism outcome s e = some s') :
    Inv outcome stages s' := by
  rcases step_cases hstep with ⟨t, ht, rfl⟩ | ⟨stageId, -, -, rfl⟩ | ⟨-, hfailure, hflight, rfl⟩
  · exact h.endAttempt ht
  · exact h.left_loop _ _ fun e he => mem_singleton.1 he
  · exact (h.collect hflight hfailure).nextBatch hflight rfl hfailure

end Langbridge.Federation.Scheduler
