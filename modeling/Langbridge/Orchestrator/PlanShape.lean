/-
Well-formed plans, and the plan of the rules. It is never empty, never longer than the limit, and its ids are distinct.
Its agents, the steps of its route and its references are another matter:

- `DeepResearch` validates with an analyst step whether or not SQL analysis is allowed;
- an entity resolution takes both steps of an `AnalystThenVisual` plan that may have two;
- a rewrite may give a step any source.

Main results: `foldl_applyToolRewrite`, `built_buildSteps`, `rulePlan_wellFormed_iff`.
-/
import Langbridge.Orchestrator.Planner

namespace Langbridge.Orchestrator

open Core List PyText Option

namespace Planner

open Router (get get_set_ne get_set_self dictAt)

/-! ## Well-formed plans -/

/-- an agent produces what another one reads -/
def feeds : AgentName → AgentName → Bool
  | .analyst, .visual | .docRetrieval, .visual => true
  | .analyst, .analyst | .webSearch, .analyst | .docRetrieval, .analyst => true
  | .webSearch, .docRetrieval => true
  | _, _ => false

/-- the steps that a route stands for -/
def routeAgents : RouteName → List AgentName
  | .simpleAnalyst => [.analyst]
  | .analystThenVisual => [.analyst, .visual]
  | .webSearch => [.webSearch]
  | .deepResearch => [.docRetrieval]
  | .clarify => [.clarify]

/-- the fields that hold references -/
def planRefKeys : List String := ["rows_ref", "schema_ref", "source_step_ref"]

/-- a reference of the i-th step names an earlier step that produces what the i-th step reads -/
def Names (keys : List (String × AgentName)) (i : ℕ) (ref : Json) : Prop :=
  ∃ j < i, ∃ source reader, keys[j]? = some source ∧ keys[i]? = some reader ∧ ref = .str source.1 ∧
    feeds source.2 reader.2 = true

/-- every reference of the steps names an earlier step that feeds its own -/
def RefsOk (steps : List PlanStep) : Prop :=
  ∀ i step, steps[i]? = some step → ∀ key ∈ planRefKeys, (get step.input key).truthy = true →
    Names (steps.map stepKey) i (get step.input key)

/-- the part of a well-formed plan that its agents decide -/
structure AgentsOk (c : PlanningConstraints) (route : RouteName) (agents : List AgentName) : Prop where
  allowed : ∀ agent ∈ agents, agentAllowed agent c = true
  route : ∀ agent ∈ routeAgents route, agent ∈ agents

structure WellFormed (c : PlanningConstraints) (plan : Plan) : Prop where
  nonempty : plan.steps ≠ []
  bounded : plan.steps.length ≤ c.maxSteps
  distinct : (plan.steps.map PlanStep.id).Nodup
  agents : AgentsOk c plan.route (plan.steps.map PlanStep.agent)
  refs : RefsOk plan.steps

/-- a plan whose steps are addressed by other ones' keys -/
theorem wellFormed_congr {c : PlanningConstraints} {plan : Plan} {steps : List PlanStep}
    (hkeys : plan.steps.map stepKey = steps.map stepKey) (hne : steps ≠ []) (hmax : steps.length ≤ c.maxSteps)
    (hids : (steps.map PlanStep.id).Nodup) :
    WellFormed c plan ↔ AgentsOk c plan.route (steps.map PlanStep.agent) ∧ RefsOk plan.steps := by
  have hlength : plan.steps.length = steps.length := by
    have h := congrArg List.length hkeys
    rwa [length_map, length_map] at h
  have hagents : plan.steps.map PlanStep.agent = steps.map PlanStep.agent := by
    have h := congrArg (List.map Prod.snd) hkeys
    rwa [List.map_map, List.map_map] at h
  have hid : plan.steps.map PlanStep.id = steps.map PlanStep.id := by
    have h := congrArg (List.map Prod.fst) hkeys
    rwa [List.map_map, List.map_map] at h
  constructor
  · intro h
    have hok := h.agents
    rw [hagents] at hok
    exact ⟨hok, h.refs⟩
  · rintro ⟨hok, hrefs⟩
    refine ⟨?_, hlength ▸ hmax, hid ▸ hids, hagents ▸ hok, hrefs⟩
    rw [← length_pos_iff, hlength, length_pos_iff]
    exact hne

/-! ## Rewrites -/

/-- the references of two steps are the same -/
def SameRefs (a b : PlanStep) : Prop := ∀ key ∈ planRefKeys, get a.input key = get b.input key

section Rewrites

variable [PyText]

theorem rewriteQuestion_refs (rewriteForAgent : AgentName → String → String) (question : String) (step : PlanStep) :
    stepKey (rewriteQuestion rewriteForAgent question step) = stepKey step ∧
      SameRefs (rewriteQuestion rewriteForAgent question step) step := by
  unfold rewriteQuestion
  cases hkey : questionKey step.agent with
  | none => exact ⟨rfl, fun _ _ => rfl⟩
  | some field =>
    have hfield : field = "question" ∨ field = "query" := by
      cases hagent : step.agent with
      | analyst => exact .inl (Option.some.inj (by rw [← hkey, hagent]; rfl))
      | webSearch => exact .inr (Option.some.inj (by rw [← hkey, hagent]; rfl))
      | docRetrieval => exact .inl (Option.some.inj (by rw [← hkey, hagent]; rfl))
      | visual => rw [hagent] at hkey; cases hkey
      | clarify => rw [hagent] at hkey; cases hkey
    simp only
    split_ifs
    · refine ⟨rfl, fun key hmem => ?_⟩
      have hne : key ≠ "original_question" ∧ key ≠ "question" ∧ key ≠ "query" := by
        have h : ∀ k ∈ planRefKeys, k ≠ "original_question" ∧ k ≠ "question" ∧ k ≠ "query" := by decide
        exact h key hmem
      have hother : key ≠ field := by
        rcases hfield with rfl | rfl
        · exact hne.2.1
        · exact hne.2.2
      rw [get_set_ne _ _ hother, get_set_ne _ _ hne.1]
    · exact ⟨rfl, fun _ _ => rfl⟩

/-- of the references a rewrite changes the source, and only when it carries one -/
theorem rewriteInput_refs (question : String) (agent : AgentName) (rewrite input : Dict String Json) :
    (∀ key ∈ ["rows_ref", "schema_ref"], get (rewriteInput question agent rewrite input) key = get input key) ∧
      get (rewriteInput question agent rewrite input) "source_step_ref" =
        (rewriteSource rewrite).elim (get input "source_step_ref") .str := by
  -- neither the question nor the instruction of a rewrite is a reference
  have hasked : ∀ (o : Option String) (d : Dict String Json) (key : String), key ∈ planRefKeys →
      get (o.elim d fun text =>
        if agent = .webSearch then d.set "query" (.str (strip text))
        else if (d.set "question" (.str (strip text))).has "original_question" then
          d.set "question" (.str (strip text))
        else (d.set "question" (.str (strip text))).set "original_question" (.str question)) key =
      get d key := by
    intro o d key hmem
    have h : ∀ k ∈ planRefKeys, k ≠ "original_question" ∧ k ≠ "question" ∧ k ≠ "query" := by decide
    obtain ⟨horiginal, hquestion, hquery⟩ := h key hmem
    cases o with
    | none => rfl
    | some text =>
      simp only [elim_some]
      split_ifs
      · exact get_set_ne _ _ hquery
      · exact get_set_ne _ _ hquestion
      · rw [get_set_ne _ _ horiginal, get_set_ne _ _ hquestion]
  have hfollow : ∀ (o : Option String) (d : Dict String Json) (key : String), key ∈ planRefKeys →
      get (o.elim d fun text => d.set "follow_up" (.str (strip text))) key = get d key := by
    intro o d key hmem
    have h : ∀ k ∈ planRefKeys, k ≠ "follow_up" := by decide
    cases o with
    | none => rfl
    | some text => exact get_set_ne _ _ (h key hmem)
  unfold rewriteInput
  cases hsource : rewriteSource rewrite with
  | none =>
    simp only [elim_none]
    refine ⟨fun key hmem => ?_, ?_⟩
    · have hkey : key ∈ planRefKeys := by
        have h : ∀ k ∈ ["rows_ref", "schema_ref"], k ∈ planRefKeys := by decide
        exact h key hmem
      rw [hfollow _ _ key hkey, hasked _ _ key hkey]
    · rw [hfollow _ _ _ (by decide), hasked _ _ _ (by decide)]
  | some source =>
    simp only [elim_some]
    refine ⟨fun key hmem => ?_, get_set_self _ _ _⟩
    have h : ∀ k ∈ ["rows_ref", "schema_ref"], k ∈ planRefKeys ∧ k ≠ "source_step_ref" := by decide
    rw [get_set_ne _ _ (h key hmem).2, hfollow _ _ key (h key hmem).1, hasked _ _ key (h key hmem).1]

def reached (keys : List (String × AgentName)) : List String → List (Dict String Json) → List (ℕ × Dict String Json)
  | _, [] => []
  | used, rewrite :: rest =>
    match targetStep keys used rewrite with
    | none => reached keys used rest
    | some i => (i, rewrite) :: reached keys (used ++ (keys[i]?.map Prod.fst).toList) rest

/-- the source that the last of some rewrites with a source gives the i-th step -/
def lastSource (i : ℕ) (rewrites : List (ℕ × Dict String Json)) : Option String :=
  (rewrites.filterMap fun e => if e.1 = i then rewriteSource e.2 else none).getLast?

theorem lastSource_cons (i j : ℕ) (rewrite : Dict String Json) (rest : List (ℕ × Dict String Json)) :
    lastSource i ((j, rewrite) :: rest) =
      (lastSource i rest).or (if j = i then rewriteSource rewrite else none) := by
  unfold lastSource
  rw [filterMap_cons]
  by_cases h : j = i
  · simp only [if_pos h]
    cases rewriteSource rewrite with
    | none => rw [or_none]
    | some source =>
      rw [getLast?_cons]
      cases (rest.filterMap fun e => if e.1 = i then rewriteSource e.2 else none).getLast? with
      | none => rfl
      | some last => rfl
  · simp only [if_neg h, or_none]

/-- rewriting changes the sources of the steps that the rewrites reach, to the last one each -/
theorem foldl_applyToolRewrite (question : String) (rewrites : List (Dict String Json)) (steps : List PlanStep)
    (used : List String) :
    (rewrites.foldl (applyToolRewrite question) (steps, used)).1.map stepKey = steps.map stepKey ∧
      ∀ i, (rewrites.foldl (applyToolRewrite question) (steps, used)).1[i]?.map (fun step =>
          (get step.input "rows_ref", get step.input "schema_ref", get step.input "source_step_ref")) =
        steps[i]?.map fun step => (get step.input "rows_ref", get step.input "schema_ref",
          (lastSource i (reached (steps.map stepKey) used rewrites)).elim (get step.input "source_step_ref") .str) := by
  induction rewrites generalizing steps used with
  | nil => exact ⟨rfl, fun _ => rfl⟩
  | cons rewrite rest ih =>
    rw [foldl_cons]
    cases htarget : targetStep (steps.map stepKey) used rewrite with
    | none =>
      have hstep : applyToolRewrite question (steps, used) rewrite = (steps, used) := by
        unfold applyToolRewrite
        simp only [htarget]
      have hreached : reached (steps.map stepKey) used (rewrite :: rest) =
          reached (steps.map stepKey) used rest := by
        rw [reached]
        simp only [htarget]
      rw [hstep, hreached]
      exact ih steps used
    | some j =>
      -- the step at `j` is rewritten, the others are not
      have hused : (steps[j]?.map PlanStep.id).toList = ((steps.map stepKey)[j]?.map Prod.fst).toList := by
        rw [getElem?_map, Option.map_map]
        rfl
      have hstep : applyToolRewrite question (steps, used) rewrite =
          (steps.modify j fun step => { step with input := rewriteInput question step.agent rewrite step.input },
            used ++ ((steps.map stepKey)[j]?.map Prod.fst).toList) := by
        unfold applyToolRewrite
        simp only [htarget]
        rw [hused]
      have hreached : reached (steps.map stepKey) used (rewrite :: rest) =
          (j, rewrite) :: reached (steps.map stepKey) (used ++ ((steps.map stepKey)[j]?.map Prod.fst).toList) rest := by
        rw [reached]
        simp only [htarget]
      have hkeys : (steps.modify j fun step => { step with
          input := rewriteInput question step.agent rewrite step.input }).map stepKey = steps.map stepKey := by
        refine ext_getElem? fun i => ?_
        rw [getElem?_map, getElem?_map, getElem?_modify]
        cases steps[i]? with
        | none => rfl
        | some step =>
          by_cases hij : j = i
          · simp only [if_pos hij]
            rfl
          · simp only [if_neg hij]
            rfl
      obtain ⟨hkeep, hrefs⟩ := ih (steps.modify j fun step => { step with
        input := rewriteInput question step.agent rewrite step.input })
        (used ++ ((steps.map stepKey)[j]?.map Prod.fst).toList)
      rw [hstep, hreached]
      refine ⟨hkeep.trans hkeys, fun i => ?_⟩
      rw [hrefs i, hkeys, getElem?_modify]
      cases steps[i]? with
      | none => rfl
      | some step =>
        simp only [lastSource_cons]
        obtain ⟨hkept, hsource⟩ := rewriteInput_refs question step.agent rewrite step.input
        by_cases hij : j = i
        · simp only [if_pos hij, Option.map_some, Option.map_eq_map]
          rw [hkept "rows_ref" (by decide), hkept "schema_ref" (by decide), hsource]
          cases lastSource i _ with
          | none => rfl
          | some source => rfl
        · simp only [if_neg hij, Option.map_some, Option.map_eq_map, Option.or_none]

end Rewrites

/-! ## The steps of the rules -/

theorem stepId_injective {m n : ℕ} (h : stepId m = stepId n) : m = n :=
  toString_nat_injective ((String.append_right_inj "step-").1 h)

/-- the keys of steps that are numbered in order -/
def numbered (agents : List AgentName) : List (String × AgentName) :=
  agents.mapIdx fun i agent => (stepId (i + 1), agent)

theorem numbered_concat (agents : List AgentName) (agent : AgentName) :
    numbered (agents ++ [agent]) = numbered agents ++ [(stepId (agents.length + 1), agent)] :=
  mapIdx_concat

theorem getElem?_numbered (agents : List AgentName) (i : ℕ) :
    (numbered agents)[i]? = agents[i]?.map fun agent => (stepId (i + 1), agent) :=
  getElem?_mapIdx

@[simp] theorem length_numbered (agents : List AgentName) : (numbered agents).length = agents.length :=
  length_mapIdx

theorem map_snd_numbered (agents : List AgentName) : (numbered agents).map Prod.snd = agents := by
  refine ext_getElem? fun i => ?_
  rw [getElem?_map, getElem?_numbered, Option.map_map]
  exact Option.map_id_fun' ▸ rfl

theorem nodup_numbered (agents : List AgentName) : ((numbered agents).map Prod.fst).Nodup := by
  rw [nodup_iff_getElem?_ne_getElem?]
  intro i j hij hj heq
  rw [length_map, length_numbered] at hj
  rw [getElem?_map, getElem?_map, getElem?_numbered, getElem?_numbered,
    getElem?_eq_getElem hj, getElem?_eq_getElem (hij.trans hj)] at heq
  have h := stepId_injective (Option.some.inj heq)
  omega

theorem names_numbered {agents : List AgentName} {i j : ℕ} {source reader : AgentName} (hji : j < i)
    (hsource : agents[j]? = some source) (hreader : agents[i]? = some reader) (hfeeds : feeds source reader = true) :
    Names (numbered agents) i (.str (stepId (j + 1))) := by
  refine ⟨j, hji, (stepId (j + 1), source), (stepId (i + 1), reader), ?_, ?_, rfl, hfeeds⟩
  · rw [getElem?_numbered, hsource]
    rfl
  · rw [getElem?_numbered, hreader]
    rfl

/-- the last step may name the one before it -/
theorem names_next (agents : List AgentName) {source reader : AgentName} (hfeeds : feeds source reader = true) :
    Names (numbered (agents ++ [source] ++ [reader])) (agents ++ [source]).length (.str (stepId (agents.length + 1))) := by
  refine names_numbered (by rw [length_append]; exact Nat.lt_succ_self _) ?_ ?_ hfeeds
  · rw [append_assoc, getElem?_append_right (le_refl _), Nat.sub_self]
    rfl
  · rw [getElem?_append_right (le_refl _), Nat.sub_self]
    rfl

variable {keys : List (String × AgentName)} {i : ℕ}

/-- what is named stays named when steps are added -/
theorem Names.append {ref : Json} (h : Names keys i ref)
    (more : List (String × AgentName)) : Names (keys ++ more) i ref := by
  obtain ⟨j, hji, source, reader, hsource, hreader, href, hfeeds⟩ := h
  refine ⟨j, hji, source, reader, ?_, ?_, href, hfeeds⟩
  · rw [List.getElem?_append_left (List.getElem?_eq_some_iff.1 hsource).1]
    exact hsource
  · rw [List.getElem?_append_left (List.getElem?_eq_some_iff.1 hreader).1]
    exact hreader

/-- steps of some agents, numbered in order, whose references are in order -/
structure Built (c : PlanningConstraints) (agents : List AgentName) (steps : List PlanStep) : Prop where
  keys : steps.map stepKey = numbered agents
  refs : RefsOk steps
  bounded : agents.length ≤ c.maxSteps

namespace Built

variable {c : PlanningConstraints} {agents : List AgentName} {steps : List PlanStep}

theorem nil : Built c [] [] := by
  refine ⟨rfl, fun i step hstep => ?_, Nat.zero_le _⟩
  cases hstep

theorem length (h : Built c agents steps) : steps.length = agents.length := by
  have hlength := congrArg List.length h.keys
  rwa [length_map, length_numbered] at hlength

/-- a step is added whose references name earlier ones -/
theorem append (h : Built c agents steps) (hlt : agents.length < c.maxSteps) (agent : AgentName)
    {input : Dict String Json} (expectedOutput : Dict String Json)
    (hrefs : ∀ key ∈ planRefKeys, (get input key).truthy = true →
      Names (numbered (agents ++ [agent])) agents.length (get input key)) :
    Built c (agents ++ [agent]) (appendStep c steps agent input expectedOutput) := by
  have hstep : appendStep c steps agent input expectedOutput =
      steps ++ [⟨stepId (agents.length + 1), agent, input, expectedOutput⟩] := by
    unfold appendStep
    rw [if_neg (by rw [h.length]; exact Nat.not_le.2 hlt), h.length]
  have hkeys : (appendStep c steps agent input expectedOutput).map stepKey = numbered (agents ++ [agent]) := by
    rw [hstep, map_append, h.keys, numbered_concat]
    rfl
  refine ⟨hkeys, fun i step hi key hkey htruthy => ?_, ?_⟩
  · rw [hkeys]
    rw [hstep] at hi
    rcases Nat.lt_trichotomy i steps.length with hlt' | heq | hgt
    · rw [getElem?_append_left hlt'] at hi
      have hnames := h.refs i step hi key hkey htruthy
      rw [h.keys] at hnames
      rw [numbered_concat]
      exact hnames.append _
    · rw [heq, getElem?_append_right (le_refl _), Nat.sub_self] at hi
      cases hi
      rw [heq, h.length]
      exact hrefs key hkey htruthy
    · rw [getElem?_eq_none (by rw [length_append, length_singleton]; omega)] at hi
      cases hi
  · rw [length_append, length_singleton]
    exact hlt

variable {agent : AgentName}

theorem last (h : Built c (agents ++ [agent]) steps) :
    ∃ init step, steps = init ++ [step] ∧ init.length = agents.length ∧ step.agent = agent ∧
      step.id = stepId (agents.length + 1) := by
  have hkeys := h.keys
  rw [numbered_concat, map_eq_append_iff] at hkeys
  obtain ⟨init, rest, hsteps, hinit, hrest⟩ := hkeys
  rw [map_eq_singleton_iff] at hrest
  obtain ⟨step, hstep, hkey⟩ := hrest
  refine ⟨init, step, ?_, ?_, congrArg Prod.snd hkey, congrArg Prod.fst hkey⟩
  · rw [hsteps, hstep]
  · have hlength := congrArg List.length hinit
    rwa [length_map, length_numbered] at hlength

theorem idOf_getLast? (h : Built c (agents ++ [agent]) steps) :
    idOf steps.getLast? = .str (stepId (agents.length + 1)) := by
  obtain ⟨init, step, hsteps, _, _, hid⟩ := h.last
  rw [hsteps, getLast?_concat, idOf, hid]

theorem idOf_head? (h : Built c [agent] steps) : idOf steps.head? = .str (stepId 1) := by
  obtain ⟨init, step, hsteps, hinit, _, hid⟩ := @last c [] steps agent h
  rw [length_nil, length_eq_zero_iff] at hinit
  rw [hsteps, hinit, nil_append, head?_cons, idOf, hid]
  rfl

theorem lastAnalyst_concat (h : Built c (agents ++ [.analyst]) steps) :
    (lastAnalyst steps).isSome = true ∧ idOf (lastAnalyst steps) = .str (stepId (agents.length + 1)) := by
  obtain ⟨init, step, hsteps, _, hagent, hid⟩ := h.last
  have hlast : lastAnalyst steps = some step := by
    rw [lastAnalyst, hsteps, reverse_concat, find?_cons_of_pos (by rw [hagent]; rfl)]
  rw [hlast, idOf, hid]
  exact ⟨rfl, rfl⟩

theorem lastAnalyst_none (h : Built c agents steps) (hno : .analyst ∉ agents) : lastAnalyst steps = none := by
  rw [lastAnalyst, find?_eq_none]
  intro step hmem hagent
  refine hno ?_
  rw [← map_snd_numbered agents, ← h.keys, List.map_map, ← of_decide_eq_true hagent]
  exact mem_map_of_mem (mem_reverse.1 hmem)

end Built

/-- a property of the fields that hold references -/
theorem forall_planRefKeys {p : String → Prop} (hrows : p "rows_ref") (hschema : p "schema_ref")
    (hsource : p "source_step_ref") : ∀ key ∈ planRefKeys, p key := by
  intro key hkey
  simp only [planRefKeys, mem_cons, not_mem_nil, or_false] at hkey
  rcases hkey with rfl | rfl | rfl
  · exact hrows
  · exact hschema
  · exact hsource

/-- `None` is no reference -/
theorem null_names {v : Json} (h : v = .null) (htruthy : v.truthy = true) : Names keys i v := by
  rw [h] at htruthy
  cases htruthy

/-- one step without references -/
theorem built_first (c : PlanningConstraints) (agent : AgentName) {input : Dict String Json}
    (expectedOutput : Dict String Json) (hnone : ∀ key ∈ planRefKeys, get input key = .null) :
    Built c [agent] (appendStep c [] agent input expectedOutput) :=
  Built.nil.append c.positive agent expectedOutput fun key hkey => null_names (hnone key hkey)

theorem built_analystSteps (request : PlannerRequest) : Built request.constraints [.analyst] (analystSteps request) :=
  built_first _ _ _ (forall_planRefKeys rfl rfl rfl)

section Rules

variable [PyText]

def ruleAgents (decision : RouteDecision) (request : PlannerRequest) : List AgentName :=
  let c := request.constraints
  let resolves : Bool := (entityResolution request.contextDict).isSome && decide (2 ≤ c.maxSteps)
  match decision.route with
  | .clarify => [.clarify]
  | .simpleAnalyst => if resolves then [.analyst, .analyst] else [.analyst]
  | .analystThenVisual =>
    let analysts := if resolves then [.analyst, .analyst] else [.analyst]
    if analysts.length < c.maxSteps then analysts ++ [.visual] else analysts
  | .webSearch => [.webSearch]
  | .deepResearch =>
    let docs : List AgentName :=
      if shouldUseWebSearch decision request = true ∧ 2 ≤ c.maxSteps then [.webSearch, .docRetrieval]
      else [.docRetrieval]
    if decision.signals.hasSqlSignals = true ∧ docs.length < c.maxSteps then
      if decision.signals.chartable = true ∧ c.requireVizWhenChartable = true ∧ docs.length + 1 < c.maxSteps then
        docs ++ [.analyst, .visual]
      else docs ++ [.analyst]
    else docs

theorem built_visual {request : PlannerRequest} {agents : List AgentName} {steps : List PlanStep}
    (h : Built request.constraints (agents ++ [.analyst]) steps)
    (hlt : agents.length + 1 < request.constraints.maxSteps) :
    Built request.constraints (agents ++ [.analyst] ++ [.visual])
      (appendVisual request steps (.str (stepId (agents.length + 1)))) := by
  have hlength : (agents ++ [AgentName.analyst]).length = agents.length + 1 := length_append
  have hnames := names_next agents (show feeds .analyst .visual = true from rfl)
  refine h.append (by rw [hlength]; exact hlt) .visual _ ?_
  exact forall_planRefKeys (fun _ => hnames) (fun _ => hnames) (null_names rfl)

theorem resolvedSteps_cases (request : PlannerRequest) :
    (((entityResolution request.contextDict).isSome && decide (2 ≤ request.constraints.maxSteps)) = true ∧
        ∃ steps, resolvedSteps request = some steps ∧ Built request.constraints [.analyst, .analyst] steps) ∨
      (((entityResolution request.contextDict).isSome && decide (2 ≤ request.constraints.maxSteps)) = false ∧
        resolvedSteps request = none) := by
  unfold resolvedSteps
  cases hresolution : entityResolution request.contextDict with
  | none => exact .inr ⟨rfl, rfl⟩
  | some resolution =>
    by_cases hmax : 2 ≤ request.constraints.maxSteps
    · refine .inl ⟨by rw [decide_eq_true hmax]; rfl, ?_⟩
      rw [bind_some]
      unfold buildEntityResolutionSteps
      rw [if_neg (Nat.not_lt.2 hmax)]
      refine ⟨_, rfl, ?_⟩
      have hprobe (context : Dict String Json) := built_first request.constraints .analyst
        (tableOutput "tabular_result_set")
        (@forall_planRefKeys (fun key => get (Dict.ofList [("question", .str (probeQuestion resolution)),
          ("context", .obj context.entries), ("constraints", request.constraints.dump)]) key = .null) rfl rfl rfl)
      refine (hprobe _).append hmax .analyst _ ?_
      rw [(hprobe _).idOf_head?]
      exact forall_planRefKeys (null_names rfl) (null_names rfl)
        fun _ => @names_numbered _ _ 0 .analyst .analyst Nat.zero_lt_one rfl rfl rfl
    · refine .inr ⟨by rw [decide_eq_false hmax, Bool.and_false], ?_⟩
      rw [bind_some, buildEntityResolutionSteps, if_pos (Nat.not_le.1 hmax)]

/-- **The steps of the rules.** Before any rewrite they are numbered in order, and every reference is in order. -/
theorem built_buildSteps (decision : RouteDecision) (request : PlannerRequest) :
    Built request.constraints (ruleAgents decision request) (buildSteps decision request) := by
  unfold buildSteps ruleAgents
  cases hroute : decision.route with
  | clarify => exact built_first _ _ _ (forall_planRefKeys rfl rfl rfl)
  | webSearch => exact built_first _ _ _ (forall_planRefKeys rfl rfl rfl)
  | simpleAnalyst =>
    simp only
    rcases resolvedSteps_cases request with ⟨hresolves, steps, hsteps, hbuilt⟩ | ⟨hresolves, hsteps⟩
    · rw [hresolves, hsteps, if_pos rfl]
      exact hbuilt
    · rw [hresolves, hsteps, if_neg Bool.false_ne_true]
      exact built_analystSteps request
  | analystThenVisual =>
    simp only
    unfold analystThenVisualSteps
    rcases resolvedSteps_cases request with ⟨hresolves, steps, hsteps, hbuilt⟩ | ⟨hresolves, hsteps⟩
    · obtain ⟨hsome, hid⟩ := @Built.lastAnalyst_concat _ [.analyst] steps hbuilt
      rw [hresolves, hsteps, if_pos rfl]
      simp only [hbuilt.length, hsome, and_true]
      by_cases hlt : [AgentName.analyst, .analyst].length < request.constraints.maxSteps
      · rw [if_pos hlt, if_pos hlt, hid]
        exact @built_visual _ request [.analyst] steps hbuilt hlt
      · rw [if_neg hlt, if_neg hlt]
        exact hbuilt
    · have hbuilt := built_analystSteps request
      rw [hresolves, hsteps, if_neg Bool.false_ne_true]
      simp only [hbuilt.length]
      by_cases hlt : [AgentName.analyst].length < request.constraints.maxSteps
      · rw [if_pos hlt, if_pos hlt, hbuilt.idOf_head?]
        exact @built_visual _ request [] _ hbuilt hlt
      · rw [if_neg hlt, if_neg hlt]
        exact hbuilt
  | deepResearch =>
    simp only
    -- the document step, after a web search or as the first one
    have hdocs : ∃ first : List AgentName, (first = [] ∨ first = [.webSearch]) ∧
        (if shouldUseWebSearch decision request = true ∧ 2 ≤ request.constraints.maxSteps then
          [AgentName.webSearch, .docRetrieval] else [.docRetrieval]) = first ++ [.docRetrieval] ∧
        Built request.constraints (first ++ [.docRetrieval]) (docSteps decision request) := by
      unfold docSteps
      by_cases hweb : shouldUseWebSearch decision request = true ∧ 2 ≤ request.constraints.maxSteps
      · refine ⟨[.webSearch], .inr rfl, if_pos hweb, ?_⟩
        simp only [if_pos hweb]
        have hfirst : Built request.constraints ([] ++ [.webSearch]) (appendStep request.constraints [] .webSearch
            (webSearchInput request) webSearchOutput) := built_first _ _ _ (forall_planRefKeys rfl rfl rfl)
        rw [hfirst.idOf_getLast?]
        refine hfirst.append hweb.2 .docRetrieval _ ?_
        exact forall_planRefKeys (null_names rfl) (null_names rfl)
          fun _ => @names_numbered _ _ 0 .webSearch .docRetrieval Nat.zero_lt_one rfl rfl rfl
      · refine ⟨[], .inl rfl, if_neg hweb, ?_⟩
        simp only [if_neg hweb]
        exact built_first _ _ _ (forall_planRefKeys rfl rfl rfl)
    obtain ⟨first, hfirst, hagents, hbuilt⟩ := hdocs
    have hlength : (first ++ [AgentName.docRetrieval]).length = first.length + 1 := length_append
    unfold deepResearchSteps
    rw [hagents]
    simp only [hbuilt.length]
    by_cases hsql : decision.signals.hasSqlSignals = true ∧
        (first ++ [AgentName.docRetrieval]).length < request.constraints.maxSteps
    · rw [if_pos hsql, if_pos hsql]
      have hnames := names_next first (show feeds .docRetrieval .analyst = true from rfl)
      have hchecked : Built request.constraints (first ++ [.docRetrieval] ++ [.analyst])
          (appendValidation request (docSteps decision request)) := by
        unfold appendValidation
        rw [hbuilt.idOf_getLast?]
        refine hbuilt.append hsql.2 .analyst _ ?_
        exact forall_planRefKeys (null_names rfl) (null_names rfl) fun _ => hnames
      obtain ⟨hsome, hid⟩ := hchecked.lastAnalyst_concat
      have hchecked_length : (appendValidation request (docSteps decision request)).length =
          (first ++ [AgentName.docRetrieval]).length + 1 := by
        rw [hchecked.length, length_append]
        rfl
      simp only [hchecked_length, hsome, and_true]
      by_cases hchart : decision.signals.chartable = true ∧ request.constraints.requireVizWhenChartable = true ∧
          (first ++ [AgentName.docRetrieval]).length + 1 < request.constraints.maxSteps
      · rw [if_pos hchart, if_pos hchart, hid, append_cons]
        exact built_visual hchecked hchart.2.2
      · rw [if_neg hchart, if_neg hchart]
        exact hchecked
    · rw [if_neg hsql, if_neg hsql, hbuilt.lastAnalyst_none]
      · rw [if_neg (fun h => Bool.false_ne_true h.2.2.2)]
        exact hbuilt
      · rcases hfirst with rfl | rfl
        · decide
        · decide

end Rules

/-! ## What the rewrites leave -/

section Rewritten

variable [PyText]

theorem targetStep_lt {used : List String} {rewrite : Dict String Json}
    (h : targetStep keys used rewrite = some i) : i < keys.length := by
  obtain ⟨agent, _, hfound⟩ := bind_eq_some_iff.1 h
  rcases or_eq_some_iff.1 hfound with hnamed | ⟨_, hfree⟩
  · obtain ⟨id, _, hid⟩ := bind_eq_some_iff.1 hnamed
    exact (findIdx?_eq_some_iff_findIdx_eq.1 hid).1
  · exact (findIdx?_eq_some_iff_findIdx_eq.1 hfree).1

/-- a step that a rewrite gives a source is one of the plan, and the source is a text -/
theorem lastSource_spec {used : List String} {rewrites : List (Dict String Json)} {source : String} (h : lastSource i (reached keys used rewrites) = some source) :
    i < keys.length ∧ source ≠ "" := by
  induction rewrites generalizing used with
  | nil => cases h
  | cons rewrite rest ih =>
    unfold reached at h
    cases htarget : targetStep keys used rewrite with
    | none =>
      simp only [htarget] at h
      exact ih h
    | some j =>
      simp only [htarget, lastSource_cons, or_eq_some_iff] at h
      rcases h with hlater | ⟨_, hown⟩
      · exact ih hlater
      · by_cases hij : j = i
        · rw [if_pos hij] at hown
          refine ⟨hij ▸ targetStep_lt htarget, ?_⟩
          obtain ⟨text, htext, hstrip⟩ := map_eq_some_iff.1 hown
          unfold nonBlank at htext
          split at htext
          · split_ifs at htext with hblank
            cases htext
            rwa [← hstrip]
          · cases htext
        · rw [if_neg hij] at hown
          cases hown

/-- the rewrites leave the ids and the agents -/
theorem keys_rewritten (rewriteForAgent : AgentName → String → String) (request : PlannerRequest) (plan : Plan) :
    (rewritten rewriteForAgent request plan).steps.map stepKey = plan.steps.map stepKey := by
  rw [← (foldl_applyToolRewrite request.question (extractToolRewrites request.contextDict) plan.steps []).1, rewritten,
    List.map_map]
  exact map_congr_left fun step _ => (rewriteQuestion_refs rewriteForAgent request.question step).1

/-- **What the rewrites leave.** When the references of a plan are in order before the rewrites, they are so afterwards
exactly if the sources that the rewrites leave are. -/
theorem refsOk_rewritten_iff (rewriteForAgent : AgentName → String → String) (request : PlannerRequest)
    {steps : List PlanStep} (hrefs : RefsOk steps) :
    RefsOk ((applyToolRewrites request steps).map (rewriteQuestion rewriteForAgent request.question)) ↔
      ∀ i source, lastSource i (reached (steps.map stepKey) [] (extractToolRewrites request.contextDict)) =
        some source → Names (steps.map stepKey) i (.str source) := by
  have hread := (foldl_applyToolRewrite request.question (extractToolRewrites request.contextDict) steps []).2
  have hfinal : ((applyToolRewrites request steps).map (rewriteQuestion rewriteForAgent request.question)).map stepKey =
      steps.map stepKey := keys_rewritten rewriteForAgent request ⟨.clarify, steps, "", []⟩
  -- the references of each step after all rewrites
  have hstep : ∀ i step,
      ((applyToolRewrites request steps).map (rewriteQuestion rewriteForAgent request.question))[i]? = some step →
      ∃ original, steps[i]? = some original ∧ get step.input "rows_ref" = get original.input "rows_ref" ∧
        get step.input "schema_ref" = get original.input "schema_ref" ∧
        get step.input "source_step_ref" =
          (lastSource i (reached (steps.map stepKey) [] (extractToolRewrites request.contextDict))).elim
            (get original.input "source_step_ref") .str := by
    intro i step hi
    rw [getElem?_map, map_eq_some_iff] at hi
    obtain ⟨rewritten, hrewritten, hquestion⟩ := hi
    obtain ⟨_, hsame⟩ := rewriteQuestion_refs rewriteForAgent request.question rewritten
    rw [hquestion] at hsame
    have h := hread i
    rw [applyToolRewrites] at hrewritten
    rw [hrewritten, map_some] at h
    obtain ⟨original, horiginal, heq⟩ := map_eq_some_iff.1 h.symm
    rw [Prod.mk.injEq, Prod.mk.injEq] at heq
    refine ⟨original, horiginal, ?_, ?_, ?_⟩
    · rw [hsame "rows_ref" (by decide), heq.1]
    · rw [hsame "schema_ref" (by decide), heq.2.1]
    · rw [hsame "source_step_ref" (by decide), heq.2.2]
  constructor
  · intro hok i source hsource
    obtain ⟨hlt, hne⟩ := lastSource_spec hsource
    have hlength : i < ((applyToolRewrites request steps).map
        (rewriteQuestion rewriteForAgent request.question)).length := by
      have h := congrArg List.length hfinal
      rw [length_map] at h
      rw [h]
      exact hlt
    obtain ⟨original, _, _, _, hvalue⟩ := hstep i _ (getElem?_eq_getElem hlength)
    rw [hsource, elim_some] at hvalue
    have hnames := hok i _ (getElem?_eq_getElem hlength) "source_step_ref" (by decide)
    rw [hvalue, hfinal] at hnames
    exact hnames (decide_eq_true hne)
  · intro hsources i step hi
    obtain ⟨original, horiginal, hrows, hschema, hsource⟩ := hstep i step hi
    have hkept := hrefs i original horiginal
    rw [hfinal]
    refine forall_planRefKeys (fun htruthy => ?_) (fun htruthy => ?_) (fun htruthy => ?_)
    · rw [hrows] at htruthy ⊢
      exact hkept "rows_ref" (by decide) htruthy
    · rw [hschema] at htruthy ⊢
      exact hkept "schema_ref" (by decide) htruthy
    · rw [hsource] at htruthy ⊢
      cases hlast : lastSource i (reached (steps.map stepKey) [] (extractToolRewrites request.contextDict)) with
      | none =>
        rw [hlast, elim_none] at htruthy
        exact hkept "source_step_ref" (by decide) htruthy
      | some source => exact hsources i source hlast

omit [PyText] in
/-- without a routing request there is nothing to rewrite -/
theorem extractToolRewrites_nil {request : PlannerRequest} (h : shouldBypassLlm request = false) :
    extractToolRewrites request.contextDict = [] := by
  have hnone : ∀ key ∈ ["reasoning", "routing"], rewritesAt request.contextDict key = none := by
    intro key hkey
    have hempty := any_eq_false.1 h key hkey
    unfold rewritesAt
    cases hpayload : dictAt request.contextDict key with
    | none => rfl
    | some payload =>
      rw [hpayload, any_some, Bool.not_eq_true, Bool.not_eq_false', List.isEmpty_iff] at hempty
      rw [bind_some, Dict.get?, hempty]
      rfl
  rw [extractToolRewrites, hnone "reasoning" (by decide), hnone "routing" (by decide)]
  rfl

end Rewritten

/-! ## The plan of the rules -/

section RulePlan

variable [PyDigits]

/-- when the plan of the rules is well formed -/
structure RuleSound (request : PlannerRequest) : Prop where
  /-- an entity resolution leaves room for the chart -/
  charted : ¬((Router.chooseRoute request).route = .analystThenVisual ∧
    (entityResolution request.contextDict).isSome = true ∧ request.constraints.maxSteps = 2)
  /-- no research is validated with SQL that is not allowed -/
  validated : ¬((Router.chooseRoute request).route = .deepResearch ∧ request.constraints.allowSqlAnalyst = false ∧
    (Router.extractSignals request.question).hasSqlSignals = true ∧
    (shouldUseWebSearch (Router.chooseRoute request) request = true → 3 ≤ request.constraints.maxSteps))
  /-- the last source that the rewrites give a step is an earlier one that feeds it -/
  sources : ∀ i source, lastSource i (reached (numbered (ruleAgents (Router.chooseRoute request) request)) []
      (extractToolRewrites request.contextDict)) = some source →
    Names (numbered (ruleAgents (Router.chooseRoute request) request)) i (.str source)

omit [PyDigits] in
/-- the agents of the rules are allowed and those of the route, the two exceptions apart -/
theorem agentsOk_ruleAgents_iff [PyText] {decision : RouteDecision} {request : PlannerRequest}
    (havailable : Router.routeIsAvailable decision.route decision.signals request.constraints = true) :
    AgentsOk request.constraints decision.route (ruleAgents decision request) ↔
      ¬(decision.route = .analystThenVisual ∧ (entityResolution request.contextDict).isSome = true ∧
          request.constraints.maxSteps = 2) ∧
        ¬(decision.route = .deepResearch ∧ request.constraints.allowSqlAnalyst = false ∧
          decision.signals.hasSqlSignals = true ∧
          (shouldUseWebSearch decision request = true → 3 ≤ request.constraints.maxSteps)) := by
  unfold ruleAgents
  cases hroute : decision.route with
  | clarify =>
    refine ⟨fun _ => ⟨fun h => (by cases h.1), fun h => (by cases h.1)⟩, fun _ => ⟨?_, ?_⟩⟩
    · exact forall_mem_singleton.2 rfl
    · exact fun agent h => h
  | simpleAnalyst =>
    rw [hroute] at havailable
    have hsql : request.constraints.allowSqlAnalyst = true := (Bool.and_eq_true_iff.1 havailable).1
    refine ⟨fun _ => ⟨fun h => (by cases h.1), fun h => (by cases h.1)⟩, fun _ => ?_⟩
    simp only
    split_ifs
    · exact ⟨fun agent h => by rw [eq_of_mem_replicate (n := 2) h]; exact hsql, fun agent h =>
        mem_cons.2 (.inl (mem_singleton.1 h))⟩
    · exact ⟨forall_mem_singleton.2 hsql, fun agent h => h⟩
  | analystThenVisual =>
    rw [hroute] at havailable
    have hsql : request.constraints.allowSqlAnalyst = true := (Bool.and_eq_true_iff.1 havailable).1
    have hmax : 2 ≤ request.constraints.maxSteps := of_decide_eq_true (Bool.and_eq_true_iff.1 havailable).2
    have hallowed : ∀ agents : List AgentName, (∀ agent ∈ agents, agent = .analyst ∨ agent = .visual) →
        ∀ agent ∈ agents, agentAllowed agent request.constraints = true := by
      intro agents hagents agent hmem
      rcases hagents agent hmem with h | h
      · rw [h]
        exact hsql
      · rw [h]
        exact hsql
    by_cases hentity : (entityResolution request.contextDict).isSome = true
    · simp only [hentity, decide_eq_true hmax, Bool.and_self, if_true, true_and]
      by_cases hlt : [AgentName.analyst, .analyst].length < request.constraints.maxSteps
      · rw [if_pos hlt]
        refine ⟨fun _ => ⟨fun h => ?_, fun h => (by cases h.1)⟩, fun _ => ⟨hallowed _ (by decide), by decide⟩⟩
        rw [h] at hlt
        exact absurd hlt (by decide)
      · rw [if_neg hlt]
        refine ⟨fun h => ?_, fun h => ?_⟩
        · exact absurd (h.route .visual (by decide)) (by decide)
        · exact absurd (le_antisymm (Nat.not_lt.1 hlt) hmax) h.1
    · simp only [hentity, Bool.false_and, Bool.false_eq_true, if_false, false_and, and_false, not_false_eq_true]
      rw [if_pos (show [AgentName.analyst].length < request.constraints.maxSteps from hmax)]
      exact ⟨fun _ => ⟨trivial, fun h => (by cases h.1)⟩, fun _ => ⟨hallowed _ (by decide), by decide⟩⟩
  | webSearch =>
    rw [hroute] at havailable
    have hweb : request.constraints.allowWebSearch = true := (Bool.and_eq_true_iff.1 havailable).1
    refine ⟨fun _ => ⟨fun h => (by cases h.1), fun h => (by cases h.1)⟩, fun _ => ⟨?_, fun agent h => h⟩⟩
    exact forall_mem_singleton.2 hweb
  | deepResearch =>
    rw [hroute] at havailable
    have hdeep : request.constraints.allowDeepResearch = true := (Bool.and_eq_true_iff.1 havailable).1
    have hsteps := of_decide_eq_true (Bool.and_eq_true_iff.1 havailable).2
    -- the document step and the search before it are allowed, and the former is the route's
    have hsearch : shouldUseWebSearch decision request = true →
        AgentsOk request.constraints .deepResearch [.webSearch, .docRetrieval] := by
      intro hweb
      have hallow : request.constraints.allowWebSearch = true :=
        (Bool.and_eq_true_iff.1 (Bool.and_eq_true_iff.1 hweb).1).1
      exact ⟨forall_mem_cons.2 ⟨hallow, forall_mem_singleton.2 hdeep⟩, by decide⟩
    have hdoc : AgentsOk request.constraints .deepResearch [.docRetrieval] :=
      ⟨forall_mem_singleton.2 hdeep, by decide⟩
    have hmore : ∀ docs more : List AgentName, AgentsOk request.constraints .deepResearch docs → .analyst ∈ more →
        (∀ agent ∈ more, agent = .analyst ∨ agent = .visual) →
        (AgentsOk request.constraints .deepResearch (docs ++ more) ↔ request.constraints.allowSqlAnalyst = true) := by
      intro docs more hdocs hanalyst hagents
      refine ⟨fun h => h.allowed .analyst (mem_append_right docs hanalyst), fun hsql => ⟨?_, ?_⟩⟩
      · intro agent hmem
        rcases mem_append.1 hmem with hmem | hmem
        · exact hdocs.allowed agent hmem
        · rcases hagents agent hmem with h | h
          · rw [h]
            exact hsql
          · rw [h]
            exact hsql
      · exact fun agent hmem => mem_append_left more (hdocs.route agent hmem)
    have hvalidated : ∀ docs : List AgentName, AgentsOk request.constraints .deepResearch docs →
        (AgentsOk request.constraints .deepResearch
          (if decision.signals.chartable = true ∧ request.constraints.requireVizWhenChartable = true ∧
            docs.length + 1 < request.constraints.maxSteps then docs ++ [.analyst, .visual] else docs ++ [.analyst]) ↔
          request.constraints.allowSqlAnalyst = true) := by
      intro docs hdocs
      split_ifs
      · exact hmore docs _ hdocs (by decide) (by decide)
      · exact hmore docs _ hdocs (by decide) (by decide)
    have hroute_ne : ¬(RouteName.deepResearch = .analystThenVisual ∧
        (entityResolution request.contextDict).isSome = true ∧ request.constraints.maxSteps = 2) :=
      fun h => (by cases h.1)
    simp only [hroute_ne, not_false_eq_true, true_and]
    by_cases hsql : decision.signals.hasSqlSignals = true
    · have hmax : 2 ≤ request.constraints.maxSteps := by
        simp only [Router.estimateStepCount, hsql, if_true] at hsteps
        omega
      by_cases hweb : shouldUseWebSearch decision request = true
      · simp only [hsql, hweb, hmax, and_self, if_true, true_and, forall_const]
        by_cases hroom : [AgentName.webSearch, .docRetrieval].length < request.constraints.maxSteps
        · have hthree : 3 ≤ request.constraints.maxSteps := hroom
          rw [if_pos hroom, hvalidated _ (hsearch hweb)]
          simp only [hthree, and_true, Bool.not_eq_false]
        · have hthree : ¬3 ≤ request.constraints.maxSteps := hroom
          rw [if_neg hroom]
          simp only [hthree, and_false, not_false_eq_true, iff_true]
          exact hsearch hweb
      · have hroom : [AgentName.docRetrieval].length < request.constraints.maxSteps := hmax
        simp only [hsql, hweb, false_and, Bool.false_eq_true, if_false, hroom, if_true, false_implies,
          and_true, Bool.not_eq_false]
        exact hvalidated _ hdoc
    · simp only [hsql, false_and, Bool.false_eq_true, if_false, and_false, not_false_eq_true, iff_true]
      split_ifs with hweb
      · exact hsearch hweb.1
      · exact hdoc

theorem ruleAgents_ne_nil (decision : RouteDecision) (request : PlannerRequest) : ruleAgents decision request ≠ [] := by
  unfold ruleAgents
  simp only
  split
  · exact cons_ne_nil _ _
  · split_ifs <;> exact cons_ne_nil _ _
  · split_ifs <;> exact cons_ne_nil _ _
  · exact cons_ne_nil _ _
  · split_ifs <;> exact cons_ne_nil _ _

/-- **The plan of the rules.** It is well formed exactly when its route has room for its chart, no disabled SQL step is
added, and the rewrites name their sources rightly. -/
theorem rulePlan_wellFormed_iff (rewriteForAgent : AgentName → String → String) (request : PlannerRequest) :
    WellFormed request.constraints (rewritten rewriteForAgent request (rulePlan request)) ↔ RuleSound request := by
  set decision := Router.chooseRoute request with hdecision
  have hbuilt := built_buildSteps decision request
  have hsteps : (buildSteps decision request).map stepKey =
      numbered (ruleAgents decision request) := hbuilt.keys
  have hagents : (buildSteps decision request).map PlanStep.agent =
      ruleAgents decision request := by
    rw [← map_snd_numbered (ruleAgents _ _), ← hsteps, List.map_map]
    rfl
  have hids : ((buildSteps decision request).map PlanStep.id).Nodup := by
    have h := nodup_numbered (ruleAgents decision request)
    rw [← hsteps, List.map_map] at h
    exact h
  have hne : buildSteps decision request ≠ [] := by
    intro h
    rw [h] at hagents
    exact ruleAgents_ne_nil _ _ hagents.symm
  have havailable := Router.chooseRoute_available request
  rw [← Router.chooseRoute_signals request] at havailable
  have hmax : (buildSteps decision request).length ≤ request.constraints.maxSteps := by
    rw [hbuilt.length]
    exact hbuilt.bounded
  have hkeys : (rewritten rewriteForAgent request (rulePlan request)).steps.map stepKey =
      (buildSteps decision request).map stepKey := keys_rewritten rewriteForAgent request _
  rw [wellFormed_congr hkeys hne hmax hids]
  have hrefs := refsOk_rewritten_iff rewriteForAgent request hbuilt.refs
  rw [hsteps] at hrefs
  rw [show (rewritten rewriteForAgent request (rulePlan request)).route = decision.route from rfl,
    hagents, agentsOk_ruleAgents_iff havailable, Router.chooseRoute_signals]
  constructor
  · rintro ⟨⟨hcharted, hvalidated⟩, hok⟩
    exact ⟨hcharted, hvalidated, hrefs.1 hok⟩
  · rintro ⟨hcharted, hvalidated, hsources⟩
    exact ⟨⟨hcharted, hvalidated⟩, hrefs.2 hsources⟩

end RulePlan

end Planner

end Langbridge.Orchestrator
