/-
The plan of a language model's answer, and of the planner as a whole. Steps that can be read have distinct ids and
allowed agents, and there are not too many of them. References that name no step are replaced by the last step that may
stand for them, if there is one; those that name a step are kept, whichever step it is.
-/
import Langbridge.Orchestrator.PlanShape

namespace Langbridge.Orchestrator

open Core List Dict Option

namespace Planner

open Router (get get_set_ne get_set_self dictAt)

/-! ## What is read of an answer -/

section Answers

variable [PyText]

theorem readStep_spec {c : PlanningConstraints} {state next : ReadSteps} {raw : Json}
    (h : readStep c state raw = some next) :
    ∃ step, next.steps = state.steps ++ [step] ∧ agentAllowed step.agent c = true ∧
      step.id ∉ state.steps.map PlanStep.id := by
  unfold readStep at h
  split at h
  · rename_i fields
    cases hagent : normalizeAgentName (get (Dict.ofList fields) "agent") with
    | none =>
      simp only [hagent] at h
      cases h
    | some agent =>
      simp only [hagent] at h
      split_ifs at h with hrefused
      cases h
      rw [not_or, Bool.not_eq_false] at hrefused
      exact ⟨_, rfl, hrefused.1, hrefused.2⟩
  · cases h

/-- the steps that are read have allowed agents and distinct ids -/
theorem foldlM_readStep {c : PlanningConstraints} {raws : List Json} {state read : ReadSteps}
    (hids : (state.steps.map PlanStep.id).Nodup)
    (hallowed : ∀ agent ∈ state.steps.map PlanStep.agent, agentAllowed agent c = true)
    (h : raws.foldlM (readStep c) state = some read) :
    (read.steps.map PlanStep.id).Nodup ∧
      ∀ agent ∈ read.steps.map PlanStep.agent, agentAllowed agent c = true := by
  induction raws generalizing state with
  | nil =>
    cases h
    exact ⟨hids, hallowed⟩
  | cons raw raws ih =>
    obtain ⟨next, hnext, hrest⟩ := bind_eq_some_iff.1 h
    obtain ⟨step, hsteps, hagent, hid⟩ := readStep_spec hnext
    refine ih ?_ ?_ hrest
    · rw [hsteps, map_append, map_singleton]
      exact concat_eq_append ▸ List.Nodup.concat hid hids
    · rw [hsteps, map_append, map_singleton]
      intro agent hmem
      rcases mem_append.1 hmem with hmem | hmem
      · exact hallowed agent hmem
      · rw [mem_singleton.1 hmem]
        exact hagent

/-- **What is read of an answer.** Some steps, not too many, with distinct ids and allowed agents. -/
theorem readPlan_spec {c : PlanningConstraints} {payload : Dict String Json} {route : RouteName} {read : ReadSteps}
    (h : readPlan c payload = some (route, read)) :
    read.steps ≠ [] ∧ read.steps.length ≤ c.maxSteps ∧ (read.steps.map PlanStep.id).Nodup ∧
      ∀ agent ∈ read.steps.map PlanStep.agent, agentAllowed agent c = true := by
  obtain ⟨r, _, h⟩ := bind_eq_some_iff.1 h
  split_ifs at h
  obtain ⟨read', hread, h⟩ := bind_eq_some_iff.1 h
  cases h
  unfold readSteps at hread
  split at hread
  · rw [filter_eq_some_iff, filter_eq_some_iff] at hread
    obtain ⟨⟨hfold, hne⟩, hmax⟩ := hread
    refine ⟨of_decide_eq_true hne, of_decide_eq_true hmax, foldlM_readStep ?_ ?_ hfold⟩
    · exact nodup_nil
    · exact fun agent h => absurd h not_mem_nil
  · cases hread

end Answers

/-! ## References of an answer -/

/-- a reference to an id as it was written -/
theorem get_mapRefs (idMap : Dict String String) (input : Dict String Json) :
    ∀ key ∈ planRefKeys, get (mapRefs idMap input) key = mapRef idMap (get input key) := by
  have hstep : ∀ (d : Dict String Json) (key other : String),
      get (if d.has key then d.set key (mapRef idMap (get d key)) else d) other =
        if other = key then mapRef idMap (get d key) else get d other := by
    intro d key other
    by_cases hkey : other = key
    · rw [if_pos hkey, hkey]
      split_ifs with hhas
      · exact get_set_self _ _ _
      · have hnone : get d key = .null := by
          unfold Router.get
          rw [not_isSome_iff_eq_none.1 hhas]
          rfl
        rw [hnone]
        rfl
    · split_ifs
      · exact get_set_ne _ _ hkey
      · rfl
  unfold mapRefs refKeys
  simp only [foldl_cons, foldl_nil]
  refine forall_planRefKeys ?_ ?_ ?_
  · rw [hstep, if_neg (by decide), hstep, if_neg (by decide), hstep, if_neg (by decide), hstep, if_pos rfl]
  · rw [hstep, if_neg (by decide), hstep, if_neg (by decide), hstep, if_pos rfl, hstep, if_neg (by decide)]
  · rw [hstep, if_neg (by decide), hstep, if_pos rfl, hstep, if_neg (by decide), hstep, if_neg (by decide)]

theorem has_mapRefs (idMap : Dict String String) (input : Dict String Json) (field : String) :
    (mapRefs idMap input).has field = input.has field := by
  have hstep : ∀ (d : Dict String Json) (key : String),
      (if d.has key then d.set key (mapRef idMap (get d key)) else d).has field = d.has field := by
    intro d key
    split_ifs with hhas
    · rw [Bool.eq_iff_iff, has_iff, has_iff, mem_keys_set]
      refine ⟨fun h => h.elim id fun h => ?_, .inl⟩
      rw [h]
      exact (has_iff d key).1 hhas
    · rfl
  unfold mapRefs refKeys
  simp only [foldl_cons, foldl_nil]
  rw [hstep, hstep, hstep, hstep]

/-- a reference that names no step gives way to the last step of an agent, if there is one -/
def repairedRef (ids : List String) (last : Option String) (v : Json) : Json :=
  last.elim v fun id => if listed ids v then v else .str id

/-- one reference is repaired unless it cannot be hashed; the others are left alone -/
theorem repair_spec (ids : List String) (lasts : Lasts) (input : Dict String Json) (entry : String × AgentName) :
    (lasts entry.2 ≠ none ∧ hashable (get input entry.1) = false ∧ repair ids lasts input entry = .error .unhashable) ∨
      ((lasts entry.2 ≠ none → hashable (get input entry.1) = true) ∧
        ∃ out, repair ids lasts input entry = .ok out ∧
          get out entry.1 = repairedRef ids (lasts entry.2) (get input entry.1) ∧
          (∀ key, key ≠ entry.1 → get out key = get input key)) := by
  unfold repair repairedRef
  cases hlast : lasts entry.2 with
  | none => exact .inr ⟨fun h => absurd rfl h, input, rfl, rfl, fun _ _ => rfl⟩
  | some last =>
    cases hhash : hashable (get input entry.1) with
    | false =>
      refine .inl ⟨some_ne_none last, rfl, ?_⟩
      simp only [isIn, hhash]
      rfl
    | true =>
      refine .inr ⟨fun _ => rfl, ?_⟩
      simp only [isIn, hhash, if_true]
      refine ⟨_, rfl, ?_, fun key hne => ?_⟩
      · cases listed ids (get input entry.1) with
        | false => exact get_set_self _ _ _
        | true => rfl
      · cases listed ids (get input entry.1) with
        | false => exact get_set_ne _ _ hne
        | true => rfl

/-- references of different fields are repaired unless one cannot be hashed -/
theorem foldlM_repair (ids : List String) (lasts : Lasts) (entries : List (String × AgentName))
    (hnodup : (entries.map Prod.fst).Nodup) (input : Dict String Json) :
    ((∃ out, entries.foldlM (repair ids lasts) input = .ok out) ↔
        ∀ key agent, entries.lookup key = some agent → lasts agent ≠ none → hashable (get input key) = true) ∧
      ∀ out, entries.foldlM (repair ids lasts) input = .ok out →
        ∀ key, get out key = repairedRef ids ((entries.lookup key).bind lasts) (get input key) := by
  induction entries generalizing input with
  | nil =>
    refine ⟨⟨fun _ key agent h => (by cases h), fun _ => ⟨input, rfl⟩⟩, fun out h key => ?_⟩
    cases h
    rfl
  | cons entry rest ih =>
    obtain ⟨field, source⟩ := entry
    rw [map_cons, nodup_cons] at hnodup
    have hfield : rest.lookup field = none := by
      rw [lookup_eq_none_iff]
      intro e he
      rw [bne_iff_ne]
      intro heq
      refine hnodup.1 ?_
      rw [heq]
      exact mem_map.2 ⟨e, he, rfl⟩
    rw [foldlM_cons]
    rcases repair_spec ids lasts input (field, source) with
      ⟨hlast, hhash, hrepair⟩ | ⟨hhash, next, hrepair, hself, hother⟩
    · rw [hrepair]
      refine ⟨⟨fun h => (by cases h.choose_spec), fun h => ?_⟩, fun out h => (by cases h)⟩
      rw [h field source (lookup_cons_self) hlast] at hhash
      cases hhash
    · obtain ⟨hiff, hvalues⟩ := ih hnodup.2 next
      rw [hrepair]
      refine ⟨Iff.trans hiff ⟨fun h key agent hlookup => ?_, fun h key agent hlookup => ?_⟩, fun out h key => ?_⟩
      · by_cases hkey : key = field
        · rw [hkey, lookup_cons_self] at hlookup
          cases hlookup
          rw [hkey]
          exact hhash
        · rw [lookup_cons_ne hkey] at hlookup
          rw [← hother key hkey]
          exact h key agent hlookup
      · have hkey : key ≠ field := by
          rintro rfl
          rw [hfield] at hlookup
          cases hlookup
        rw [hother key hkey]
        refine h key agent ?_
        rw [lookup_cons_ne hkey]
        exact hlookup
      · rw [hvalues out h key]
        by_cases hkey : key = field
        · rw [hkey, hfield, lookup_cons_self, hself]
          rfl
        · rw [hother key hkey, lookup_cons_ne hkey]

theorem nodup_repairs (agent : AgentName) : ((repairs agent).map Prod.fst).Nodup := by
  cases agent <;> decide

/-- the last steps of the agents after the i-th step -/
def lastsAt (lasts : Lasts) (steps : List PlanStep) (i : ℕ) : Lasts := (steps.take (i + 1)).foldl Lasts.seen lasts

/-- **References of an answer.** They are rewritten unless one that is looked up cannot be hashed; the ids and the
agents stay, and each reference becomes the one that is read, or the last step that may stand for it. -/
theorem rewriteStepReferences_spec (ids : List String) (idMap : Dict String String) (lasts : Lasts)
    (steps : List PlanStep) :
    ((∃ out, rewriteStepReferences ids idMap lasts steps = .ok out) ↔
        ∀ (i : ℕ) step, steps[i]? = some step → ∀ key ∈ planRefKeys, ∀ agent,
          (repairs step.agent).lookup key = some agent → lastsAt lasts steps i agent ≠ none →
          hashable (mapRef idMap (get step.input key)) = true) ∧
      ∀ out, rewriteStepReferences ids idMap lasts steps = .ok out →
        out.map stepKey = steps.map stepKey ∧
          ∀ (i : ℕ) step, out[i]? = some step → ∃ original, steps[i]? = some original ∧ ∀ key ∈ planRefKeys,
            get step.input key =
              repairedRef ids (((repairs original.agent).lookup key).bind (lastsAt lasts steps i))
                (mapRef idMap (get original.input key)) := by
  induction steps generalizing lasts with
  | nil =>
    refine ⟨⟨fun _ i step h => ?_, fun _ => ⟨[], rfl⟩⟩, fun out h => ?_⟩
    · cases h
    · cases h
      refine ⟨rfl, fun i step h => ?_⟩
      cases h
  | cons step rest ih =>
    obtain ⟨hiff, hvalues⟩ := foldlM_repair ids (lasts.seen step) (repairs step.agent) (nodup_repairs step.agent)
      (mapRefs idMap step.input)
    obtain ⟨hrest, hrestValues⟩ := ih (lasts.seen step)
    -- a field that is repaired holds a reference
    have hkeys : ∀ key agent, (repairs step.agent).lookup key = some agent → key ∈ planRefKeys := by
      intro key agent h
      have hmem := (lookup_eq_some_iff _ (nodup_repairs step.agent) key agent).1 h
      have hall : ∀ a, ∀ e ∈ repairs a, e.1 ∈ planRefKeys := by
        intro a
        cases a <;> decide
      exact hall step.agent _ hmem
    have hfirst : (∃ input, (repairs step.agent).foldlM (repair ids (lasts.seen step)) (mapRefs idMap step.input) =
          .ok input) ↔
        ∀ key ∈ planRefKeys, ∀ agent, (repairs step.agent).lookup key = some agent → lasts.seen step agent ≠ none →
          hashable (mapRef idMap (get step.input key)) = true := by
      rw [hiff]
      refine ⟨fun h key hkey agent hlookup hlast => ?_, fun h key agent hlookup hlast => ?_⟩
      · rw [← get_mapRefs idMap step.input key hkey]
        exact h key agent hlookup hlast
      · rw [get_mapRefs idMap step.input key (hkeys key agent hlookup)]
        exact h key (hkeys key agent hlookup) agent hlookup hlast
    -- the first step and the rest go through on their own
    have hparts : ∀ out, rewriteStepReferences ids idMap lasts (step :: rest) = .ok out →
        ∃ input tail, (repairs step.agent).foldlM (repair ids (lasts.seen step)) (mapRefs idMap step.input) =
          .ok input ∧ rewriteStepReferences ids idMap (lasts.seen step) rest = .ok tail ∧
          out = { step with input } :: tail := by
      intro out h
      obtain ⟨input, hinput, h⟩ := of_bind_ok h
      obtain ⟨tail, htail, h⟩ := of_bind_ok h
      cases h
      exact ⟨input, tail, hinput, htail, rfl⟩
    constructor
    · constructor
      · rintro ⟨out, h⟩
        obtain ⟨input, tail, hinput, htail, _⟩ := hparts out h
        intro i s hs
        cases i with
        | zero =>
          cases hs
          exact hfirst.1 ⟨input, hinput⟩
        | succ i => exact hrest.1 ⟨tail, htail⟩ i s hs
      · intro h
        obtain ⟨input, hinput⟩ := hfirst.2 (h 0 step rfl)
        obtain ⟨tail, htail⟩ := hrest.2 fun i s hs => h (i + 1) s hs
        refine ⟨{ step with input } :: tail, ?_⟩
        simp only [rewriteStepReferences, hinput, htail, bind, Except.bind]
        rfl
    · intro out h
      obtain ⟨input, tail, hinput, htail, rfl⟩ := hparts out h
      obtain ⟨htailKeys, htailValues⟩ := hrestValues tail htail
      refine ⟨?_, fun i s hs => ?_⟩
      · rw [map_cons, map_cons, htailKeys]
        rfl
      · cases i with
        | zero =>
          cases hs
          refine ⟨step, rfl, fun key hkey => ?_⟩
          rw [← get_mapRefs idMap step.input key hkey]
          exact hvalues input hinput key
        | succ i => exact htailValues i s hs

/-- the last step of an agent is one of those that have been seen -/
theorem lastsAt_spec (steps : List PlanStep) (i : ℕ) (hi : i < steps.length) (agent : AgentName) :
    (lastsAt (fun _ => none) steps i agent = none → ∀ j ≤ i, ∀ step, steps[j]? = some step → step.agent ≠ agent) ∧
      ∀ last, lastsAt (fun _ => none) steps i agent = some last →
        ∃ j ≤ i, ∃ step, steps[j]? = some step ∧ step.agent = agent ∧ step.id = last := by
  have htake : ∀ n ≤ steps.length,
      ((steps.take n).foldl Lasts.seen (fun _ => none) agent = none →
        ∀ j < n, ∀ step, steps[j]? = some step → step.agent ≠ agent) ∧
      ∀ last, (steps.take n).foldl Lasts.seen (fun _ => none) agent = some last →
        ∃ j < n, ∃ step, steps[j]? = some step ∧ step.agent = agent ∧ step.id = last := by
    intro n
    induction n with
    | zero => exact fun _ => ⟨fun _ j hj => absurd hj (Nat.not_lt_zero j), fun last h => (by cases h)⟩
    | succ n ih =>
      intro hn
      obtain ⟨hnone, hsome⟩ := ih (Nat.le_of_succ_le hn)
      have hget : steps[n]? = some steps[n] := getElem?_eq_getElem hn
      rw [take_succ_eq_append_getElem hn, foldl_append, foldl_cons, foldl_nil]
      unfold Lasts.seen at hnone hsome ⊢
      by_cases hagent : agent = steps[n].agent
      · rw [if_pos hagent]
        refine ⟨fun h => (by cases h), fun last h => ?_⟩
        exact ⟨n, Nat.lt_succ_self n, _, hget, hagent.symm, Option.some.inj h⟩
      · rw [if_neg hagent]
        refine ⟨fun h j hj step hstep => ?_, fun last h => ?_⟩
        · rcases Nat.lt_succ_iff_lt_or_eq.1 hj with hlt | rfl
          · exact hnone h j hlt step hstep
          · rw [hget] at hstep
            cases hstep
            exact Ne.symm hagent
        · obtain ⟨j, hj, hrest⟩ := hsome last h
          exact ⟨j, Nat.lt_succ_of_lt hj, hrest⟩
  obtain ⟨hnone, hsome⟩ := htake (i + 1) hi
  refine ⟨fun h j hj => hnone h j (Nat.lt_succ_of_le hj), fun last h => ?_⟩
  obtain ⟨j, hj, hrest⟩ := hsome last h
  exact ⟨j, Nat.le_of_lt_succ hj, hrest⟩

/-! ## The plan of an answer -/

/-- a reference of the i-th step is replaced when it names no step -/
def Repairable (keys : List (String × AgentName)) (i : ℕ) (key : String) : Prop :=
  ∃ reader agent, keys[i]? = some reader ∧ (repairs reader.2).lookup key = some agent ∧
    ∃ j < i, ∃ source, keys[j]? = some source ∧ source.2 = agent

/-- every reference of an answer that is looked up can be -/
def RefsHashable (read : ReadSteps) : Prop :=
  ∀ i step, read.steps[i]? = some step → ∀ key ∈ planRefKeys, Repairable (read.steps.map stepKey) i key →
    hashable (mapRef read.idMap (get step.input key)) = true

/-- when the plan of an answer is well formed: the steps of its route are there, and each reference names an earlier
step that feeds its own, or no step at all where the planner puts one in its place -/
structure AnswerSound (route : RouteName) (read : ReadSteps) : Prop where
  route : ∀ agent ∈ routeAgents route, agent ∈ read.steps.map PlanStep.agent
  refs : ∀ i step, read.steps[i]? = some step → ∀ key ∈ planRefKeys,
    (mapRef read.idMap (get step.input key)).truthy = true →
      Names (read.steps.map stepKey) i (mapRef read.idMap (get step.input key)) ∨
        (Repairable (read.steps.map stepKey) i key ∧
          listed (read.steps.map PlanStep.id) (mapRef read.idMap (get step.input key)) = false)

/-- what replaces a reference names an earlier step that feeds the step -/
theorem feeds_repairs {reader agent : AgentName} {key : String} (h : (repairs reader).lookup key = some agent) :
    feeds agent reader = true ∧ agent ≠ reader := by
  have hmem := (lookup_eq_some_iff _ (nodup_repairs reader) key agent).1 h
  have hall : ∀ r, ∀ e ∈ repairs r, feeds e.2 r = true ∧ e.2 ≠ r := by
    intro r
    cases r <;> decide
  exact hall reader _ hmem

/-- a reference is replaced exactly when an earlier step of the agent is there -/
theorem repairable_iff {steps : List PlanStep} {i : ℕ} {step : PlanStep} (hstep : steps[i]? = some step)
    (key : String) :
    Repairable (steps.map stepKey) i key ↔
      ∃ last, ((repairs step.agent).lookup key).bind (lastsAt (fun _ => none) steps i) = some last := by
  have hi : i < steps.length := (List.getElem?_eq_some_iff.1 hstep).1
  constructor
  · rintro ⟨reader, agent, hreader, hlookup, j, hj, source, hsource, hagent⟩
    rw [getElem?_map, hstep, map_some] at hreader
    cases hreader
    rw [getElem?_map, map_eq_some_iff] at hsource
    obtain ⟨s, hs, rfl⟩ := hsource
    have hlookup : (repairs step.agent).lookup key = some agent := hlookup
    rw [hlookup, bind_some]
    cases hlast : lastsAt (fun _ => none) steps i agent with
    | some last => exact ⟨last, rfl⟩
    | none => exact absurd hagent ((lastsAt_spec steps i hi agent).1 hlast j (Nat.le_of_lt hj) s hs)
  · rintro ⟨last, h⟩
    obtain ⟨agent, hlookup, hlast⟩ := bind_eq_some_iff.1 h
    obtain ⟨j, hj, source, hsource, hagent, _⟩ := (lastsAt_spec steps i hi agent).2 last hlast
    have hne : j ≠ i := by
      rintro rfl
      rw [hstep] at hsource
      cases hsource
      exact (feeds_repairs hlookup).2 hagent.symm
    refine ⟨stepKey step, agent, ?_, hlookup, j, Nat.lt_of_le_of_ne hj hne, stepKey source, ?_, hagent⟩
    · rw [getElem?_map, hstep]
      rfl
    · rw [getElem?_map, hsource]
      rfl

/-- the step that stands for a reference is an earlier one that feeds the step -/
theorem names_last {steps : List PlanStep} {i : ℕ} {step : PlanStep} (hstep : steps[i]? = some step) {key last : String}
    (hlast : ((repairs step.agent).lookup key).bind (lastsAt (fun _ => none) steps i) = some last) :
    Names (steps.map stepKey) i (.str last) := by
  have hi : i < steps.length := (List.getElem?_eq_some_iff.1 hstep).1
  obtain ⟨agent, hlookup, hlast⟩ := bind_eq_some_iff.1 hlast
  obtain ⟨hfeeds, hagent_ne⟩ := feeds_repairs hlookup
  obtain ⟨j, hj, source, hsource, hagent, hid⟩ := (lastsAt_spec steps i hi agent).2 last hlast
  have hne : j ≠ i := by
    rintro rfl
    rw [hstep] at hsource
    cases hsource
    exact hagent_ne hagent.symm
  refine ⟨j, Nat.lt_of_le_of_ne hj hne, stepKey source, stepKey step, ?_, ?_, congrArg Json.str hid.symm, ?_⟩
  · rw [getElem?_map, hsource]
    rfl
  · rw [getElem?_map, hstep]
    rfl
  · rw [← hagent] at hfeeds
    exact hfeeds

/-- the references of an answer can be rewritten exactly when those that are looked up can be hashed -/
theorem rewritten_ok_iff (read : ReadSteps) : (∃ out, read.rewritten = .ok out) ↔ RefsHashable read := by
  unfold ReadSteps.rewritten RefsHashable
  rw [(rewriteStepReferences_spec _ read.idMap (fun _ => none) read.steps).1]
  refine forall_congr' fun i => forall_congr' fun step => forall_congr' fun hstep => forall_congr' fun key =>
    forall_congr' fun _ => ?_
  rw [repairable_iff hstep key]
  constructor
  · rintro h ⟨last, hlast⟩
    obtain ⟨agent, hlookup, hagent⟩ := bind_eq_some_iff.1 hlast
    refine h agent hlookup ?_
    rw [hagent]
    exact some_ne_none last
  · intro h agent hlookup hne
    obtain ⟨last, hlast⟩ := ne_none_iff_exists'.1 hne
    refine h ⟨last, ?_⟩
    rw [hlookup, bind_some, hlast]

/-- the references of a plan that is read are in order exactly when those of the answer are -/
theorem refsOk_answer_iff {read : ReadSteps} {out : List PlanStep} (h : read.rewritten = .ok out) :
    out.map stepKey = read.steps.map stepKey ∧
      (RefsOk out ↔ ∀ i step, read.steps[i]? = some step → ∀ key ∈ planRefKeys,
        (mapRef read.idMap (get step.input key)).truthy = true →
          Names (read.steps.map stepKey) i (mapRef read.idMap (get step.input key)) ∨
            (Repairable (read.steps.map stepKey) i key ∧
              listed (read.steps.map PlanStep.id) (mapRef read.idMap (get step.input key)) = false)) := by
  obtain ⟨hkeys, hvalues⟩ := (rewriteStepReferences_spec (read.steps.map PlanStep.id) read.idMap (fun _ => none)
    read.steps).2 out h
  refine ⟨hkeys, ?_⟩
  unfold RefsOk
  rw [hkeys]
  constructor
  · intro hok i original horiginal key hkey htruthy
    have hi : i < out.length := by
      have hlength := congrArg List.length hkeys
      rw [length_map, length_map] at hlength
      rw [hlength]
      exact (List.getElem?_eq_some_iff.1 horiginal).1
    obtain ⟨original', horiginal', hvalue⟩ := hvalues i _ (getElem?_eq_getElem hi)
    rw [horiginal] at horiginal'
    cases horiginal'
    have hnames := hok i _ (getElem?_eq_getElem hi) key hkey
    rw [hvalue key hkey] at hnames
    cases hlast : ((repairs original.agent).lookup key).bind (lastsAt (fun _ => none) read.steps i) with
    | none =>
      rw [hlast] at hnames
      exact .inl (hnames htruthy)
    | some last =>
      rw [hlast, repairedRef, elim_some] at hnames
      cases hlisted : listed (read.steps.map PlanStep.id) (mapRef read.idMap (get original.input key)) with
      | true =>
        rw [hlisted, if_pos rfl] at hnames
        exact .inl (hnames htruthy)
      | false => exact .inr ⟨(repairable_iff horiginal key).2 ⟨last, hlast⟩, rfl⟩
  · intro hread i step hstep key hkey htruthy
    obtain ⟨original, horiginal, hvalue⟩ := hvalues i step hstep
    have hsound := hread i original horiginal key hkey
    rw [hvalue key hkey] at htruthy ⊢
    cases hlast : ((repairs original.agent).lookup key).bind (lastsAt (fun _ => none) read.steps i) with
    | none =>
      rw [hlast, repairedRef, elim_none] at htruthy
      rcases hsound htruthy with hnames | ⟨hrepairable, _⟩
      · exact hnames
      · obtain ⟨last, hsome⟩ := (repairable_iff horiginal key).1 hrepairable
        rw [hlast] at hsome
        cases hsome
    | some last =>
      rw [hlast, repairedRef, elim_some] at htruthy
      rw [repairedRef, elim_some]
      cases hlisted : listed (read.steps.map PlanStep.id) (mapRef read.idMap (get original.input key)) with
      | true =>
        rw [hlisted, if_pos rfl] at htruthy
        rcases hsound htruthy with hnames | ⟨_, hno⟩
        · exact hnames
        · rw [hlisted] at hno
          cases hno
      | false =>
        exact names_last horiginal hlast

theorem clarifyShape_rewritten {read : ReadSteps} {out : List PlanStep} (h : read.rewritten = .ok out)
    (route : RouteName) : clarifyShape route out = clarifyShape route read.steps := by
  have hkeys := (refsOk_answer_iff h).1
  unfold clarifyShape
  unfold ReadSteps.rewritten at h
  cases hsteps : read.steps with
  | nil =>
    rw [hsteps] at hkeys
    rw [map_eq_nil_iff.1 hkeys]
  | cons step rest =>
    cases rest with
    | nil =>
      rw [hsteps, rewriteStepReferences] at h
      obtain ⟨input, hinput, h⟩ := of_bind_ok h
      cases h
      simp only
      by_cases hagent : step.agent = .clarify
      · rw [hagent] at hinput
        cases hinput
        rw [has_mapRefs]
      · rw [decide_eq_false hagent, Bool.false_and, Bool.false_and]
    | cons second rest =>
      rw [hsteps] at hkeys
      obtain ⟨step', tail, rfl, _, htail⟩ := map_eq_cons_iff.1 hkeys
      obtain ⟨second', rest', rfl, _, _⟩ := map_eq_cons_iff.1 htail
      rfl

/-- rewriting the questions leaves the references in order, or out of it -/
theorem refsOk_map_rewriteQuestion [PyText] (rewriteForAgent : AgentName → String → String) (question : String)
    (steps : List PlanStep) : RefsOk (steps.map (rewriteQuestion rewriteForAgent question)) ↔ RefsOk steps := by
  have hkeys : (steps.map (rewriteQuestion rewriteForAgent question)).map stepKey = steps.map stepKey := by
    rw [List.map_map]
    exact map_congr_left fun step _ => (rewriteQuestion_refs rewriteForAgent question step).1
  unfold RefsOk
  rw [hkeys]
  constructor
  · intro h i step hstep key hkey
    obtain ⟨_, hsame⟩ := rewriteQuestion_refs rewriteForAgent question step
    rw [← hsame key hkey]
    refine h i _ ?_ key hkey
    rw [getElem?_map, hstep]
    rfl
  · intro h i step hstep key hkey
    rw [getElem?_map, map_eq_some_iff] at hstep
    obtain ⟨original, horiginal, rfl⟩ := hstep
    obtain ⟨_, hsame⟩ := rewriteQuestion_refs rewriteForAgent question original
    rw [hsame key hkey]
    exact h i original horiginal key hkey

section Answer

variable [PyText]

/-- what is read of the answer, when the model is asked -/
def readAnswer (request : PlannerRequest) (response : Option Json) : Option (RouteName × ReadSteps) :=
  if shouldBypassLlm request then none else (answered response).bind (readPlan request.constraints)

theorem planWithLlm_none {request : PlannerRequest} {response : Option Json}
    (h : readAnswer request response = none) : planWithLlm request response = .ok none := by
  unfold readAnswer at h
  unfold planWithLlm
  split_ifs at h ⊢
  · rfl
  · cases hanswered : answered response with
    | none => rfl
    | some payload =>
      rw [hanswered, bind_some] at h
      simp only [coerceLlmPlan, h]

/-- an answer that can be read is the plan, unless a reference cannot be hashed or its shape is wrong -/
theorem planWithLlm_some {request : PlannerRequest} {response : Option Json} {route : RouteName} {read : ReadSteps}
    (h : readAnswer request response = some (route, read)) :
    shouldBypassLlm request = false ∧ (∃ payload, readPlan request.constraints payload = some (route, read)) ∧
      ∃ justification assumptions, planWithLlm request response = read.rewritten.bind fun steps =>
        .ok (if clarifyShape route steps = false then none
          else some ⟨route, steps, justification, assumptions⟩) := by
  unfold readAnswer at h
  unfold planWithLlm
  split_ifs at h ⊢ with hbypass
  obtain ⟨payload, hanswered, hread⟩ := bind_eq_some_iff.1 h
  refine ⟨Bool.eq_false_iff.2 hbypass, ⟨payload, hread⟩, ?_⟩
  simp only [hanswered, coerceLlmPlan, hread]
  exact ⟨answerJustification route payload, answerAssumptions payload, rfl⟩

end Answer

section Sound

variable [PyDigits]

/-- when the plan for a request and an answer is well formed -/
def Sound (request : PlannerRequest) (response : Option Json) : Prop :=
  match readAnswer request response with
  | none => RuleSound request
  | some (route, read) =>
    RefsHashable read ∧
      if clarifyShape route read.steps = true then AnswerSound route read else RuleSound request

/-- **Well-formed plans.** The planner returns a plan, and a well-formed one, exactly when the answer of the model that
it follows is sound, or, where it follows none, when the route that the rules choose and the rewrites are. -/
theorem plan_wellFormed_iff (rewriteForAgent : AgentName → String → String) (request : PlannerRequest)
    (response : Option Json) :
    (∃ p, plan rewriteForAgent request response = .ok p ∧ WellFormed request.constraints p) ↔
      Sound request response := by
  -- the plan of the rules is returned where there is no other one
  have hrules : planWithLlm request response = .ok none →
      ((∃ p, plan rewriteForAgent request response = .ok p ∧ WellFormed request.constraints p) ↔
        RuleSound request) := by
    intro h
    rw [← rulePlan_wellFormed_iff rewriteForAgent request, plan, h]
    constructor
    · rintro ⟨p, hp, hwell⟩
      cases hp
      exact hwell
    · exact fun hwell => ⟨_, rfl, hwell⟩
  unfold Sound
  cases hread : readAnswer request response with
  | none => exact hrules (planWithLlm_none hread)
  | some answer =>
    obtain ⟨route, read⟩ := answer
    simp only
    obtain ⟨hbypass, ⟨payload, hpayload⟩, justification, assumptions, hplan⟩ := planWithLlm_some hread
    rw [← rewritten_ok_iff read]
    cases hout : read.rewritten with
    | error e =>
      rw [hout] at hplan
      rw [plan, hplan]
      constructor
      · rintro ⟨p, hp, _⟩
        cases hp
      · rintro ⟨⟨out, h⟩, _⟩
        cases h
    | ok out =>
      have hreturned : (∃ o, (Except.ok out : Except PlanError (List PlanStep)) = .ok o) := ⟨out, rfl⟩
      rw [and_iff_right hreturned, ← clarifyShape_rewritten hout route]
      rw [hout] at hplan
      have hplan : planWithLlm request response = .ok (if clarifyShape route out = false then none
        else some ⟨route, out, justification, assumptions⟩) := hplan
      cases hshape : clarifyShape route out with
      | false =>
        rw [hshape, if_pos rfl] at hplan
        exact hrules hplan
      | true =>
        rw [hshape, if_neg (Bool.false_ne_true ∘ Eq.symm)] at hplan
        obtain ⟨hne, hmax, hids, hallowed⟩ := readPlan_spec hpayload
        obtain ⟨hkeys, hrefs⟩ := refsOk_answer_iff hout
        -- there is no rewrite without a routing request
        have hsteps : (rewritten rewriteForAgent request ⟨route, out, justification, assumptions⟩).steps =
            out.map (rewriteQuestion rewriteForAgent request.question) := by
          unfold rewritten applyToolRewrites
          rw [extractToolRewrites_nil hbypass]
          rfl
        have hwell := @wellFormed_congr request.constraints
          (rewritten rewriteForAgent request ⟨route, out, justification, assumptions⟩) read.steps
          ((keys_rewritten rewriteForAgent request _).trans hkeys) hne hmax hids
        rw [hsteps, refsOk_map_rewriteQuestion, hrefs] at hwell
        rw [plan, hplan]
        constructor
        · rintro ⟨p, hp, hok⟩
          cases hp
          obtain ⟨hagents, hrefs⟩ := hwell.1 hok
          exact ⟨hagents.route, hrefs⟩
        · rintro ⟨hroute, hrefs⟩
          exact ⟨_, rfl, hwell.2 ⟨⟨hallowed, hroute⟩, hrefs⟩⟩

end Sound

section Runs

open scoped Ascii

/-- a question about reports that speaks of growth, where SQL analysis is disabled -/
def reportRequest : PlannerRequest :=
  { question := "summarise the reports on fund growth"
    context := none
    constraints :=
      { maxSteps := 4, ignoreMaxSteps := false, preferLowLatency := true, costSensitivity := .medium,
        requireVizWhenChartable := true, allowSqlAnalyst := false, allowWebSearch := true, allowDeepResearch := true,
        timeboxSeconds := 30, positive := by decide } }

/-- the research is validated by an analyst step all the same; the question needs no rewriting -/
theorem reportRequest_analyst :
    ∃ p, plan (fun _ question => question) reportRequest none = .ok p ∧ ¬WellFormed reportRequest.constraints p := by
  have hagents : ruleAgents (Router.chooseRoute reportRequest) reportRequest = [.docRetrieval, .analyst] := by
    decide +kernel
  have hkeys := (built_buildSteps (Router.chooseRoute reportRequest) reportRequest).keys
  have hrewritten := keys_rewritten (fun _ question => question) reportRequest (rulePlan reportRequest)
  refine ⟨_, rfl, fun h => ?_⟩
  have hallowed := h.agents.allowed .analyst
  have hsnd : ((rewritten (fun _ question => question) reportRequest (rulePlan reportRequest)).steps.map stepKey).map
      Prod.snd = [.docRetrieval, .analyst] := by
    rw [hrewritten, show (rulePlan reportRequest).steps = buildSteps (Router.chooseRoute reportRequest) reportRequest
      from rfl, hkeys, map_snd_numbered, hagents]
  have hmem : AgentName.analyst ∈ ((rewritten (fun _ question => question) reportRequest
      (rulePlan reportRequest)).steps.map stepKey).map Prod.snd := by
    decide
  cases hallowed hmem

end Runs

end Planner

end Langbridge.Orchestrator
