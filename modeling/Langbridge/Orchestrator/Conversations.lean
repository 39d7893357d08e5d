/-
Conversations: turns of one thread whose clarification state is carried from each to the next. The preflight keeps to
the budget and repeats no question. The planner knows nothing of either: a Clarify step of a plan is a question of its own,
asked in every turn whose question the router finds ambiguous.
-/
import Langbridge.Orchestrator.Supervisor

namespace Langbridge.Orchestrator

open Core List Option

namespace Supervisor

open Router (get dictAt)

section Conversations

variable [PyDigits] (same : Json → Json → Bool) (rewriteForAgent : AgentName → String → String)
  (questionHash : String → String) (defaultMaxTurns : ℕ)

/-! ## Plans that clarify -/

/-- the answer of the model that is followed has a Clarify step, or none is followed and the router clarifies -/
def PlanClarifies (request : PlannerRequest) (response : Option Json) : Prop :=
  match Planner.readAnswer request response with
  | some (route, read) =>
    if Planner.clarifyShape route read.steps = true then .clarify ∈ read.steps.map PlanStep.agent
    else Router.Clarifies request
  | none => Router.Clarifies request

/-- without an answer the router decides -/
theorem planClarifies_none (request : PlannerRequest) :
    PlanClarifies request none ↔ (Router.chooseRoute request).route = .clarify := by
  have hread : Planner.readAnswer request none = none := by
    unfold Planner.readAnswer
    split_ifs
    · rfl
    · rfl
  unfold PlanClarifies
  rw [hread, Router.chooseRoute_clarify_iff]

omit [PyDigits] in
theorem clarify_mem_ruleAgents [PyText] {decision : RouteDecision} {request : PlannerRequest}
    (h : .clarify ∈ Planner.ruleAgents decision request) : decision.route = .clarify := by
  unfold Planner.ruleAgents at h
  cases hroute : decision.route with
  | clarify => rfl
  | simpleAnalyst =>
    rw [hroute] at h
    simp only at h
    split_ifs at h <;> exact absurd h (by decide)
  | analystThenVisual =>
    rw [hroute] at h
    simp only at h
    split_ifs at h <;> exact absurd h (by decide)
  | webSearch =>
    rw [hroute] at h
    exact absurd (mem_singleton.1 h) (by decide)
  | deepResearch =>
    rw [hroute] at h
    simp only at h
    split_ifs at h <;> exact absurd h (by decide)

/-- **Clarify steps.** A plan has one only if the answer that it follows has one or the router clarifies. -/
theorem clarify_of_plan {request : PlannerRequest} {response : Option Json} {p : Plan}
    (hplan : Planner.plan rewriteForAgent request response = .ok p)
    (h : .clarify ∈ p.steps.map PlanStep.agent) : PlanClarifies request response := by
  have hagents : ∀ plan : Plan, (Planner.rewritten rewriteForAgent request plan).steps.map PlanStep.agent =
      plan.steps.map PlanStep.agent := by
    intro plan
    have hkeys := congrArg (List.map Prod.snd) (Planner.keys_rewritten rewriteForAgent request plan)
    rwa [List.map_map, List.map_map] at hkeys
  -- the plan of the rules
  have hrules : Planner.planWithLlm request response = .ok none → Router.Clarifies request := by
    intro hnone
    rw [Planner.plan, hnone] at hplan
    have hp : Planner.rewritten rewriteForAgent request (Planner.rulePlan request) = p := Except.ok.inj hplan
    rw [← hp, hagents] at h
    have hkeys := (Planner.built_buildSteps (Router.chooseRoute request) request).keys
    have hsnd := congrArg (List.map Prod.snd) hkeys
    rw [List.map_map, Planner.map_snd_numbered] at hsnd
    have hmem : .clarify ∈ Planner.ruleAgents (Router.chooseRoute request) request := hsnd ▸ h
    exact (Router.chooseRoute_clarify_iff request).1 (clarify_mem_ruleAgents hmem)
  unfold PlanClarifies
  cases hread : Planner.readAnswer request response with
  | none => exact hrules (Planner.planWithLlm_none hread)
  | some answer =>
    obtain ⟨route, read⟩ := answer
    obtain ⟨_, _, justification, assumptions, hanswer⟩ := Planner.planWithLlm_some hread
    simp only
    cases hout : read.rewritten with
    | error e =>
      rw [hout] at hanswer
      rw [Planner.plan, hanswer] at hplan
      cases hplan
    | ok out =>
      rw [hout] at hanswer
      rw [← Planner.clarifyShape_rewritten hout route]
      have hanswer : Planner.planWithLlm request response = .ok (if Planner.clarifyShape route out = false then none
        else some ⟨route, out, justification, assumptions⟩) := hanswer
      cases hshape : Planner.clarifyShape route out with
      | false =>
        rw [hshape, if_pos rfl] at hanswer
        exact hrules hanswer
      | true =>
        rw [hshape, if_neg (Bool.false_ne_true ∘ Eq.symm)] at hanswer
        rw [Planner.plan, hanswer] at hplan
        have hp : Planner.rewritten rewriteForAgent request ⟨route, out, justification, assumptions⟩ = p :=
          Except.ok.inj hplan
        have hkeys := congrArg (List.map Prod.snd) (Planner.refsOk_answer_iff hout).1
        rw [List.map_map, List.map_map] at hkeys
        rw [← hp, hagents] at h
        exact hkeys ▸ h

/-- no plan of a turn clarifies, whatever the passes before it have made of the context -/
def Turn.PlansAnswer (t : Turn) : Prop :=
  ∀ k it, t.iterations[k]? = some it →
    ¬PlanClarifies (plannerRequest t.query (contextAfter same (t.start same questionHash defaultMaxTurns)
      ((t.iterations.take k).filterMap Iteration.decision))) it.response

theorem asked_of_plansAnswer {t : Turn} (h : t.PlansAnswer same questionHash defaultMaxTurns) :
    t.asked same rewriteForAgent questionHash defaultMaxTurns =
      if t.blocked then none
      else (t.clarification questionHash defaultMaxTurns).clarifyingQuestion.map Json.str := by
  have hnone : (t.passes same rewriteForAgent questionHash defaultMaxTurns).getLast?.bind Pass.question = none := by
    cases hlast : (t.passes same rewriteForAgent questionHash defaultMaxTurns).getLast? with
    | none => rfl
    | some b =>
      rw [getLast?_eq_getElem?] at hlast
      unfold Turn.passes at hlast
      split_ifs at hlast
      · cases hlast
      obtain ⟨it, hit, hcontext, hplan, hquestion, _⟩ := passes_spec same rewriteForAgent hlast
      rw [bind_some, hquestion]
      by_contra hasked
      refine h _ it hit ?_
      rw [← hcontext]
      refine clarify_of_plan rewriteForAgent hplan ?_
      obtain ⟨question, hq⟩ := ne_none_iff_exists'.1 hasked
      obtain ⟨hmap, _⟩ := filter_eq_some_iff.1 hq
      obtain ⟨step, hstep, _⟩ := map_eq_some_iff.1 hmap
      have hagent := find?_some hstep
      rw [decide_eq_true_eq] at hagent
      rw [← hagent]
      exact mem_map_of_mem (mem_of_mem_take (mem_of_find?_eq_some hstep))
  unfold Turn.asked
  rw [hnone, or_none]

/-! ## Turns in a row -/

/-- turns in a row, each with the clarification state that the one before returns -/
def converse : ClarificationState → List Turn → List Turn
  | _, [] => []
  | state, t :: rest =>
    { t with prior := state } ::
      converse ({ t with prior := state }.clarification questionHash defaultMaxTurns).updatedState rest

def questions (turns : List Turn) : List Json :=
  turns.filterMap fun t => t.asked same rewriteForAgent questionHash defaultMaxTurns

/-- **Questions of a conversation.** They are among new ones, of which there are no more than the budget leaves. -/
theorem asked_of_converse (state : ClarificationState) (turns : List Turn) (hmax : 1 ≤ state.maxTurns)
    (hnodup : state.askedQuestions.Nodup) (hbudget : state.turnCount ≤ state.maxTurns)
    (hplans : ∀ t ∈ converse questionHash defaultMaxTurns state turns,
      t.PlansAnswer same questionHash defaultMaxTurns) :
    ∃ fresh : List String,
      List.Sublist (questions same rewriteForAgent questionHash defaultMaxTurns
        (converse questionHash defaultMaxTurns state turns)) (fresh.map Json.str) ∧
      (state.askedQuestions ++ fresh).Nodup ∧ state.turnCount + fresh.length ≤ state.maxTurns := by
  induction turns generalizing state with
  | nil => exact ⟨[], List.Sublist.refl _, by rwa [append_nil], hbudget⟩
  | cons turn rest ih =>
    rw [converse, forall_mem_cons] at hplans
    obtain ⟨hfirst, hrest⟩ := hplans
    have hasked := asked_of_plansAnswer same rewriteForAgent questionHash defaultMaxTurns hfirst
    have hdecision : Turn.clarification questionHash defaultMaxTurns { turn with prior := state } =
        Clarification.decide questionHash defaultMaxTurns turn.classification (some state) := rfl
    unfold questions
    rw [converse, filterMap_cons, hasked]
    rw [hdecision] at hrest ⊢
    rcases Clarification.decide_cases questionHash defaultMaxTurns turn.classification state hmax with hasks | ⟨hgo, _⟩
    · obtain ⟨q, hq, hnew, hrecorded⟩ := hasks.asked
      obtain ⟨fresh, hsub, hfresh, hcount⟩ := ih _ (by rw [hasks.budget]; exact hmax)
        (by rw [hrecorded]; exact concat_eq_append ▸ List.Nodup.concat hnew hnodup)
        (by rw [hasks.counted, hasks.budget]; exact hasks.within) hrest
      rw [hrecorded, append_assoc, singleton_append] at hfresh
      rw [hasks.counted, hasks.budget] at hcount
      refine ⟨q :: fresh, ?_, hfresh, by rw [length_cons]; omega⟩
      rw [hq, map_cons]
      cases turn.blocked with
      | true => exact hsub.cons _
      | false => exact hsub.cons_cons _
    · obtain ⟨fresh, hsub, hfresh, hcount⟩ := ih _ (by rw [hgo.budget]; exact hmax)
        (by rw [hgo.recorded]; exact hnodup) (by rw [hgo.counted, hgo.budget]; exact hbudget) hrest
      rw [hgo.recorded] at hfresh
      rw [hgo.counted, hgo.budget] at hcount
      refine ⟨fresh, ?_, hfresh, hcount⟩
      rw [hgo.silent, map_none, ite_self]
      exact hsub

/-- in every turn of a conversation the state has the budget of the first one -/
theorem maxTurns_of_converse (state : ClarificationState) (turns : List Turn) (hmax : 1 ≤ state.maxTurns) :
    ∀ t ∈ converse questionHash defaultMaxTurns state turns, t.prior.maxTurns = state.maxTurns := by
  induction turns generalizing state with
  | nil => exact fun t h => absurd h not_mem_nil
  | cons turn rest ih =>
    rw [converse, forall_mem_cons]
    have hbudget : (Turn.clarification questionHash defaultMaxTurns
        { turn with prior := state }).updatedState.maxTurns = state.maxTurns := by
      rcases Clarification.decide_cases questionHash defaultMaxTurns turn.classification state hmax with
        hasks | ⟨hgo, _⟩
      · exact hasks.budget
      · exact hgo.budget
    refine ⟨rfl, fun t ht => ?_⟩
    rw [← hbudget]
    exact ih _ (by rw [hbudget]; exact hmax) t ht

/-- **Bounded questions.** In a conversation whose plans do not clarify there are at most as many questions as the
budget allows, all different, and a turn whose classifier wants to ask but that asks nothing proceeds on assumptions. -/
theorem questions_bounded (maxTurns : ℕ) (turns : List Turn) (hmax : 1 ≤ maxTurns)
    (hplans : ∀ t ∈ converse questionHash defaultMaxTurns (.fresh maxTurns) turns,
      t.PlansAnswer same questionHash defaultMaxTurns) :
    (questions same rewriteForAgent questionHash defaultMaxTurns
        (converse questionHash defaultMaxTurns (.fresh maxTurns) turns)).length ≤ maxTurns ∧
      (questions same rewriteForAgent questionHash defaultMaxTurns
        (converse questionHash defaultMaxTurns (.fresh maxTurns) turns)).Nodup ∧
      ∀ t ∈ converse questionHash defaultMaxTurns (.fresh maxTurns) turns, t.blocked = false →
        t.classification.requiresClarification = true →
        t.asked same rewriteForAgent questionHash defaultMaxTurns = none →
        (t.clarification questionHash defaultMaxTurns).assumptions ≠ [] := by
  obtain ⟨fresh, hsub, hfresh, hcount⟩ := asked_of_converse same rewriteForAgent questionHash defaultMaxTurns
    (.fresh maxTurns) turns hmax nodup_nil (Nat.zero_le _) hplans
  have hlength : fresh.length ≤ maxTurns := by
    have h : 0 + fresh.length ≤ maxTurns := hcount
    rwa [Nat.zero_add] at h
  have hnodup : (fresh.map Json.str).Nodup := by
    have h : fresh.Nodup := hfresh
    exact h.map fun a b hab => Json.str.inj hab
  refine ⟨?_, hnodup.sublist hsub, fun t ht hblocked hrequires hasked => ?_⟩
  · have h := hsub.length_le
    rw [length_map] at h
    exact h.trans hlength
  · rw [asked_of_plansAnswer same rewriteForAgent questionHash defaultMaxTurns (hplans t ht), hblocked,
      if_neg Bool.false_ne_true, map_eq_none_iff] at hasked
    have hbudget := maxTurns_of_converse questionHash defaultMaxTurns (.fresh maxTurns) turns hmax t ht
    rcases Clarification.decide_cases questionHash defaultMaxTurns t.classification t.prior
      (by rw [hbudget]; exact hmax) with hasks | ⟨_, hassumes⟩
    · obtain ⟨q, hq, _⟩ := hasks.asked
      rw [Turn.clarification, hq] at hasked
      cases hasked
    · exact hassumes hrequires

end Conversations

section Runs

open scoped Ascii

/-- a turn of one pass whose classifier may have a question -/
def shortTurn (question : String) (asks : Option String) : Turn :=
  { query := { revenueQuery with question }
    planningContext := Dict.empty
    classification := ⟨none, 9 / 10, asks.isSome, asks, ["region"], .obj []⟩
    entities := .obj []
    conversation := none
    prior := .fresh 2
    blocked := false
    iterations := [⟨none, 1, none⟩] }

/-- two turns in which the classifier wants to ask the same question -/
def regionTurns : List Turn :=
  [shortTurn "show me revenue" (some "Which region?"), shortTurn "show me revenue" (some "Which region?")]

/-- the question is asked once -/
theorem regionTurns_bounded :
    (questions (fun _ _ => false) (fun _ _ => "revenue") id 2 (converse id 2 (.fresh 2) regionTurns)).length ≤ 2 := by
  refine (questions_bounded (fun _ _ => false) (fun _ _ => "revenue") id 2 2 _ (by decide) fun t ht => ?_).1
  have hroutes : ∀ t ∈ converse id 2 (.fresh 2) regionTurns, t.iterations = [⟨none, 1, none⟩] ∧
      (Router.chooseRoute (plannerRequest t.query (t.start (fun _ _ => false) id 2))).route ≠ .clarify := by
    intro t ht
    rw [regionTurns, converse, converse, converse] at ht
    simp only [mem_cons, not_mem_nil, or_false] at ht
    rcases ht with rfl | rfl
    · exact ⟨rfl, by decide +kernel⟩
    · exact ⟨rfl, by decide +kernel⟩
  obtain ⟨hits, hroute⟩ := hroutes t ht
  intro k it hit
  rw [hits] at hit ⊢
  cases k with
  | zero =>
    cases hit
    exact fun h => hroute ((planClarifies_none _).1 h)
  | succ k =>
    cases hit

/-- the router asks in every turn -/
theorem shortTurn_asks :
    ¬(questions (fun _ _ => false) (fun _ q => q) id 2 (converse id 2 (.fresh 2)
      [shortTurn "update me" none, shortTurn "update me" none, shortTurn "update me" none])).length ≤ 2 := by
  decide +kernel

end Runs

end Supervisor

end Langbridge.Orchestrator
