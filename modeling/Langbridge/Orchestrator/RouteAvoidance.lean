/-
Routes to avoid (`orchestrator/agents/planner/router.py`). A route that the context asks to avoid has no score, whatever
raises scores, but only the last exit of the router looks at scores: a forced route, an ambiguous question and the rule
for chartable questions come before.
-/
import Langbridge.Orchestrator.Router

namespace Langbridge.Orchestrator.Router

open Core

/-! ## Scores -/

theorem bump_eq_none_iff (scores : RouteName → Option Score) (route : RouteName) (amount : Score) (r : RouteName) :
    bump scores route amount r = none ↔ scores r = none := by
  unfold bump
  split_ifs
  · exact Option.map_eq_none_iff
  · exact Iff.rfl

theorem foldl_bump_eq_none_iff (l : List RouteName) (scores : RouteName → Option Score) (r : RouteName) :
    l.foldl (fun scores q => bump scores q 30) scores r = none ↔ scores r = none := by
  induction l generalizing scores with
  | nil => exact Iff.rfl
  | cons q l ih => exact (ih _).trans (bump_eq_none_iff scores q 30 r)

theorem ite_bump_eq_none_iff (b : Bool) (scores : RouteName → Option Score) (route : RouteName) (amount : Score)
    (r : RouteName) : (if b = true then bump scores route amount else scores) r = none ↔ scores r = none := by
  split_ifs
  · exact bump_eq_none_iff scores route amount r
  · exact Iff.rfl

/-- the overrides take the score of the avoided routes and of no other -/
theorem applyRoutingOverrides_eq_none_iff (scores : RouteName → Option Score) (o : RoutingOverrides)
    (c : PlanningConstraints) (r : RouteName) :
    applyRoutingOverrides scores o c r = none ↔ r ∈ o.avoidRoutes ∨ scores r = none := by
  have hprevious : (o.previousRoute.elim scores fun q => bump scores q (-20)) r = none ↔ scores r = none := by
    cases o.previousRoute with
    | none => exact Iff.rfl
    | some q => exact bump_eq_none_iff scores q (-20) r
  unfold applyRoutingOverrides
  by_cases havoid : r ∈ o.avoidRoutes
  · simp [havoid]
  · simp only [havoid, if_false, false_or]
    rw [ite_bump_eq_none_iff, ite_bump_eq_none_iff, ite_bump_eq_none_iff, ite_bump_eq_none_iff, foldl_bump_eq_none_iff,
      hprevious]

theorem initialScores_eq_none_iff (s : RouteSignals) (c : PlanningConstraints) (r : RouteName) :
    initialScores s c r = none ↔ routeIsAvailable r s c = false ∨ r = .clarify ∨
      (r = .webSearch ∧ s.hasWebSearchSignals = false) := by
  unfold initialScores
  cases havailable : routeIsAvailable r s c with
  | false => simp
  | true =>
    cases r with
    | webSearch => cases hweb : s.hasWebSearchSignals <;> simp [scoreWebSearch, hweb]
    | _ => simp

section Heeding

variable [PyDigits]

def avoided (request : PlannerRequest) : List RouteName := (extractRoutingOverrides request.contextDict).avoidRoutes

/-- a route whose tools are allowed and whose steps fit -/
def Executable (request : PlannerRequest) (r : RouteName) : Prop :=
  routeIsAvailable r (extractSignals request.question) request.constraints = true

/-- **The routes without a score**: those that can not be executed or are to be avoided, and a web search that the
question does not speak of. -/
theorem finalScores_eq_none_iff (request : PlannerRequest) (r : RouteName) :
    finalScores request r = none ↔ r ∈ avoided request ∨ ¬ Executable request r ∨ r = .clarify ∨
      (r = .webSearch ∧ (extractSignals request.question).hasWebSearchSignals = false) := by
  rw [finalScores, applyRoutingOverrides_eq_none_iff, initialScores_eq_none_iff, Executable, Bool.not_eq_true]
  rfl

/-! ## Avoiding -/

/-- no route is left but a clarifying question -/
def Cornered (request : PlannerRequest) : Prop :=
  ∀ r, r ≠ .clarify → Executable request r → r ∈ avoided request

/-- **The router heeds a request**: the route can be executed and is not to be avoided, unless no other is left, and no
score is raised of a route that the constraints exclude. -/
structure Heeds (request : PlannerRequest) : Prop where
  executable : Executable request (chooseRoute request).route
  spared : (chooseRoute request).route ∈ avoided request → (chooseRoute request).route = .clarify ∧ Cornered request
  excluded : ∀ r, ¬ Executable request r → finalScores request r = none

/-- no forced route can be taken -/
def Unforced (request : PlannerRequest) : Prop :=
  ∀ r, (extractRoutingOverrides request.contextDict).forceRoute = some r → ¬ Executable request r

/-- a clarifying question is not to be avoided, or nothing else is left -/
def MayClarify (request : PlannerRequest) : Prop := .clarify ∈ avoided request → Cornered request

/-- **Each exit** of the router may be taken: the forced route, the clarifying question for an ambiguous one, the rule
for chartable questions, and the clarifying question where no route has a score. -/
structure ExitsOpen (request : PlannerRequest) : Prop where
  forced : ∀ r, (extractRoutingOverrides request.contextDict).forceRoute = some r → Executable request r →
    r ∈ avoided request → r = .clarify ∧ Cornered request
  ambiguous : Unforced request → (extractSignals request.question).requiresClarification = true → MayClarify request
  charted : Unforced request → (extractSignals request.question).requiresClarification = false →
    hardRule (extractSignals request.question) request.constraints = true → .analystThenVisual ∉ avoided request
  scored : Unforced request → (extractSignals request.question).requiresClarification = false →
    hardRule (extractSignals request.question) request.constraints = false →
    (∀ r ∈ priority, r ∈ avoided request ∨ ¬ Executable request r ∨
      (r = .webSearch ∧ (extractSignals request.question).hasWebSearchSignals = false)) → MayClarify request

theorem selected_not_avoided {request : PlannerRequest}
    (h : ¬ (priority.all fun r => (finalScores request r).isNone) = true) :
    selectBestRoute (finalScores request) ∉ avoided request := by
  intro havoid
  have hscore := selectBestRoute_isSome h
  rw [(finalScores_eq_none_iff request _).2 (.inl havoid)] at hscore
  cases hscore

/-- where no route of the list has a score -/
theorem unscored_iff (request : PlannerRequest) : (priority.all fun r => (finalScores request r).isNone) = true ↔
    ∀ r ∈ priority, r ∈ avoided request ∨ ¬ Executable request r ∨
      (r = .webSearch ∧ (extractSignals request.question).hasWebSearchSignals = false) := by
  rw [List.all_eq_true]
  refine forall₂_congr fun r hr => ?_
  rw [Option.isNone_iff_eq_none, finalScores_eq_none_iff]
  have hclarify : r ≠ .clarify := by
    rintro rfl
    exact absurd hr (by decide)
  simp [hclarify]

/-- what is chosen is not to be avoided -/
def Spared (request : PlannerRequest) (r : RouteName) : Prop := r ∈ avoided request → r = .clarify ∧ Cornered request

theorem spared_clarify_iff (request : PlannerRequest) : Spared request .clarify ↔ MayClarify request :=
  forall_congr' fun _ => and_iff_right rfl

theorem spared_iff_of_ne {request : PlannerRequest} {r : RouteName} (h : r ≠ .clarify) :
    Spared request r ↔ r ∉ avoided request := by
  exact forall_congr' fun _ => iff_of_false (fun hr => h hr.1) id

/-- **Avoided routes** are avoided exactly if each exit of the router may be taken. -/
theorem heeds_iff (request : PlannerRequest) : Heeds request ↔ ExitsOpen request := by
  have hspared : Heeds request ↔ Spared request (chooseRoute request).route :=
    ⟨Heeds.spared, fun h => ⟨chooseRoute_available request, h, fun r hr =>
      (finalScores_eq_none_iff request r).2 (.inr (.inl hr))⟩⟩
  rw [hspared]
  by_cases hunforced : Unforced request
  · obtain ⟨notes, hroute⟩ := chooseRoute_unforced fun r hr => Bool.eq_false_iff.2 (hunforced r hr)
    rw [hroute, (chooseUnforced_eq request notes).2]
    have hno : ∀ r, (extractRoutingOverrides request.contextDict).forceRoute = some r → Executable request r →
        r ∈ avoided request → r = .clarify ∧ Cornered request := fun r hr hex => absurd hex (hunforced r hr)
    split_ifs with hambiguous hhard hnone
    · rw [spared_clarify_iff]
      refine ⟨fun h => ⟨hno, fun _ _ => h, ?_, ?_⟩, fun h => h.ambiguous hunforced hambiguous⟩
      · exact fun _ hclear => absurd hclear (Bool.not_eq_false _ ▸ hambiguous)
      · exact fun _ hclear => absurd hclear (Bool.not_eq_false _ ▸ hambiguous)
    · rw [spared_iff_of_ne (by decide)]
      rw [Bool.not_eq_true] at hambiguous
      refine ⟨fun h => ⟨hno, ?_, fun _ _ _ => h, ?_⟩, fun h => h.charted hunforced hambiguous hhard⟩
      · exact fun _ hclear => absurd hambiguous (Bool.not_eq_false _ ▸ hclear)
      · exact fun _ _ hsoft => absurd hsoft (Bool.not_eq_false _ ▸ hhard)
    · rw [Bool.not_eq_true] at hambiguous hhard
      rw [spared_clarify_iff]
      refine ⟨fun h => ⟨hno, fun _ _ => h, ?_, fun _ _ _ _ => h⟩,
        fun h => h.scored hunforced hambiguous hhard ((unscored_iff request).1 hnone)⟩
      exact fun _ _ hcharted => absurd hhard (Bool.not_eq_false _ ▸ hcharted)
    · rw [Bool.not_eq_true] at hambiguous hhard
      have hchosen : Spared request (selectBestRoute (finalScores request)) :=
        fun havoid => absurd havoid (selected_not_avoided hnone)
      refine ⟨fun _ => ⟨hno, ?_, ?_, ?_⟩, fun _ => hchosen⟩
      · exact fun _ hclear => absurd hambiguous (Bool.not_eq_false _ ▸ hclear)
      · exact fun _ _ hcharted => absurd hhard (Bool.not_eq_false _ ▸ hcharted)
      · exact fun _ _ _ hall => absurd ((unscored_iff request).2 hall) hnone
  · have hforced : ∃ r, (extractRoutingOverrides request.contextDict).forceRoute = some r ∧ Executable request r := by
      by_contra hno
      exact hunforced fun r hr hex => hno ⟨r, hr, hex⟩
    obtain ⟨r, hforce, hex⟩ := hforced
    rw [chooseRoute_forced hforce hex]
    refine ⟨fun h => ⟨?_, fun h' => absurd h' hunforced, fun h' => absurd h' hunforced, fun h' => absurd h' hunforced⟩,
      fun h => h.forced r hforce hex⟩
    intro r' hr' _
    obtain rfl := Option.some.inj (hforce.symm.trans hr')
    exact h

end Heeding

/-! ## A chartable question -/

section Runs

open scoped Ascii

/-- a request to chart that comes after charting failed -/
def chartAgain : PlannerRequest where
  question := "chart revenue by region"
  context := some (Dict.ofList [("routing", .obj [("avoid_routes", .arr [.str "AnalystThenVisual"])])])
  constraints :=
    { maxSteps := 5
      ignoreMaxSteps := false
      preferLowLatency := false
      costSensitivity := .medium
      requireVizWhenChartable := true
      allowSqlAnalyst := true
      allowWebSearch := true
      allowDeepResearch := true
      timeboxSeconds := 60
      positive := by decide }

/-- the question is charted again, though it could be answered without a chart -/
theorem charted_again : ¬ Heeds chartAgain := by
  intro h
  have havoid : RouteName.analystThenVisual ∈ avoided chartAgain := by decide +kernel
  have hspared := h.spared
  cases (hspared havoid).1

end Runs

end Langbridge.Orchestrator.Router
