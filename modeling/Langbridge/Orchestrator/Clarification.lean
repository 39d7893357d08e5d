/-
Clarification (`supervisor/clarification_manager.py`, `supervisor/schemas.py`): the classifier's wish to ask a question
is granted while the budget lasts and the question is new. The state is carried from turn to turn.
-/
import Langbridge.Orchestrator.Planner

namespace Langbridge.Orchestrator

open Core

structure ClassifiedQuestion where
  routeHint : Option String
  confidence : ℚ
  requiresClarification : Bool
  clarifyingQuestion : Option String
  requiredContext : List String
  /-- `model_dump()` -/
  dump : Json

structure ClarificationState where
  turnCount : ℕ
  maxTurns : ℕ
  askedSlots : List String
  answeredSlots : List (String × String)
  askedQuestions : List String
  lastQuestionHash : Option String
  pendingSlots : List String
  assumptions : List String

/-- `ClarificationState(max_turns=n)` -/
def ClarificationState.fresh (maxTurns : ℕ) : ClarificationState := ⟨0, maxTurns, [], [], [], none, [], []⟩

/-- `model_dump()` -/
def ClarificationState.dump (s : ClarificationState) : Json :=
  .obj [("turn_count", .int s.turnCount), ("max_turns", .int s.maxTurns), ("asked_slots", .arr (s.askedSlots.map .str)),
    ("answered_slots", .obj (s.answeredSlots.map fun e => (e.1, .str e.2))),
    ("asked_questions", .arr (s.askedQuestions.map .str)),
    ("last_question_hash", s.lastQuestionHash.elim .null .str), ("pending_slots", .arr (s.pendingSlots.map .str)),
    ("assumptions", .arr (s.assumptions.map .str))]

structure ClarificationDecision where
  /-- the question that is asked, when one is -/
  clarifyingQuestion : Option String
  missingBlockingSlots : List String
  assumptions : List String
  updatedState : ClarificationState

/-- the decision asks -/
def ClarificationDecision.requiresClarification (d : ClarificationDecision) : Bool := d.clarifyingQuestion.isSome

namespace Clarification

/-- items that are not in the list yet are added -/
def extendNew (l items : List String) : List String := l ++ items.filter fun item => item ∉ l

def bestEffortDecision (state : ClarificationState) (missing : List String) : ClarificationDecision :=
  let assumptions :=
    ["Proceeding with best-effort assumptions because clarification budget was exhausted."] ++
      (if missing = [] then [] else ["Unresolved context: " ++ ", ".intercalate (missing.take 5) ++ "."])
  ⟨none, missing, assumptions, { state with assumptions := extendNew state.assumptions assumptions }⟩

/-- the question of the classifier, or the one that stands for none -/
def questionOf (c : ClassifiedQuestion) : String :=
  match c.clarifyingQuestion with
  | some q => if q = "" then "Could you provide the missing context so I can proceed accurately?" else q
  | none => "Could you provide the missing context so I can proceed accurately?"

section Decide

variable [PyText] (questionHash : String → String) (defaultMaxTurns : ℕ)

/-- the state that a decision starts from -/
def withBudget (state : ClarificationState) : ClarificationState :=
  if state.maxTurns < 1 then { state with maxTurns := max 1 defaultMaxTurns } else state

/-- `ClarificationManager.decide` -/
def decide (c : ClassifiedQuestion) (prior : Option ClarificationState) : ClarificationDecision :=
  let state := withBudget defaultMaxTurns (prior.getD (.fresh 2))
  if c.requiresClarification = false then ⟨none, [], [], { state with pendingSlots := [] }⟩
  else
    let missing := c.requiredContext.filter fun item => PyText.strip item ≠ ""
    let state := { state with pendingSlots := missing }
    let question := questionOf c
    if some (questionHash question) = state.lastQuestionHash ∨ question ∈ state.askedQuestions then
      bestEffortDecision state missing
    else if state.maxTurns ≤ state.turnCount then bestEffortDecision state missing
    else
      { clarifyingQuestion := some question
        missingBlockingSlots := missing
        assumptions := []
        updatedState :=
          { state with
            turnCount := state.turnCount + 1
            askedQuestions := state.askedQuestions ++ [question]
            lastQuestionHash := some (questionHash question)
            askedSlots := extendNew state.askedSlots missing } }

structure Asks (state : ClarificationState) (d : ClarificationDecision) : Prop where
  asked : ∃ q, d.clarifyingQuestion = some q ∧ q ∉ state.askedQuestions ∧
    d.updatedState.askedQuestions = state.askedQuestions ++ [q]
  within : state.turnCount < state.maxTurns
  counted : d.updatedState.turnCount = state.turnCount + 1
  budget : d.updatedState.maxTurns = state.maxTurns

structure Proceeds (state : ClarificationState) (d : ClarificationDecision) : Prop where
  silent : d.clarifyingQuestion = none
  recorded : d.updatedState.askedQuestions = state.askedQuestions
  counted : d.updatedState.turnCount = state.turnCount
  budget : d.updatedState.maxTurns = state.maxTurns

/-- **Decisions.** A question that is asked is new and within the budget; where none is asked although the classifier
wants to, there are assumptions. -/
theorem decide_cases (c : ClassifiedQuestion) (state : ClarificationState) (hmax : 1 ≤ state.maxTurns) :
    Asks state (decide questionHash defaultMaxTurns c (some state)) ∨
      (Proceeds state (decide questionHash defaultMaxTurns c (some state)) ∧
        (c.requiresClarification = true → (decide questionHash defaultMaxTurns c (some state)).assumptions ≠ [])) := by
  have hbudget : withBudget defaultMaxTurns state = state := if_neg (Nat.not_lt.2 hmax)
  unfold decide
  rw [Option.getD_some, hbudget]
  by_cases hrequires : c.requiresClarification = false
  · rw [if_pos hrequires]
    refine .inr ⟨⟨rfl, rfl, rfl, rfl⟩, fun h => ?_⟩
    rw [h] at hrequires
    cases hrequires
  · rw [if_neg hrequires]
    by_cases hasked : some (questionHash (questionOf c)) = state.lastQuestionHash ∨ questionOf c ∈ state.askedQuestions
    · rw [if_pos hasked]
      exact .inr ⟨⟨rfl, rfl, rfl, rfl⟩, fun _ => List.cons_ne_nil _ _⟩
    · rw [if_neg hasked]
      by_cases hspent : state.maxTurns ≤ state.turnCount
      · rw [if_pos hspent]
        exact .inr ⟨⟨rfl, rfl, rfl, rfl⟩, fun _ => List.cons_ne_nil _ _⟩
      · rw [if_neg hspent]
        exact .inl ⟨⟨questionOf c, rfl, fun h => hasked (.inr h), rfl⟩, Nat.not_le.1 hspent, rfl, rfl⟩

end Decide

end Clarification

end Langbridge.Orchestrator
