/-
Requests about denied assets (`orchestrator/runtime/access_policy.py`, the access check of
`orchestrator/agents/analyst/agent.py`). A name of several words or of at least three letters, digits and underscores is
found wherever it occurs as whole words, and then no tool runs; a hyphen or a dot in a single word hides it, and so does
a short name.
-/
import Langbridge.Orchestrator.AnalystAgent

namespace Langbridge.Orchestrator.DeniedRequests

open Core AccessPolicy AnalystAgent List PyText

section Policy

variable [PyBlank]

open PyText PyBlank

def Mentioned (name question : String) (filters : Option (List (String × DictValue))) : Prop :=
  Occurs isWord (lower name).toList (lower question).toList ∨
    Occurs isWord (lower name).toList (lower (filterKeys filters)).toList

theorem occurs_of_mentioned {name question : String} {filters : Option (List (String × DictValue))}
    (h : Mentioned name question filters) : Occurs isWord (lower name).toList (requestText question filters) := by
  have hblank : isWord ' ' = false := PyClasses.isWord_space ' ' isSpace_blank
  rcases h with ⟨mid, ⟨a, b, htext, ha, hb⟩, htrim, hwords⟩ | ⟨mid, ⟨a, b, htext, ha, hb⟩, htrim, hwords⟩
  · refine ⟨mid, ⟨a, b ++ ' ' :: (lower (filterKeys filters)).toList, ?_, ha, ?_⟩, htrim, hwords⟩
    · rw [requestText, htext]
      simp
    · cases b with
      | nil => exact hblank
      | cons c b => exact hb
  · refine ⟨mid, ⟨(lower question).toList ++ ' ' :: a, b, ?_, ?_, hb⟩, htrim, hwords⟩
    · rw [requestText, htext]
      simp
    · rw [getLast?_append, getLast?_cons]
      cases hlast : a.getLast? with
      | none => exact hblank
      | some c =>
        rw [hlast] at ha
        exact ha

/-- preparing a request keeps its filters, and its question but for outer blanks -/
theorem prepareRequest_question {request prepared : AnalystQueryRequest} {actions : List AnalystRecoveryAction}
    (h : prepareRequest request = (prepared, actions, none)) :
    norm prepared.question = norm request.question ∧ prepared.filters = request.filters := by
  have hlimited : (limited request).question = request.question ∧ (limited request).filters = request.filters := by
    unfold limited
    split_ifs <;> exact ⟨rfl, rfl⟩
  unfold prepareRequest at h
  dsimp only at h
  split_ifs at h
  · cases h
  · cases h
  · cases h
    refine ⟨?_, hlimited.2⟩
    rw [← hlimited.1]
    exact congrArg lower (strip_strip _)

/-- a request that is turned down has an outcome -/
theorem invalid_outcome {request prepared : AnalystQueryRequest} {actions : List AnalystRecoveryAction}
    {response : AnalystQueryResponse} (h : prepareRequest request = (prepared, actions, some response)) :
    ∃ outcome, response.outcome = some outcome := by
  unfold prepareRequest at h
  dsimp only at h
  split_ifs at h <;> cases h <;> exact ⟨_, rfl⟩

/-- **A request that names a denied asset** runs no tool: it is denied, if it is not turned down as invalid. -/
theorem answer_of_denied (agent : Agent) (env : Environment) (fuel : ℕ) (request : AnalystQueryRequest)
    (h : (agent.accessScope.matchDeniedRequest request.question request.filters).isSome = true) :
    ∃ response outcome, answerWithRequest agent env fuel request = some ⟨.returned response, []⟩ ∧
      response.outcome = some outcome ∧
      (outcome.status = .accessDenied ∨ (prepareRequest { request with errorRetries := 0 }).2.2 = some response) := by
  rw [answerWithRequest]
  obtain ⟨prepared, actions, invalid, hprepare⟩ : ∃ prepared actions invalid,
      prepareRequest { request with errorRetries := 0 } = (prepared, actions, invalid) := ⟨_, _, _, rfl⟩
  rw [hprepare]
  cases invalid with
  | some response =>
    obtain ⟨outcome, houtcome⟩ := invalid_outcome hprepare
    exact ⟨response, outcome, rfl, houtcome, .inr rfl⟩
  | none =>
    obtain ⟨hquestion, hfilters⟩ := prepareRequest_question hprepare
    obtain ⟨asset, hasset⟩ := Option.isSome_iff_exists.1 h
    have hdenied : agent.accessScope.matchDeniedRequest prepared.question prepared.filters = some asset := by
      rw [hfilters, ← hasset]
      exact agent.accessScope.matchDeniedRequest_congr hquestion _
    simp only [hdenied]
    exact ⟨_, _, rfl, rfl, .inl rfl⟩

end Policy

/-! ## Names that are not found -/

section Hidden

open scoped Ascii

def assetNamed (name : List Char) : AnalyticalDeniedAsset :=
  { assetType := .dataset, assetId := "1", assetName := String.ofList name }

/-- a text without blanks has none at its ends -/
theorem trimmed_of_all (l : List Char) (h : l.all (fun c => !isSpace c) = true) : Trimmed isSpace l := by
  have hall : ∀ c ∈ l, isSpace c = false := by simpa using h
  exact ⟨fun c hc => hall c (mem_of_mem_head? hc), fun c hc => hall c (mem_of_getLast? hc)⟩

/-- a name that is the last word of a question -/
theorem mentioned_last (name : List Char)
    (hname : (lower (String.ofList name)).toList.all (fun c => !isSpace c) = true)
    (htext : (lower (String.ofList ([ 'm', 'y', ' '] ++ name))).toList =
      [ 'm', 'y', ' '] ++ (lower (String.ofList name)).toList) :
    Mentioned (String.ofList name) (String.ofList ([ 'm', 'y', ' '] ++ name)) none :=
  .inl ⟨_, ⟨[ 'm', 'y', ' '], [], by rw [htext, append_nil], rfl, rfl⟩, trimmed_of_all _ hname, rfl⟩

def Missed (name : List Char) : Prop :=
  Mentioned (String.ofList name) (String.ofList ([ 'm', 'y', ' '] ++ name)) none ∧
    AnalyticalAccessScope.matchDeniedRequest { deniedAssets := [assetNamed name] }
      (String.ofList ([ 'm', 'y', ' '] ++ name)) none = none

end Hidden

end Langbridge.Orchestrator.DeniedRequests
