/-
Denied assets in a request (`orchestrator/runtime/access_policy.py`, `tools/sql_analyst/interfaces.py`). A name, the
question and the names of the filters are read in small letters with one blank between words; a name of several words is
looked for as a part of that text, a single word of at least three characters among its runs of ASCII letters, digits
and underscores.

Main results: `combinedText_eq`, `part_combinedText_iff`, `matchesRequest_of_occurs`, `occurs_of_matchesRequest`.
-/
import Langbridge.Core.Words
import Langbridge.Core.Json
import Langbridge.Core.Dict

namespace Langbridge.Orchestrator.AccessPolicy

open Core List

/-- the blank is of `\s` -/
class PyBlank extends PyClasses where
  isSpace_blank : PyText.isSpace ' ' = true

namespace Ascii

open scoped Core.Ascii

scoped instance : PyBlank where
  isSpace_blank := by decide

end Ascii

/-! ## Requests and responses (`sql_analyst/interfaces.py`) -/

/-- a value of `dict[str, Any]`: JSON, an object that JSON has no value for, or a dictionary of values -/
inductive DictValue where
  | json (v : Json)
  | object (text : String)
  | dict (entries : List (String × DictValue))

mutual

/-- `json.dumps` takes the value -/
def DictValue.encodable : DictValue → Bool
  | .json _ => true
  | .object _ => false
  | .dict entries => encodableEntries entries

def encodableEntries : List (String × DictValue) → Bool
  | [] => true
  | (_, v) :: entries => v.encodable && encodableEntries entries

end

inductive AssetType where
  | dataset
  | semanticModel
deriving DecidableEq

def AssetType.value : AssetType → String
  | .dataset => "dataset"
  | .semanticModel => "semantic_model"

inductive AnalystOutcomeStatus where
  | success
  | emptyResult
  | accessDenied
  | invalidRequest
  | queryError
  | selectionError
  | executionError
  | needsClarification
deriving DecidableEq

def AnalystOutcomeStatus.value : AnalystOutcomeStatus → String
  | .success => "success"
  | .emptyResult => "empty_result"
  | .accessDenied => "access_denied"
  | .invalidRequest => "invalid_request"
  | .queryError => "query_error"
  | .selectionError => "selection_error"
  | .executionError => "execution_error"
  | .needsClarification => "needs_clarification"

inductive AnalystOutcomeStage where
  | request
  | authorization
  | selection
  | query
  | execution
  | result
  | clarification
deriving DecidableEq

structure AnalystRecoveryAction where
  action : String
  rationale : Option String := none
  details : List (String × Json) := []

structure AnalystExecutionOutcome where
  status : AnalystOutcomeStatus
  stage : Option AnalystOutcomeStage := none
  message : Option String := none
  originalError : Option String := none
  recoverable : Bool := false
  terminal : Bool := true
  retryAttempted : Bool := false
  rewriteAttempted : Bool := false
  retryCount : ℕ := 0
  retryRationale : Option String := none
  selectedToolName : Option String := none
  selectedAssetId : Option String := none
  selectedAssetName : Option String := none
  selectedAssetType : Option AssetType := none
  recoveryActions : List AnalystRecoveryAction := []
  metadata : List (String × DictValue) := []

structure AnalystQueryRequest where
  question : String
  conversationContext : Option String := none
  filters : Option (List (String × DictValue)) := none
  limit : Option ℤ := some 1000
  errorRetries : ℕ := 0
  errorHistory : List String := []

structure QueryResult where
  columns : List String
  rows : List (List Json)
  rowcount : Option ℤ := none

structure AnalystQueryResponse where
  analysisPath : AssetType
  assetType : AssetType
  assetId : String
  assetName : String
  sqlCanonical : String
  sqlExecutable : String
  dialect : String
  result : Option QueryResult := none
  error : Option String := none
  executionTimeMs : Option ℤ := none
  outcome : Option AnalystExecutionOutcome := none

def orElse (value other : Option String) : Option String :=
  match value with
  | none => other
  | some v => if v = "" then other else some v

def filterValues (request : AnalystQueryRequest) : DictValue := .dict (request.filters.getD [])

/-- a whole number, or `None` -/
def limitValue : Option ℤ → DictValue
  | none => .json .null
  | some i => .json (.int i)

/-! ## Denied assets -/

section Policy

variable [PyClasses]

open PyText

def normalizeText (value : String) : List Char := trim isSpace (squeeze isSpace ' ' false (norm value).toList)

/-- `value.replace(old, new)` of characters -/
def replace (old new : Char) (value : List Char) : List Char := value.map fun c => if c = old then new else c

def expandMatchVariants (value : String) : List (List Char) :=
  let normalized := normalizeText value
  if normalized = [] then []
  else
    (([normalized, replace '_' ' ' normalized, replace '-' ' ' normalized, replace '.' ' ' normalized] ++
      if ' ' ∈ normalized then [replace ' ' '_' normalized, replace ' ' '-' normalized] else []).map
        (trim isSpace)).filter (· ≠ [])

/-- `[A-Za-z0-9_]` -/
def isTokenChar (c : Char) : Bool := c.isAlphanum || c = '_'

/-- `_TOKEN_RE.findall` -/
def findTokens (text : List Char) : List (List Char) := words (fun c => !isTokenChar c) text

structure AnalyticalDeniedAsset where
  assetType : AssetType
  assetId : String
  assetName : String
  datasetNames : List String := []
  sqlAliases : List String := []
  connectorIds : List String := []
  deniedConnectorIds : List String := []
  policyRule : String := ""
  policyRationale : String := ""
  unknownConnectorOwnership : Bool := false

namespace AnalyticalDeniedAsset

def names (asset : AnalyticalDeniedAsset) : List String := asset.assetName :: asset.datasetNames ++ asset.sqlAliases

end AnalyticalDeniedAsset

/-- `" ".join((filters or {}).keys())` -/
def filterKeys (filters : Option (List (String × DictValue))) : String :=
  " ".intercalate ((filters.getD []).map Prod.fst)

/-- the question and the names of the filters, each if there is anything of it -/
def combinedText (question : String) (filters : Option (List (String × DictValue))) : List Char :=
  [ ' '].intercalate ([normalizeText question, normalizeText (filterKeys filters)].filter (· ≠ []))

/-- a term is in a text -/
def termMatches (combined term : List Char) : Bool :=
  (decide (' ' ∈ term) && decide (term <:+: combined)) ||
    (decide (term ∈ findTokens combined) && decide (3 ≤ term.length))

/-- `matches_request`: terms in any order, since the first that matches ends the search -/
def AnalyticalDeniedAsset.matchesRequest (asset : AnalyticalDeniedAsset) (question : String)
    (filters : Option (List (String × DictValue))) : Bool :=
  let combined := combinedText question filters
  combined ≠ [] && (asset.names.flatMap expandMatchVariants).any (termMatches combined)

/-- letter case and outer blanks of a question do not count -/
theorem AnalyticalDeniedAsset.matchesRequest_congr (asset : AnalyticalDeniedAsset) {question question' : String}
    (h : norm question = norm question') (filters : Option (List (String × DictValue))) :
    asset.matchesRequest question filters = asset.matchesRequest question' filters := by
  unfold matchesRequest combinedText normalizeText
  rw [h]

structure AnalyticalAccessScope where
  policyEnforced : Bool := false
  authorizedAssetCount : ℤ := 0
  deniedAssets : List AnalyticalDeniedAsset := []

def AnalyticalAccessScope.matchDeniedRequest (scope : AnalyticalAccessScope) (question : String)
    (filters : Option (List (String × DictValue))) : Option AnalyticalDeniedAsset :=
  scope.deniedAssets.find? fun asset => asset.matchesRequest question filters

theorem AnalyticalAccessScope.matchDeniedRequest_congr (scope : AnalyticalAccessScope) {question question' : String}
    (h : norm question = norm question') (filters : Option (List (String × DictValue))) :
    scope.matchDeniedRequest question filters = scope.matchDeniedRequest question' filters := by
  unfold matchDeniedRequest
  congr 1
  funext asset
  exact asset.matchesRequest_congr h filters

end Policy

/-! ## The text that is searched -/

section Search

variable [PyBlank]

open PyText PyBlank

/-- the small letters of the question and of the names of the filters, a blank between them -/
def requestText (question : String) (filters : Option (List (String × DictValue))) : List Char :=
  (lower question).toList ++ ' ' :: (lower (filterKeys filters)).toList

/-- a name is in a text, up to letter case and blanks, between characters that do not satisfy `q` -/
def Occurs (q : Char → Bool) (name : List Char) (text : List Char) : Prop :=
  ∃ mid, Part q mid text ∧ Trimmed isSpace mid ∧ words isSpace mid = words isSpace name

omit [PyBlank] in
theorem toList_norm [PyStrip] (s : String) : (norm s).toList = trim isSpace (lower s).toList := by
  change (lower (strip s)).toList = _
  rw [← PyText.strip_lower, PyStrip.toList_strip]

/-- **A name as it is looked for**: its words with one blank between them. -/
theorem normalizeText_eq (s : String) : normalizeText s = [ ' '].intercalate (words isSpace (lower s).toList) := by
  rw [normalizeText, toList_norm, trim_squeeze_trim isSpace_blank]

theorem normalizeText_eq_nil_iff (s : String) : normalizeText s = [] ↔ words isSpace (lower s).toList = [] := by
  rw [normalizeText_eq]
  exact intercalate_words_eq_nil_iff _

/-- **The text that is searched** has the words of the question and of the filters. -/
theorem combinedText_eq (question : String) (filters : Option (List (String × DictValue))) :
    combinedText question filters = squeeze isSpace ' ' false (trim isSpace (requestText question filters)) := by
  rw [squeeze_trimmed (trim_trimmed _ _), words_trim, requestText, words_append isSpace_blank, combinedText]
  by_cases hquestion : normalizeText question = []
  · rw [filter_cons_of_neg (by simp [hquestion]), (normalizeText_eq_nil_iff question).1 hquestion, nil_append]
    by_cases hfilters : normalizeText (filterKeys filters) = []
    · rw [filter_cons_of_neg (by simp [hfilters]), (normalizeText_eq_nil_iff _).1 hfilters]
      rfl
    · rw [filter_cons_of_pos (by simp [hfilters]), filter_nil, intercalate_singleton, normalizeText_eq]
  · rw [filter_cons_of_pos (by simp [hquestion])]
    by_cases hfilters : normalizeText (filterKeys filters) = []
    · rw [filter_cons_of_neg (by simp [hfilters]), filter_nil, (normalizeText_eq_nil_iff _).1 hfilters,
        intercalate_singleton, append_nil, normalizeText_eq]
    · rw [filter_cons_of_pos (by simp [hfilters]), filter_nil, intercalate_cons_cons,
        intercalate_singleton, normalizeText_eq, normalizeText_eq,
        intercalate_append (mt (normalizeText_eq_nil_iff _).2 hquestion) (mt (normalizeText_eq_nil_iff _).2 hfilters)]

/-- **Parts of the text that is searched** are parts of the question and the filters up to the extent of blanks. -/
theorem part_combinedText_iff {q : Char → Bool} (hq : ∀ c, isSpace c = true → q c = false) {m : List Char}
    (hm : Trimmed isSpace m) (hne : m ≠ []) (question : String) (filters : Option (List (String × DictValue))) :
    Part q m (combinedText question filters) ↔ ∃ mid, Part q mid (requestText question filters) ∧
      Trimmed isSpace mid ∧ squeeze isSpace ' ' false mid = m := by
  rw [combinedText_eq, part_squeeze_iff isSpace_blank hq hm hne]
  refine exists_congr fun mid => and_congr_left fun h => ?_
  refine part_trim_iff hq h.1 ?_ _
  rintro rfl
  exact hne h.2.symm

theorem isWord_of_isTokenChar {c : Char} (h : isTokenChar c = true) : isWord c = true := by
  have hc := h
  rw [isTokenChar, Bool.or_eq_true] at hc
  rw [PyClasses.isWord_ascii c ?_]
  · exact h
  · rcases hc with hc | hc
    · have hbounds := alphanum_bounds hc
      omega
    · rw [of_decide_eq_true hc]
      decide

theorem isTokenChar_space {c : Char} (h : isSpace c = true) : isTokenChar c = false := by
  by_contra hc
  rw [Bool.not_eq_false] at hc
  have hword := isWord_of_isTokenChar hc
  rw [PyClasses.isWord_space c h] at hword
  cases hword

theorem trimmed_normalizeText (s : String) : Trimmed isSpace (normalizeText s) := trim_trimmed isSpace _

/-- every form of a name is trimmed and not empty -/
theorem of_mem_expandMatchVariants {name : String} {m : List Char} (h : m ∈ expandMatchVariants name) :
    Trimmed isSpace m ∧ m ≠ [] := by
  unfold expandMatchVariants at h
  by_cases hnil : normalizeText name = []
  · simp [hnil] at h
  · rw [if_neg hnil, mem_filter, mem_map] at h
    obtain ⟨⟨v, -, rfl⟩, hne⟩ := h
    exact ⟨trim_trimmed isSpace v, of_decide_eq_true hne⟩

/-- the name itself is one of its forms -/
theorem normalizeText_mem {name : String} (h : normalizeText name ≠ []) :
    normalizeText name ∈ expandMatchVariants name := by
  unfold expandMatchVariants
  rw [if_neg h, mem_filter]
  refine ⟨mem_map.2 ⟨normalizeText name, by simp, ?_⟩, decide_eq_true h⟩
  exact trim_of_trimmed _ _ (trimmed_normalizeText name)

/-- a name that an asset can be found by: several words, or one of at least three letters, digits and underscores -/
def Findable (name : String) : Prop :=
  2 ≤ (words isSpace (lower name).toList).length ∨
    ∃ w, words isSpace (lower name).toList = [w] ∧ 3 ≤ w.length ∧ ∀ c ∈ w, isTokenChar c = true

theorem Findable.words_ne_nil {name : String} (h : Findable name) : words isSpace (lower name).toList ≠ [] := by
  intro hnil
  rcases h with h | ⟨w, h, -⟩
  · rw [hnil] at h
    exact absurd h (by decide)
  · rw [hnil] at h
    cases h

/-- **Names that are found** wherever they occur as whole words -/
theorem matchesRequest_of_occurs {asset : AnalyticalDeniedAsset} {question : String}
    {filters : Option (List (String × DictValue))} {name : String} (hname : name ∈ asset.names) (hfind : Findable name)
    (h : Occurs isWord (lower name).toList (requestText question filters)) :
    asset.matchesRequest question filters = true := by
  have hne : normalizeText name ≠ [] := mt (normalizeText_eq_nil_iff name).1 hfind.words_ne_nil
  obtain ⟨mid, hpart, htrim, hwords⟩ := h
  have hmid : squeeze isSpace ' ' false mid = normalizeText name := by
    rw [squeeze_trimmed htrim, hwords, normalizeText_eq]
  have hcombined : Part isWord (normalizeText name) (combinedText question filters) :=
    (part_combinedText_iff PyClasses.isWord_space (trimmed_normalizeText name) hne question filters).2
      ⟨mid, hpart, htrim, hmid⟩
  have hsome : combinedText question filters ≠ [] := by
    intro hnil
    rw [hnil] at hcombined
    exact hne (infix_nil.1 hcombined.isInfix)
  unfold AnalyticalDeniedAsset.matchesRequest
  rw [Bool.and_eq_true, any_eq_true]
  refine ⟨decide_eq_true hsome, normalizeText name, mem_flatMap.2 ⟨name, hname, normalizeText_mem hne⟩, ?_⟩
  rw [termMatches, Bool.or_eq_true, Bool.and_eq_true, Bool.and_eq_true]
  rcases hfind with htwo | ⟨w, hw, hlength, htoken⟩
  · refine .inl ⟨decide_eq_true ?_, decide_eq_true hcombined.isInfix⟩
    rw [normalizeText_eq]
    match hwords : words isSpace (lower name).toList, htwo with
    | v :: v' :: vs, _ =>
      simp
  · have hname : normalizeText name = w := by rw [normalizeText_eq, hw, intercalate_singleton]
    rw [hname] at hcombined ⊢
    refine .inr ⟨decide_eq_true (mem_words_iff.2 ⟨?_, fun c hc => by rw [htoken c hc]; rfl, ?_⟩),
      decide_eq_true hlength⟩
    · rintro rfl
      exact absurd hlength (by decide)
    · refine hcombined.mono fun c hc => ?_
      rw [Bool.not_not]
      by_contra htrue
      rw [Bool.not_eq_false] at htrue
      rw [isWord_of_isTokenChar htrue] at hc
      cases hc

/-- a form of a name that is found: of several words, as any part; else as a run of letters, digits and underscores -/
def FormOccurs (m text : List Char) : Prop :=
  (' ' ∈ m ∧ Occurs (fun _ => false) m text) ∨
    (3 ≤ m.length ∧ (∀ c ∈ m, isTokenChar c = true) ∧ Part isTokenChar m text)

/-- **What is found** occurs in the question or the names of the filters. -/
theorem occurs_of_matchesRequest {asset : AnalyticalDeniedAsset} {question : String}
    {filters : Option (List (String × DictValue))} (h : asset.matchesRequest question filters = true) :
    ∃ name ∈ asset.names, ∃ m ∈ expandMatchVariants name, FormOccurs m (requestText question filters) := by
  unfold AnalyticalDeniedAsset.matchesRequest at h
  rw [Bool.and_eq_true, any_eq_true] at h
  obtain ⟨-, m, hm, hmatch⟩ := h
  obtain ⟨name, hname, hm⟩ := mem_flatMap.1 hm
  obtain ⟨htrim, hne⟩ := of_mem_expandMatchVariants hm
  refine ⟨name, hname, m, hm, ?_⟩
  rw [termMatches, Bool.or_eq_true, Bool.and_eq_true, Bool.and_eq_true, decide_eq_true_eq, decide_eq_true_eq,
    decide_eq_true_eq, decide_eq_true_eq] at hmatch
  rcases hmatch with ⟨hblank, hinfix⟩ | ⟨htoken, hlength⟩
  · obtain ⟨mid, hpart, hmid, hsqueeze⟩ :=
      (part_combinedText_iff (fun _ _ => rfl) htrim hne question filters).1 (part_of_isInfix hinfix)
    exact .inl ⟨hblank, mid, hpart, hmid, by rw [← hsqueeze, words_squeeze isSpace_blank]⟩
  · obtain ⟨-, hall, hpart⟩ := mem_words_iff.1 htoken
    have hchars : ∀ c ∈ m, isTokenChar c = true := fun c hc => by simpa using hall c hc
    have hpart' : Part isTokenChar m (combinedText question filters) :=
      hpart.mono fun c hc => by rwa [Bool.not_not] at hc
    obtain ⟨mid, hmid, -, hsqueeze⟩ :=
      (part_combinedText_iff (fun c => isTokenChar_space) htrim hne question filters).1 hpart'
    have hself : mid = m := by
      rw [← hsqueeze]
      refine (squeeze_eq_self isSpace_blank fun c hc => ?_).symm
      rw [hsqueeze] at hc
      by_contra hspace
      rw [Bool.not_eq_false] at hspace
      exact Bool.false_ne_true ((isTokenChar_space hspace).symm.trans (hchars c hc))
    exact .inr ⟨hlength, hchars, hself ▸ hmid⟩

end Search

/-! ## Access-denied responses -/

def texts (l : List String) : DictValue := .json (.arr (l.map .str))

def AnalyticalDeniedAsset.toMetadata (asset : AnalyticalDeniedAsset) : List (String × DictValue) :=
  [("requested_asset_name", .json (.str asset.assetName)), ("requested_asset_id", .json (.str asset.assetId)),
    ("requested_asset_type", .json (.str asset.assetType.value)),
    ("requested_dataset_names", texts asset.datasetNames), ("requested_sql_aliases", texts asset.sqlAliases),
    ("connector_ids", texts asset.connectorIds), ("denied_connector_ids", texts asset.deniedConnectorIds),
    ("policy_rule", .json (.str asset.policyRule)), ("policy_rationale", .json (.str asset.policyRationale)),
    ("unknown_connector_ownership", .json (.bool asset.unknownConnectorOwnership))]

namespace AnalyticalAccessScope

def allConfiguredAssetsDenied (scope : AnalyticalAccessScope) : Bool :=
  !scope.deniedAssets.isEmpty && decide (scope.authorizedAssetCount ≤ 0)

def aggregateDeniedConnectorIds (scope : AnalyticalAccessScope) : List String :=
  ((scope.deniedAssets.flatMap fun asset =>
    if asset.deniedConnectorIds = [] then asset.connectorIds else asset.deniedConnectorIds).dedup).mergeSort
      fun a b => decide (a ≤ b)

def toMetadata (scope : AnalyticalAccessScope) : List (String × DictValue) :=
  [("policy_enforced", .json (.bool scope.policyEnforced)),
    ("authorized_assets_count", .json (.int scope.authorizedAssetCount)),
    ("denied_assets_count", .json (.int scope.deniedAssets.length)),
    ("denied_connector_ids", texts scope.aggregateDeniedConnectorIds)]

end AnalyticalAccessScope

def buildAccessDeniedMessage (deniedAsset : Option AnalyticalDeniedAsset) (scope : AnalyticalAccessScope) : String :=
  match deniedAsset with
  | none => "Access denied: none of this agent's configured analytical assets are available under the current " ++
      "connector access policy."
  | some asset =>
    if asset.policyRule = "unknown_connector_ownership" then
      "Access denied: " ++ asset.assetName ++ " is blocked because its backing connector ownership could not be " ++
        "resolved under the current access policy."
    else if asset.policyRule = "denied_connectors" then
      "Access denied: " ++ asset.assetName ++ " uses a connector that is explicitly denied for this agent."
    else if asset.policyRule = "outside_allowed_connectors" then
      "Access denied: " ++ asset.assetName ++ " is outside this agent's allowed connector scope."
    else if scope.allConfiguredAssetsDenied then
      "Access denied: the current agent cannot reach any of its configured analytical assets under the active " ++
        "connector policy."
    else "Access denied: the requested analytical asset is outside this agent's access policy."

def buildRecoveryHint (scope : AnalyticalAccessScope) : String :=
  if 0 < scope.authorizedAssetCount then "Retry with one of the agent's in-scope analytical assets."
  else if scope.policyEnforced then
    "Ask an administrator to expand the agent's connector policy or update the configured analytical assets."
  else "Adjust the request or update the agent access policy before retrying."

def buildAccessDeniedResponse (request : AnalystQueryRequest) (scope : AnalyticalAccessScope)
    (deniedAsset : Option AnalyticalDeniedAsset) (recoveryActions : List AnalystRecoveryAction) :
    AnalystQueryResponse :=
  let message := buildAccessDeniedMessage deniedAsset scope
  let metadata := scope.toMetadata.foldl (fun m e => Dict.setEntry e.1 e.2 m)
    [("question", .json (.str request.question)), ("limit", limitValue request.limit),
      ("filters", filterValues request), ("recovery_hint", .json (.str (buildRecoveryHint scope))),
      ("policy_rationale", .json (.str (deniedAsset.elim
        "All configured analytical assets fall outside the current connector access policy." (·.policyRationale))))]
  let assetType := deniedAsset.elim AssetType.dataset (·.assetType)
  { analysisPath := assetType
    assetType := assetType
    assetId := deniedAsset.elim "" (·.assetId)
    assetName := deniedAsset.elim "" (·.assetName)
    sqlCanonical := ""
    sqlExecutable := ""
    dialect := "n/a"
    error := some message
    outcome := some
      { status := .accessDenied
        stage := some .authorization
        message := some message
        originalError := some "access_denied"
        recoverable := false
        terminal := true
        selectedAssetId := deniedAsset.map (·.assetId)
        selectedAssetName := deniedAsset.map (·.assetName)
        -- the validator of the response fills in the type of the asset
        selectedAssetType := some assetType
        recoveryActions := recoveryActions
        metadata := deniedAsset.elim metadata fun asset =>
          asset.toMetadata.foldl (fun m e => Dict.setEntry e.1 e.2 m) metadata } }

end Langbridge.Orchestrator.AccessPolicy
