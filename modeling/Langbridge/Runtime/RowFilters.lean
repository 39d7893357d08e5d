/-
The identity that a policy's row filters see (`DatasetQueryService._build_row_filter_expressions`). A template is
rendered with `workspace_id`, `actor_id` and whatever the request's `user_context` holds, in this order.
-/
import Langbridge.Runtime.DatasetPreview

namespace Langbridge.Runtime.RowFilters

open Core Runtime.SqlParams Runtime.DatasetPreview List Dict

/-! ## Requests -/

/-- `CreateDatasetProfileJobRequest` -/
structure ProfileRequest where
  workspaceId : String
  actorId : String
  userContext : Params

/-- the requests that read a dataset through its policy -/
inductive FilterRequest where
  | preview (request : PreviewRequest)
  | profile (request : ProfileRequest)

namespace FilterRequest

def workspaceId : FilterRequest → String
  | preview r => r.workspaceId
  | profile r => r.workspaceId

def actorId : FilterRequest → String
  | preview r => r.actorId
  | profile r => r.actorId

def userContext : FilterRequest → Params
  | preview r => r.userContext
  | profile r => r.userContext

/-- what the host has authenticated, by the name of its placeholder -/
def identity (r : FilterRequest) : Params :=
  (Dict.empty.set "workspace_id".toList (.text r.workspaceId.toList)).set "actor_id".toList (.text r.actorId.toList)

def renderContext (r : FilterRequest) : Params := r.identity.update r.userContext

end FilterRequest

/-! ## What rendering writes -/

def nameOf : Piece → Option (List Char)
  | .char _ => none
  | .template n | .colon n => some n

/-- what a pass writes for a piece -/
def written (params : Params) : Piece → List Char
  | .char c => [c]
  | .template n | .colon n => literalOf params n

/-- a pass over a placeholder -/
theorem replace_placeholder (params : Params) {p : Piece} {n : List Char} (hp : nameOf p = some n) (ps : List Piece)
    (out : List Char) :
    replace params (p :: ps) = .ok out ↔
      ∃ v rest, params.get? n = some v ∧ replace params ps = .ok rest ∧ out = toSqlLiteral v ++ rest := by
  have hstep : replace params (p :: ps) =
      (params.get? n).elim (.error ("Missing SQL parameter '" ++ String.ofList n ++ "'."))
        fun v => do return toSqlLiteral v ++ (← replace params ps) := by
    cases p with
    | char c => cases hp
    | template m | colon m =>
      cases hp
      rw [SqlParams.replace]
      cases params.get? n <;> rfl
  rw [hstep]
  constructor
  · intro h
    cases hv : params.get? n with
    | none =>
      rw [hv] at h
      cases h
    | some v =>
      rw [hv] at h
      obtain ⟨rest, hrest, h⟩ := of_bind_ok h
      exact ⟨v, rest, rfl, hrest, (Except.ok.inj h).symm⟩
  · rintro ⟨v, rest, hv, hrest, rfl⟩
    rw [hv, hrest]
    rfl

/-! ## The identity in the context -/

theorem filterContext_get (r : FilterRequest) (n : List Char) :
    r.renderContext.get? n = (r.userContext.get? n).or (r.identity.get? n) :=
  get?_update _ _ n

section Identity

variable [PyText]

/-- the pieces that both passes over a template find, in the context that `render_sql_with_params` is given -/
def passes (params : Params) (template : List Char) : List Piece :=
  templatePieces template ++ colonPieces ((templatePieces template).flatMap (written params))

/-- rendering writes the request's own identity for each placeholder that is named after it -/
def UsesIdentity (r : FilterRequest) (template : String) : Prop :=
  ∀ rendered, renderSqlWithParams template.toList r.renderContext = .ok rendered →
    ∀ p ∈ passes r.renderContext template.toList, ∀ n own, nameOf p = some n → r.identity.get? n = some own →
      written r.renderContext p = toSqlLiteral own

/-- the user context does not give the identity another literal under this name -/
def Harmless (r : FilterRequest) (n : List Char) : Prop :=
  ∀ own v, r.identity.get? n = some own → r.userContext.get? n = some v → toSqlLiteral v = toSqlLiteral own

omit [PyText] in
theorem written_identity {r : FilterRequest} {p : Piece} {n : List Char} {own : SqlValue} (hp : nameOf p = some n)
    (hown : r.identity.get? n = some own) :
    written r.renderContext p = toSqlLiteral ((r.userContext.get? n).getD own) := by
  have hget : r.renderContext.get? n = some ((r.userContext.get? n).getD own) := by
    rw [filterContext_get, hown]
    cases r.userContext.get? n <;> rfl
  cases p with
  | char c => cases hp
  | template m =>
    cases hp
    exact literalOf_of_get hget
  | colon m =>
    cases hp
    exact literalOf_of_get hget

/-- a template uses the identity exactly if it does not render, or the user context leaves the names alone that its
placeholders ask for -/
theorem usesIdentity_iff (r : FilterRequest) (template : String) :
    UsesIdentity r template ↔ ∀ rendered, renderSqlWithParams template.toList r.renderContext = .ok rendered →
      ∀ p ∈ passes r.renderContext template.toList, ∀ n, nameOf p = some n → Harmless r n := by
  constructor
  · intro h rendered hrendered p hp n hn own v hown hv
    have hwritten := h rendered hrendered p hp n own hn hown
    rwa [written_identity hn hown, hv] at hwritten
  · intro h rendered hrendered p hp n own hn hown
    rw [written_identity hn hown]
    cases hv : r.userContext.get? n with
    | none => rfl
    | some v => exact h rendered hrendered p hp n hn own v hown hv

/-- a text without a brace holds no placeholder in braces -/
theorem templatePieces_of_noBrace (afterColon : Bool) (cs : List Char) (h : '\x7b' ∉ cs) :
    scan templateAt afterColon 0 cs = cs.map .char := by
  induction cs generalizing afterColon with
  | nil => rfl
  | cons c cs ih =>
    have hnone : templateAt afterColon (c :: cs) = none := by
      rw [Option.eq_none_iff_forall_ne_some]
      rintro ⟨k, p⟩ hk
      exact h ((templateAt_split hk).1 ▸ mem_cons_self)
    rw [scan, hnone, map_cons]
    rw [ih _ fun hmem => h (mem_cons_of_mem _ hmem)]

theorem passes_colon (hword : WordTable) (params : Params) {name : List Char} (hname : isIdent name = true) :
    templatePieces (':' :: name) = (':' :: name).map .char ∧ colonPieces (':' :: name) = [.colon name] ∧
      Piece.colon name ∈ passes params (':' :: name) := by
  have hbrace : '\x7b' ∉ ':' :: name := by
    rw [mem_cons, not_or]
    refine ⟨by decide, fun hmem => ?_⟩
    have hisWord := isWord_of_isIdent hword hname _ hmem
    rw [isWord_brace hword] at hisWord
    cases hisWord
  have htemplate : templatePieces (':' :: name) = (':' :: name).map .char :=
    templatePieces_of_noBrace false _ hbrace
  have hcolon : colonPieces (':' :: name) = [.colon name] := by
    have hfound : Found false [.colon name] := ⟨rfl, hname, rfl, trivial⟩
    have hscan := (scanColon_iff hword false [.colon name] fun p hp => by rw [mem_singleton.1 hp]; rfl).2 hfound
    rwa [textOf, textOf, append_nil] at hscan
  refine ⟨htemplate, hcolon, ?_⟩
  have hfirst : ((':' :: name).map Piece.char).flatMap (written params) = ':' :: name := by
    rw [flatMap_map]
    exact flatMap_singleton' _
  rw [passes, htemplate, hfirst, hcolon]
  exact mem_append_right _ mem_cons_self

omit [PyText] in
/-- the identity goes by names -/
theorem isIdent_identity {r : FilterRequest} {n : List Char} {own : SqlValue} (h : r.identity.get? n = some own) :
    isIdent n = true := by
  rw [FilterRequest.identity, get?_set, get?_set] at h
  split_ifs at h with hactor hworkspace
  · rw [hactor]
    decide
  · rw [hworkspace]
    decide
  · cases h

/-- **Row filters.** The identity that the filters of a request use is its own, whatever the templates are, if and only
if its user context gives neither name another literal; a single template may also leave the name alone. -/
theorem templates_useIdentity_iff (hword : WordTable) (r : FilterRequest) :
    ((∀ template, UsesIdentity r template) ↔ ∀ n, Harmless r n) ∧
      ∀ template, UsesIdentity r template ↔
        ∀ rendered, renderSqlWithParams template.toList r.renderContext = .ok rendered →
          ∀ p ∈ passes r.renderContext template.toList, ∀ n, nameOf p = some n → Harmless r n := by
  refine ⟨⟨fun h n own v hown hv => ?_, fun h template => ?_⟩, usesIdentity_iff r⟩
  · have hname := isIdent_identity hown
    obtain ⟨htemplate, hcolon, hmem⟩ := passes_colon hword r.renderContext hname
    have hget : r.renderContext.get? n = some v := by
      rw [filterContext_get, hv]
      rfl
    have hfirst : replace r.renderContext (templatePieces (':' :: n)) = .ok (':' :: n) := by
      have hchars := @replace_chars r.renderContext (':' :: n) [] [] rfl
      rwa [append_nil, append_nil, ← htemplate] at hchars
    have hrendered : renderSqlWithParams (':' :: n) r.renderContext = .ok (toSqlLiteral v) := by
      have hsecond : replace r.renderContext (colonPieces (':' :: n)) = .ok (toSqlLiteral v) := by
        rw [hcolon]
        exact (replace_placeholder _ rfl _ _).2 ⟨v, [], hget, rfl, (append_nil _).symm⟩
      rw [renderSqlWithParams, hfirst]
      exact hsecond
    have huses := h (String.ofList (':' :: n))
    rw [UsesIdentity, String.toList_ofList] at huses
    have hwritten := huses _ hrendered _ hmem n own rfl hown
    rwa [written_identity rfl hown, hv] at hwritten
  · exact (usesIdentity_iff r template).2 fun _ _ _ _ n _ => h n

end Identity

/-! ## Two requests of one identity -/

section Impersonated

open scoped Ascii

/-- a request of an actor of `w1` with a user context -/
def previewWith (userContext : Params) : FilterRequest :=
  .preview { workspaceId := "w1", actorId := "a1", enforcedLimit := 10, filters := Dict.empty, sort := [], userContext }

def profileWith (userContext : Params) : FilterRequest := .profile ⟨"w1", "a1", userContext⟩

/-- a user context that names another workspace -/
def otherWorkspace : Params := Dict.empty.set "workspace_id".toList (.text "w2".toList)

def tenantFilter : String := "tenant = \x7b\x7b workspace_id \x7d\x7d"

/-- with the user context the filter reads the rows of the other workspace, in a preview and in a profile -/
theorem impersonated :
    renderSqlWithParams tenantFilter.toList (previewWith Dict.empty).renderContext = .ok "tenant = 'w1'".toList ∧
      renderSqlWithParams tenantFilter.toList (previewWith otherWorkspace).renderContext =
        .ok "tenant = 'w2'".toList ∧
      renderSqlWithParams tenantFilter.toList (profileWith otherWorkspace).renderContext =
        .ok "tenant = 'w2'".toList ∧
      ¬ UsesIdentity (previewWith otherWorkspace) tenantFilter ∧
      ¬ UsesIdentity (profileWith otherWorkspace) tenantFilter := by
  have hpreview : renderSqlWithParams tenantFilter.toList (previewWith otherWorkspace).renderContext =
      .ok "tenant = 'w2'".toList := by rfl
  have hprofile : renderSqlWithParams tenantFilter.toList (profileWith otherWorkspace).renderContext =
      .ok "tenant = 'w2'".toList := by rfl
  refine ⟨by rfl, hpreview, hprofile, fun h => ?_, fun h => ?_⟩
  · have hwritten := h _ hpreview (.template "workspace_id".toList) (by decide) _ (.text "w1".toList) rfl (by rfl)
    exact absurd hwritten (by decide)
  · have hwritten := h _ hprofile (.template "workspace_id".toList) (by decide) _ (.text "w1".toList) rfl (by rfl)
    exact absurd hwritten (by decide)

/-- a user context with other names only -/
def team : Params := Dict.empty.set "team".toList (.text ":actor_id".toList)

theorem team_usesIdentity :
    (∀ n, Harmless (previewWith team) n) ∧ ∀ template, UsesIdentity (previewWith team) template := by
  have hharmless : ∀ n, Harmless (previewWith team) n := by
    intro n own v hown hv
    rw [FilterRequest.identity, get?_set, get?_set] at hown
    have hteam : (previewWith team).userContext.get? n =
        if n = "team".toList then some (.text ":actor_id".toList) else none :=
      get?_set _ _ _ _
    rw [hteam] at hv
    split_ifs at hv with hn
    rw [hn, if_neg (by decide), if_neg (by decide)] at hown
    cases hown
  exact ⟨hharmless, (templates_useIdentity_iff ascii_wordTable (previewWith team)).1.2 hharmless⟩

end Impersonated

end Langbridge.Runtime.RowFilters
