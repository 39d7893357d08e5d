/-
The query gateway of the ODBC endpoint (`runtime/hosting/odbc.py`): positional parameters are rendered into the text,
session commands are answered at once, texts that hold a catalog keyword by an in-memory catalog, all others by the
runtime. sqlglot, the in-memory database and the runtime are parameters.
-/
import Langbridge.Core.Json
import Langbridge.Runtime.SqlGuards
import Langbridge.Runtime.SqlParams

namespace Langbridge.Runtime.Odbc

open Core PyText

/-! ## Results -/

/-- `RuntimeOdbcEndpointConfig` -/
structure OdbcConfig where
  databaseName : String
  schemaName : String
  maxRows : ℕ

/-- `RuntimeOdbcQueryResult`: columns with their type OIDs -/
structure OdbcResult where
  columns : List (String × ℕ)
  rows : List (List Json)
  commandTag : String

/-- the payload of `execute_sql`: columns with their types, and rows -/
structure SqlPayload where
  columns : List (String × Option String)
  rows : List (Dict String Json)

def pgTypeOids : List (String × ℕ) :=
  [("bool", 16), ("bytea", 17), ("int8", 20), ("int2", 21), ("int4", 23), ("text", 25), ("oid", 26), ("float4", 700),
    ("float8", 701), ("varchar", 1043), ("date", 1082), ("time", 1083), ("timestamp", 1114), ("timestamptz", 1184),
    ("numeric", 1700)]

def textOid : ℕ := 25

def inferTypeOidFromValue : Json → ℕ
  | .bool _ => 16
  | .int _ => 20
  | .float _ => 701
  | _ => textOid

/-! ## Positional parameters -/

/-- a piece of a text: a character, or `$n` -/
inductive Part where
  | char (c : Char)
  | param (n : ℕ)
  deriving DecidableEq

def digitsValue (ds : List Char) : ℕ := ds.foldl (fun n c => 10 * n + (c.toNat - '0'.toNat)) 0

section Gateway

variable [PyText]

/-- a match of `_POSITIONAL_PARAM_RE` at the start of a text: the number of digits and the number -/
def positionalAt : List Char → Option (ℕ × ℕ)
  | '$' :: cs =>
    let ds := cs.takeWhile isWord
    match ds with
    | d :: rest => if d ≠ '0' && d.isDigit && rest.all Char.isDigit then some (ds.length, digitsValue ds) else none
    | [] => none
  | _ => none

/-- the pieces of a text; the number is how many characters a match still takes -/
def paramParts : ℕ → List Char → List Part
  | _, [] => []
  | n + 1, _ :: cs => paramParts n cs
  | 0, c :: cs =>
    match positionalAt (c :: cs) with
    | some (n, i) => .param i :: paramParts n cs
    | none => .char c :: paramParts 0 cs

def countQueryParameters (query : String) : ℕ :=
  ((paramParts 0 query.toList).filterMap fun
    | .param n => some n
    | .char _ => none).foldl max 0

/-- `_sql_literal` of a bound parameter -/
def sqlLiteral : Option String → List Char
  | none => "NULL".toList
  | some s => SqlParams.quoted s.toList

/-- `re.sub` with `_replace` -/
def replaceParams (parameters : List (Option String)) : List Part → Except String (List Char)
  | [] => .ok []
  | .char c :: ps => do return c :: (← replaceParams parameters ps)
  | .param n :: ps =>
    match parameters[n - 1]? with
    | none => .error ("Missing SQL parameter $" ++ toString n ++ ".")
    | some v => do return sqlLiteral v ++ (← replaceParams parameters ps)

def renderQueryWithParameters (query : String) (parameters : List (Option String)) : Except String String :=
  if parameters = [] then .ok query
  else (replaceParams parameters (paramParts 0 query.toList)).map String.ofList

/-! ## Routing -/

def startsWith (text start : String) : Bool := start.toList.isPrefixOf text.toList

def contains (text token : String) : Bool := decide (token.toList <:+: text.toList)

def lowered (query : String) : String := lower (strip query)

def isSessionCommand (query : String) : Bool :=
  ["begin", "start transaction", "commit", "rollback", "set ", "reset ", "discard ", "deallocate "].any
    (startsWith (lowered query))

/-- the keywords of `_is_metadata_query` -/
def metadataTokens : List String :=
  ["information_schema.", "pg_catalog.", "show ", "version()", "current_database()", "current_catalog",
    "current_schema()", "current_schemas("]

def isMetadataQuery (query : String) : Bool := metadataTokens.any (contains (lowered query))

def executeSessionCommand (query : String) : OdbcResult :=
  let text := lowered query
  if startsWith text "begin" || startsWith text "start transaction" then ⟨[], [], "BEGIN"⟩
  else if startsWith text "commit" then ⟨[], [], "COMMIT"⟩
  else if startsWith text "rollback" then ⟨[], [], "ROLLBACK"⟩
  else ⟨[], [], "SET"⟩

variable (config : OdbcConfig)

/-- the settings of `_show_setting` -/
def settings : List (String × String) :=
  [("search_path", config.schemaName), ("transaction_read_only", "on"), ("server_version", "16.0-langbridge"),
    ("standard_conforming_strings", "on"), ("integer_datetimes", "on"), ("client_encoding", "UTF8"),
    ("server_encoding", "UTF8"), ("application_name", "langbridge"), ("timezone", "UTC"), ("datestyle", "ISO, MDY")]

def showSetting (query : String) : OdbcResult :=
  let afterShow := strip (String.ofList ((strip query).toList.drop 5))
  let name := lower (strip (String.ofList (trim (fun c => c = ';') afterShow.toList)))
  ⟨[(name, textOid)], [[.str (((settings config).lookup name).getD "")]], "SHOW"⟩

variable (catalog : String → Except String OdbcResult)

/-- `_execute_metadata_query`; `catalog` runs a text on the in-memory catalog -/
def executeMetadataQuery (query : String) : Except String OdbcResult :=
  let text := lowered query
  if startsWith text "show " then .ok (showSetting config query)
  else if contains text "version()" then
    .ok ⟨[("version", textOid)], [[.str "Langbridge runtime federated endpoint (16.0-langbridge)"]], "SELECT 1"⟩
  else if contains text "current_database()" || contains text "current_catalog" then
    .ok ⟨[("current_database", textOid)], [[.str config.databaseName]], "SELECT 1"⟩
  else if contains text "current_schema()" then
    .ok ⟨[("current_schema", textOid)], [[.str config.schemaName]], "SELECT 1"⟩
  else if contains text "current_schemas(" then
    .ok ⟨[("current_schemas", textOid)], [[.str "\x7bpublic\x7d"]], "SELECT 1"⟩
  else catalog query

/-! ## The runtime -/

/-- a match of `_PUBLIC_SCHEMA_RE` at the start of a text: the rest of the text -/
def publicAt (cs : List Char) : Option (List Char) :=
  if (cs.take 6).map Char.toLower = "public".toList then
    match (cs.drop 6).dropWhile isSpace with
    | '.' :: rest => some rest
    | _ => none
  else none

/-- `_PUBLIC_SCHEMA_RE.sub("", query)`; the flag says that a name character or a quote comes before -/
def dropPublic : Bool → ℕ → List Char → List Char
  | _, _, [] => []
  | _, n + 1, c :: cs => dropPublic (c.isAlphanum || c = '_' || c = '"') n cs
  | inName, 0, c :: cs =>
    match (if inName then none else publicAt (c :: cs)) with
    | some rest => dropPublic false (cs.length - rest.length) cs
    | none => c :: dropPublic (c.isAlphanum || c = '_' || c = '"') 0 cs

def stripPublicSchema : SqlNode → SqlNode
  | .table t => if norm t.db = config.schemaName then .table { t with db := "" } else .table t
  | l => l

variable (P : SqlGuards.SqlParser) (print : SqlTree → String) (executeSql : String → ℕ → Except String SqlPayload)

def normalizeRuntimeQuery (query : String) : String :=
  match SqlGuards.parseOne P query "postgres" with
  | .error _ => String.ofList (dropPublic false 0 query.toList)
  | .ok t => print (t.map (stripPublicSchema config))

def effectiveLimit : Option ℕ → ℕ
  | none => config.maxRows
  | some n => if n = 0 then config.maxRows else max 1 (min n config.maxRows)

def normalizeColumn (rows : List (Dict String Json)) (column : String × Option String) : Option (String × ℕ) :=
  let name := strip column.1
  if name = "" then none
  else
    match column.2 with
    | some type => some (name, (pgTypeOids.lookup (norm type)).getD textOid)
    | none =>
      let values := (rows.map fun row => (row.get? name).getD .null).filter fun v => !v.isNull
      some (name, inferTypeOidFromValue (values.headD .null))

def normalizeColumns (payload : SqlPayload) : List (String × ℕ) :=
  match payload.columns.filterMap (normalizeColumn payload.rows) with
  | [] =>
    match payload.rows with
    | row :: _ => row.entries.map fun e => (e.1, inferTypeOidFromValue e.2)
    | [] => []
  | columns => columns

def normalizeRows : List String → List (Dict String Json) → List (List Json)
  | _, [] => []
  | names, row :: rows =>
    let names := if names = [] then row.keys else names
    (names.map fun n => (row.get? n).getD .null) :: normalizeRows names rows

/-- the result of a query that the runtime has answered -/
def runtimeResult (payload : SqlPayload) : OdbcResult :=
  let columns := normalizeColumns payload
  let rows := normalizeRows (columns.map Prod.fst) payload.rows
  ⟨columns, rows, "SELECT " ++ toString rows.length⟩

/-- how a query is answered -/
inductive Route where
  | session
  | catalog
  | runtime
  deriving DecidableEq

/-- who answers a rendered query -/
def routeOf (rendered : String) : Route :=
  if isSessionCommand rendered then .session else if isMetadataQuery rendered then .catalog else .runtime

def answer (rendered : String) (maxRows : Option ℕ) : Except String OdbcResult :=
  match routeOf rendered with
  | .session => .ok (executeSessionCommand rendered)
  | .catalog => executeMetadataQuery config catalog rendered
  | .runtime =>
    (executeSql (normalizeRuntimeQuery config P print rendered) (effectiveLimit config maxRows)).map runtimeResult

/-- the text without blanks around it and semicolons at its end -/
def normalizedQuery (query : String) : String :=
  String.ofList ((strip query).toList.reverse.dropWhile fun c => c = ';').reverse

/-- the text that is routed -/
def renderedQuery (query : String) (parameters : List (Option String)) : Option String :=
  if normalizedQuery query = "" then none
  else (renderQueryWithParameters (normalizedQuery query) parameters).toOption

/-- `RuntimeOdbcQueryGateway.execute` -/
def execute (query : String) (parameters : List (Option String)) (maxRows : Option ℕ) : Except String OdbcResult :=
  if normalizedQuery query = "" then .ok ⟨[], [], "EMPTY"⟩
  else do
    let rendered ← renderQueryWithParameters (normalizedQuery query) parameters
    answer config catalog P print executeSql rendered maxRows

theorem execute_eq (query : String) (parameters : List (Option String)) (maxRows : Option ℕ) (rendered : String)
    (h : renderedQuery query parameters = some rendered) :
    execute config catalog P print executeSql query parameters maxRows =
      answer config catalog P print executeSql rendered maxRows := by
  unfold renderedQuery at h
  unfold execute
  split_ifs at h ⊢ with hempty
  cases hrender : renderQueryWithParameters (normalizedQuery query) parameters with
  | error e =>
    rw [hrender] at h
    cases h
  | ok r =>
    rw [hrender] at h
    cases h
    rfl

def AnsweredByRuntime (query : String) (parameters : List (Option String)) : Prop :=
  (renderedQuery query parameters).map routeOf = some .runtime

/-- the runtime and the limit do not matter to the queries that the runtime does not answer -/
theorem execute_of_not_runtime {query : String} {parameters : List (Option String)}
    (h : ¬AnsweredByRuntime query parameters) (executeSql' : String → ℕ → Except String SqlPayload)
    (maxRows maxRows' : Option ℕ) :
    execute config catalog P print executeSql query parameters maxRows =
      execute config catalog P print executeSql' query parameters maxRows' := by
  unfold AnsweredByRuntime at h
  cases hrendered : renderedQuery query parameters with
  | none =>
    unfold renderedQuery at hrendered
    unfold execute
    split_ifs at hrendered ⊢
    · rfl
    · cases hrender : renderQueryWithParameters (normalizedQuery query) parameters with
      | error e => rfl
      | ok r =>
        rw [hrender] at hrendered
        cases hrendered
  | some rendered =>
    rw [execute_eq _ _ _ _ _ _ _ _ _ hrendered, execute_eq _ _ _ _ _ _ _ _ _ hrendered]
    rw [hrendered] at h
    unfold answer
    cases hroute : routeOf rendered with
    | session => rfl
    | catalog => rfl
    | runtime => exact absurd (congrArg some hroute) h

end Gateway

/-! ## What a query refers to -/

/-- the relations and functions of a query, and whether it is a `SHOW` command -/
structure References where
  relations : List TableName
  functions : List String
  isShow : Bool

section Routing

variable [PyText]

def References.toCatalog (r : References) : Bool :=
  r.isShow || r.relations.any (fun t => ["information_schema", "pg_catalog"].contains (norm t.db)) ||
    r.functions.any fun f =>
      ["version", "current_database", "current_catalog", "current_schema", "current_schemas"].contains (norm f)

/-- a keyword stands in a string, a quoted name or a comment -/
def KeywordInContents (text : List Char) : Prop :=
  ∃ k ∈ metadataTokens, ∃ t ∈ sqlTokens.lex text, t.state.isContent = true ∧ k.toList <:+: t.text

/-- a keyword stands in the code between strings, quoted names and comments -/
def KeywordInCode (text : List Char) : Prop :=
  ∃ k ∈ metadataTokens, Token.InOpen LexState.isContent k.toList (sqlTokens.lex text)

variable (references : String → References) (query : String) (parameters : List (Option String))

def RoutedByReferences : Prop :=
  ∀ rendered, renderedQuery query parameters = some rendered → isSessionCommand rendered = false →
    (routeOf rendered = .catalog ↔ (references rendered).toCatalog = true)

/-- a text that refers to the catalog spells a keyword; one that does not has none, in its code or in its contents -/
def SpelledByReferences : Prop :=
  ∀ rendered, renderedQuery query parameters = some rendered → isSessionCommand rendered = false →
    if (references rendered).toCatalog = true then
      KeywordInContents (lowered rendered).toList ∨ KeywordInCode (lowered rendered).toList
    else ¬KeywordInContents (lowered rendered).toList ∧ ¬KeywordInCode (lowered rendered).toList

omit [PyText] in
theorem metadataTokens_marks : ∀ k ∈ metadataTokens, (∀ c ∈ marks, c ∉ k.toList) ∧ k.toList ≠ [] := by
  have hall : (metadataTokens.all fun k => (marks.all fun c => !k.toList.contains c) && !k.toList.isEmpty) = true := by
    decide
  intro k hk
  have h := List.all_eq_true.1 hall k hk
  rw [Bool.and_eq_true, List.all_eq_true] at h
  exact ⟨fun c hc => by simpa using h.1 c hc, by simpa using h.2⟩

/-- the texts that the gateway takes for queries of the catalog -/
theorem isMetadataQuery_iff (text : String) :
    isMetadataQuery text = true ↔ KeywordInContents (lowered text).toList ∨ KeywordInCode (lowered text).toList := by
  unfold isMetadataQuery KeywordInContents KeywordInCode contains
  rw [List.any_eq_true]
  constructor
  · rintro ⟨k, hk, hin⟩
    obtain ⟨hmarks, hne⟩ := metadataTokens_marks k hk
    rcases (infix_lex_iff hmarks hne _).1 (of_decide_eq_true hin) with hcontents | hcode
    · exact .inl ⟨k, hk, hcontents⟩
    · exact .inr ⟨k, hk, hcode⟩
  · rintro (⟨k, hk, hcontents⟩ | ⟨k, hk, hcode⟩)
    · obtain ⟨hmarks, hne⟩ := metadataTokens_marks k hk
      exact ⟨k, hk, decide_eq_true ((infix_lex_iff hmarks hne _).2 (.inl hcontents))⟩
    · obtain ⟨hmarks, hne⟩ := metadataTokens_marks k hk
      exact ⟨k, hk, decide_eq_true ((infix_lex_iff hmarks hne _).2 (.inr hcode))⟩

theorem routeOf_catalog_iff (rendered : String) (h : isSessionCommand rendered = false) :
    routeOf rendered = .catalog ↔ isMetadataQuery rendered = true := by
  unfold routeOf
  rw [h]
  cases isMetadataQuery rendered with
  | true => exact ⟨fun _ => rfl, fun _ => rfl⟩
  | false =>
    constructor
    · intro hroute
      cases hroute
    · intro hfalse
      cases hfalse

/-- **Routing by keywords.** The catalog answers a query if and only if it refers to the catalog, exactly when its text
spells a keyword if it does, and holds none anywhere if it does not. -/
theorem routing_iff :
    RoutedByReferences references query parameters ↔ SpelledByReferences references query parameters := by
  refine forall_congr' fun rendered => forall_congr' fun _ => forall_congr' fun hsession => ?_
  rw [routeOf_catalog_iff rendered hsession, isMetadataQuery_iff]
  cases (references rendered).toCatalog with
  | true =>
    exact ⟨fun h => h.2 rfl, fun h => ⟨fun _ => rfl, fun _ => h⟩⟩
  | false =>
    rw [if_neg Bool.false_ne_true, ← not_or]
    constructor
    · intro h hkeyword
      exact Bool.false_ne_true (h.1 hkeyword)
    · intro h
      exact ⟨fun hkeyword => absurd hkeyword h, fun hfalse => absurd hfalse Bool.false_ne_true⟩

end Routing

/-! ## A parameter that holds a keyword -/

section Misrouted

open scoped Ascii

def notesQuery : String := "SELECT id FROM notes WHERE body = $1"

/-- the query refers to the table of notes only -/
def notesReferences : String → References := fun _ => ⟨[⟨"", "", "notes"⟩], [], false⟩

def notesConfig : OdbcConfig := ⟨"langbridge", "public", 10000⟩

/-- the tables of the catalog have no rows -/
def notesCatalog : String → Except String OdbcResult := fun _ => .ok ⟨[("id", 20)], [], "SELECT 0"⟩

def notesRuntime : String → ℕ → Except String SqlPayload :=
  fun _ _ => .ok ⟨[("id", none)], [⟨[("id", .int 1)], by decide⟩]⟩

def notesAnswer (body : String) : Except String OdbcResult :=
  execute notesConfig notesCatalog ⟨fun _ _ => .error "no parser"⟩ (fun _ => "") notesRuntime notesQuery [some body] none

/-- **A keyword in a parameter.** The catalog answers the query over notes without a row when the text looked for holds
`show `. -/
theorem parameter_misroutes :
    ¬RoutedByReferences notesReferences notesQuery [some "to show all"] ∧
      notesAnswer "to show all" = .ok ⟨[("id", 20)], [], "SELECT 0"⟩ ∧
      notesAnswer "all" = .ok ⟨[("id", 20)], [[.int 1]], "SELECT 1"⟩ := by
  refine ⟨?_, rfl, rfl⟩
  intro h
  have hiff := h "SELECT id FROM notes WHERE body = 'to show all'" (by decide) (by decide)
  have hroute : routeOf "SELECT id FROM notes WHERE body = 'to show all'" = .catalog := by decide
  have hreferences := hiff.1 hroute
  exact absurd hreferences (by decide)

end Misrouted

end Langbridge.Runtime.Odbc
